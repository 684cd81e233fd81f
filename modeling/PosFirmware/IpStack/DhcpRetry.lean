import PosFirmware.IpStack.DhcpTimer

/-!
# Acknowledgements and retries of the DHCP client

A packet either is applied as a whole or leaves the client and its device alone (`input_applied`),
when the options of what the client takes for an ACK are plain. A client that runs sends again
after some ticks (`Live.retries`), as long as no buffer is missing in a tick that takes `time_out`
below zero: this is the only way out of `Live`.
-/

namespace PosFirmware.IpStack

open PosFirmware.Foundation

/-! ## Acknowledgements -/

/-- What the options of a packet say to a waiting client. -/
def ackFound (items : List DhcpItem) : AckFound := items.foldl (takeItem ackRule) ackStart

/-- The packet is an ACK of the current transaction with a mask and a lease time. -/
structure Acknowledges (s : DhcpState) (mem : Nat → Byte) (len : Nat) (items : List DhcpItem) :
    Prop where
  addressed : s.Addressed mem
  waiting : s.client.state = DHCP_REQUEST ∨ s.client.state = DHCP_ACK
  sequence : OptionSequence ackRule (optionField mem len) items
  kind : DhcpItem.option DHCP_OPTION_MESSAGE_TYPE [DHCP_ACK] ∈ items
  mask : ∃ value, DhcpItem.option DHCP_OPTION_SUBNET_MASK value ∈ items
  lease : ∃ value, DhcpItem.option DHCP_OPTION_LEASE_TIME value ∈ items

/-- An OFFER may start a request. Nothing is bound, and the lease stays as it is. -/
structure Requests (s s' : DhcpState) : Prop where
  discovering : s.client.state = DHCP_DISCOVER
  dev : s'.dev = s.dev
  leaseTime : s'.client.leaseTime = s.client.leaseTime
  leaseTimeSwitch : s'.client.leaseTimeSwitch = s.client.leaseTimeSwitch
  retry : s'.client.retry = s.client.retry
  started : s'.client.state = s.client.state ∧ s'.client.timeOut = s.client.timeOut ∨
    s'.client.state = DHCP_REQUEST ∧ s'.client.timeOut = 5000

/-- A packet is applied as a whole, or not at all. -/
def Applied (s : DhcpState) (mem : Nat → Byte) (len : Nat) (s' : DhcpState) : Prop :=
  s' = s ∨ Requests s s' ∨
    ∃ items, Acknowledges s mem len items ∧ s'.client.state = DHCP_ACK ∧
      s' = s.bound mem (ackFound items)

/-- What a client that waits for an ACK reads has plain options. -/
def PacketPlain (s : DhcpState) (mem : Nat → Byte) (len : Nat) : Prop :=
  s.Addressed mem → s.client.state = DHCP_REQUEST ∨ s.client.state = DHCP_ACK →
    FieldPlain ackRule (optionField mem len)

theorem foldl_changes {α β γ : Type} {step : α → β → α} (view : α → γ) {items : List β} {start : α}
    (changed : view (items.foldl step start) ≠ view start) :
    ∃ item ∈ items, ∃ before, view (step before item) ≠ view before := by
  induction items generalizing start with
  | nil => exact absurd rfl changed
  | cons item items past =>
    by_cases here : view (step start item) = view start
    · obtain ⟨other, member, before, differs⟩ := past (here ▸ changed)
      exact ⟨other, List.mem_cons_of_mem _ member, before, differs⟩
    · exact ⟨item, List.mem_cons_self .., start, here⟩

theorem takeItem_changes (item : DhcpItem) (found : AckFound) :
    ((takeItem ackRule found item).back ≠ found.back →
      item = .option DHCP_OPTION_MESSAGE_TYPE [DHCP_ACK]) ∧
    ((takeItem ackRule found item).mask ≠ found.mask →
      ∃ value, item = .option DHCP_OPTION_SUBNET_MASK value) ∧
    ((takeItem ackRule found item).leaseTime ≠ found.leaseTime →
      ∃ value, item = .option DHCP_OPTION_LEASE_TIME value) := by
  cases item with
  | pad => simp [takeItem]
  | option tag value =>
    unfold takeItem
    dsimp only
    by_cases kind : tag = DHCP_OPTION_MESSAGE_TYPE
    · rw [ackRule, if_pos kind, kind]
      dsimp only
      split_ifs with wanted
      · exact ⟨fun _ => by rw [wanted], by simp, by simp⟩
      · simp
    · by_cases mask : tag = DHCP_OPTION_SUBNET_MASK
      · rw [ackRule, if_neg kind, if_pos mask, mask]
        exact ⟨by simp, fun _ => ⟨value, rfl⟩, by simp⟩
      · by_cases lease : tag = DHCP_OPTION_LEASE_TIME
        · rw [ackRule, if_neg kind, if_neg mask, if_pos lease, lease]
          exact ⟨by simp, by simp, fun _ => ⟨value, rfl⟩⟩
        · rw [ackRule, if_neg kind, if_neg mask, if_neg lease]
          by_cases router : tag = DHCP_OPTION_ROUTER
          · rw [if_pos router]
            simp
          · rw [if_neg router]
            by_cases dns : tag = DHCP_OPTION_DNS_SERVER
            · rw [if_pos dns]
              simp
            · rw [if_neg dns]
              simp

theorem ackFound_ok {items : List DhcpItem} (kind : (ackFound items).back ≠ false)
    (mask : (ackFound items).mask ≠ 0) (lease : (ackFound items).leaseTime ≠ 0) :
    DhcpItem.option DHCP_OPTION_MESSAGE_TYPE [DHCP_ACK] ∈ items ∧
      (∃ value, DhcpItem.option DHCP_OPTION_SUBNET_MASK value ∈ items) ∧
      ∃ value, DhcpItem.option DHCP_OPTION_LEASE_TIME value ∈ items := by
  refine ⟨?_, ?_, ?_⟩
  · obtain ⟨item, member, before, changed⟩ := foldl_changes AckFound.back kind
    exact (takeItem_changes item before).1 changed ▸ member
  · obtain ⟨item, member, before, changed⟩ := foldl_changes AckFound.mask mask
    obtain ⟨value, rfl⟩ := (takeItem_changes item before).2.1 changed
    exact ⟨value, member⟩
  · obtain ⟨item, member, before, changed⟩ := foldl_changes AckFound.leaseTime lease
    obtain ⟨value, rfl⟩ := (takeItem_changes item before).2.2 changed
    exact ⟨value, member⟩

theorem ackTaken_of_plain {mem : Nat → Byte} {len : Nat} {found : AckFound}
    (plain : FieldPlain ackRule (optionField mem len)) (taken : ackTaken mem len = some found) :
    ∃ items, OptionSequence ackRule (optionField mem len) items ∧ found = ackFound items ∧
      ¬ (found.back = false ∨ found.mask = 0 ∨ found.leaseTime = 0) := by
  have reads := (dhcpOptions_iff mem len).2.mpr plain
  unfold ackTaken at taken
  obtain ⟨items, s, sequence, ended, same⟩ | ⟨⟨s, ended⟩, -⟩ :=
    dhcpScan_of_readsGrammar ⟨rfl, rfl⟩ reads
  · rw [ended] at taken
    change (if s.found.back = false ∨ s.found.mask = 0 ∨ s.found.leaseTime = 0 then none
      else some s.found) = some found at taken
    split_ifs at taken with refused
    obtain rfl := Option.some.inj taken
    exact ⟨items, sequence, same, refused⟩
  · rw [ended] at taken
    exact absurd taken (by simp)

theorem offer_requests {s : DhcpState} (memory : Bool) (mem : Nat → Byte) (len : Nat)
    (discovering : s.client.state = DHCP_DISCOVER) :
    Requests s { s with client := dhcpOfferProcess s.client (s.requested memory) mem len } := by
  unfold dhcpOfferProcess dhcpProcess
  split
  · next scan ended =>
    unfold DhcpClient.offered
    split_ifs
    · unfold DhcpState.requested dhcpRequest
      cases memory with
      | true => exact ⟨discovering, rfl, rfl, rfl, rfl, .inr ⟨rfl, rfl⟩⟩
      | false => exact ⟨discovering, rfl, rfl, rfl, rfl, .inl ⟨rfl, rfl⟩⟩
    · exact ⟨discovering, rfl, rfl, rfl, rfl, .inl ⟨rfl, rfl⟩⟩
  · exact ⟨discovering, rfl, rfl, rfl, rfl, .inl ⟨rfl, rfl⟩⟩

theorem input_applied {s : DhcpState} {mem : Nat → Byte} {len : Nat} (memory : Bool)
    (plain : PacketPlain s mem len) : Applied s mem len (s.input memory mem len) := by
  unfold DhcpState.input
  by_cases addressed : s.Addressed mem
  · rw [if_neg (not_not.mpr addressed)]
    split_ifs with discovering waiting
    · exact .inr (.inl (offer_requests memory mem len discovering))
    · unfold DhcpState.ack
      cases taken : ackTaken mem len with
      | none => exact .inl rfl
      | some found =>
        obtain ⟨items, sequence, rfl, ok⟩ := ackTaken_of_plain (plain addressed waiting) taken
        obtain ⟨kind, mask, lease⟩ := ackFound_ok (fun zero => ok (.inl zero))
          (fun zero => ok (.inr (.inl zero))) (fun zero => ok (.inr (.inr zero)))
        refine .inr (.inr ⟨items, ⟨addressed, waiting, sequence, kind, mask, lease⟩, ?_, rfl⟩)
        change (s.client.acked mem (ackFound items)).state = DHCP_ACK
        rw [DhcpClient.acked, if_neg ok]
    · exact .inl rfl
  · rw [if_pos addressed]
    exact .inl rfl

/-! ## Retries -/

/-- Some tick, at once or later, calls a sender. -/
def Retries (s : DhcpState) : Prop :=
  ∃ ticks, (dhcpTimer true (s.run (List.replicate ticks (.tick true)))).1.isSome

/-- What holds of a client that runs. -/
structure Live (s : DhcpState) : Prop where
  timeOut : 0 ≤ s.client.timeOut.toInt
  state : s.client.state = DHCP_DISCOVER ∧ 0 < s.client.retry ∨ s.client.state = DHCP_REQUEST ∨
    s.client.state = DHCP_ACK ∧ s.client.retry ≤ 2 ∧
      ∀ time ∈ s.client.leaseTimeSwitch, 0 ≤ time.toInt

theorem toInt_nonneg {time : BitVec 32} (small : time.toNat < 2 ^ 31) : 0 ≤ time.toInt := by
  rw [BitVec.toInt_eq_toNat_of_lt (by omega)]
  exact Int.natCast_nonneg _

theorem toInt_sub_scale {time : BitVec 32} (nonneg : 0 ≤ time.toInt) :
    (time - INET_TIMER_SCALE).toInt = time.toInt - 10 := by
  have small := BitVec.toInt_lt (x := time)
  have scale : INET_TIMER_SCALE.toInt = 10 := by decide
  rw [BitVec.toInt_sub, scale]
  exact Int.bmod_eq_of_le (by omega) (by omega)

variable {s : DhcpState}

theorem dhcpTimer_early (memory : Bool) (early : 10 < s.client.timeOut.toInt) :
    dhcpTimer memory s = (none, { s with
      client := { s.client with timeOut := s.client.timeOut - INET_TIMER_SCALE } }) := by
  have left := toInt_sub_scale (show 0 ≤ s.client.timeOut.toInt by omega)
  unfold dhcpTimer
  rw [if_neg (by omega)]
  exact if_pos (show 0 < (s.client.timeOut - INET_TIMER_SCALE).toInt by omega)

/-- A bound client whose time runs. -/
structure Bound (s : DhcpState) : Prop where
  timeOut : 0 ≤ s.client.timeOut.toInt
  state : s.client.state = DHCP_ACK
  few : s.client.retry ≤ 2
  switches : ∀ time ∈ s.client.leaseTimeSwitch, 0 ≤ time.toInt

theorem dhcpRenew_bound (memory : Bool) (state : s.client.state = DHCP_ACK)
    (few : s.client.retry ≤ 2) (switches : ∀ time ∈ s.client.leaseTimeSwitch, 0 ≤ time.toInt)
    (fair : memory = true ∨ 0 ≤ s.client.timeOut.toInt) :
    Bound (dhcpRenew memory s.client.retry s) := by
  unfold dhcpRenew
  split_ifs with refused
  · refine ⟨fair.resolve_left fun given => ?_, state, few, switches⟩
    rcases refused with none_ | late
    · rw [none_] at given
      exact absurd given (by decide)
    · omega
  · refine ⟨?_, rfl, few, switches⟩
    dsimp only
    rw [List.getD_eq_getElem?_getD]
    cases found : s.client.leaseTimeSwitch[s.client.retry]? with
    | none => decide
    | some time => exact switches time (List.mem_of_getElem? found)

theorem Live.due (live : Live s) (late : s.client.timeOut.toInt ≤ 10) (memory : Bool) :
    (dhcpTimer memory s).1.isSome ∧
      (memory = true ∨ s.client.timeOut.toInt = 10 → Live (dhcpTimer memory s).2) := by
  have left := toInt_sub_scale live.timeOut
  obtain ⟨nonneg, state⟩ := live
  unfold dhcpTimer
  rw [if_neg (by omega)]
  dsimp only
  rw [if_neg (show ¬ 0 < (s.client.timeOut - INET_TIMER_SCALE).toInt by omega)]
  have stays (exact_ : s.client.timeOut.toInt = 10) :
      0 ≤ (s.client.timeOut - INET_TIMER_SCALE).toInt := by omega
  have again : 0 ≤ (5000 : BitVec 32).toInt := by decide
  obtain ⟨discovering, more⟩ | requesting | ⟨bound, few, switches⟩ := state
  · rw [if_pos discovering, if_pos more]
    refine ⟨rfl, fun fair => ?_⟩
    cases memory with
    | true => exact ⟨again, .inl ⟨rfl, more⟩⟩
    | false => exact ⟨stays (by simpa using fair), .inl ⟨discovering, more⟩⟩
  · rw [if_neg (by rw [requesting]; decide), if_pos requesting]
    split_ifs with more
    · refine ⟨rfl, fun fair => ?_⟩
      cases memory with
      | true => exact ⟨again, .inr (.inl rfl)⟩
      | false => exact ⟨stays (by simpa using fair), .inr (.inl requesting)⟩
    · refine ⟨rfl, fun fair => ?_⟩
      cases memory with
      | true => exact ⟨again, .inl ⟨rfl, show 0 < 10 by decide⟩⟩
      | false => exact ⟨stays (by simpa using fair), .inr (.inl requesting)⟩
  · rw [if_neg (by rw [bound]; decide), if_neg (by rw [bound]; decide), if_pos bound]
    refine ⟨rfl, fun fair => ?_⟩
    have renewed := dhcpRenew_bound memory (s := { s with
      client := { s.client with timeOut := s.client.timeOut - INET_TIMER_SCALE } }) bound few
      switches (fair.imp_right stays)
    split_ifs with less
    · refine ⟨renewed.timeOut, .inr (.inr ⟨renewed.state, ?_, renewed.switches⟩)⟩
      exact less
    · exact ⟨renewed.timeOut, .inr (.inr ⟨renewed.state, renewed.few, renewed.switches⟩)⟩

theorem Live.tick (live : Live s) {memory : Bool}
    (fair : memory = true ∨ 10 ≤ s.client.timeOut.toInt) : Live (dhcpTimer memory s).2 := by
  rcases Int.lt_or_le 10 s.client.timeOut.toInt with early | late
  · rw [dhcpTimer_early memory early]
    refine ⟨?_, live.state⟩
    have left := toInt_sub_scale live.timeOut
    dsimp only
    omega
  · exact (live.due late memory).2 (fair.imp_right fun least => by omega)

theorem Live.retries (live : Live s) : Retries s := by
  induction most : s.client.timeOut.toInt.toNat using Nat.strong_induction_on generalizing s with
  | _ most smaller =>
    rcases Int.lt_or_le 10 s.client.timeOut.toInt with early | late
    · have next : (s.step (.tick true)).client.timeOut.toInt = s.client.timeOut.toInt - 10 := by
        change (dhcpTimer true s).2.client.timeOut.toInt = _
        rw [dhcpTimer_early true early]
        exact toInt_sub_scale live.timeOut
      obtain ⟨ticks, sends⟩ := smaller _ (by omega) (live.tick (.inl rfl)) (congrArg Int.toNat next)
      exact ⟨ticks + 1, sends⟩
    · exact ⟨0, (live.due late true).1⟩

theorem ackTaken_ok {mem : Nat → Byte} {len : Nat} {found : AckFound}
    (taken : ackTaken mem len = some found) :
    ¬ (found.back = false ∨ found.mask = 0 ∨ found.leaseTime = 0) := by
  unfold ackTaken at taken
  split at taken
  · split_ifs at taken with refused
    obtain rfl := Option.some.inj taken
    exact refused
  · exact absurd taken (by simp)

private theorem toInt_div_nonneg (time : BitVec 32) {share : BitVec 32} (least : 2 ≤ share.toNat) :
    0 ≤ (time / share).toInt := by
  apply toInt_nonneg
  rw [BitVec.toNat_udiv]
  have half : time.toNat / share.toNat ≤ time.toNat / 2 := Nat.div_le_div_left least (by decide)
  omega

private theorem atLeast_nonneg {time : BitVec 32} (nonneg : 0 ≤ time.toInt) :
    0 ≤ (if time < 60000 then 60000 else time).toInt := by
  split_ifs
  · decide
  · exact nonneg

theorem bound_live {mem : Nat → Byte} {found : AckFound}
    (ok : ¬ (found.back = false ∨ found.mask = 0 ∨ found.leaseTime = 0)) :
    Live (s.bound mem found) := by
  unfold DhcpState.bound DhcpClient.acked
  rw [if_neg ok]
  refine ⟨toInt_div_nonneg _ (by decide), .inr (.inr ⟨rfl, Nat.zero_le _, fun time member => ?_⟩)⟩
  simp only [List.map_cons, List.map_nil, List.mem_cons, List.not_mem_nil, or_false] at member
  obtain rfl | rfl | rfl := member
  · exact atLeast_nonneg (toInt_div_nonneg _ (by decide))
  · exact atLeast_nonneg (toInt_div_nonneg _ (by decide))
  · exact atLeast_nonneg (toInt_div_nonneg _ (by decide))

theorem Live.requested {s' : DhcpState} (live : Live s) (requests : Requests s s') : Live s' := by
  obtain ⟨discovering, -, -, -, retry, ⟨state, timeOut⟩ | ⟨state, timeOut⟩⟩ := requests
  · have more : 0 < s.client.retry := by
      obtain ⟨-, more⟩ | requesting | ⟨bound, -⟩ := live.state
      · exact more
      · exact absurd (discovering.symm.trans requesting) (by decide)
      · exact absurd (discovering.symm.trans bound) (by decide)
    exact ⟨timeOut ▸ live.timeOut, .inl ⟨state.trans discovering, retry ▸ more⟩⟩
  · refine ⟨?_, .inr (.inl state)⟩
    rw [timeOut]
    decide

theorem Live.packet (live : Live s) (memory : Bool) (mem : Nat → Byte) (len : Nat) :
    Live (s.input memory mem len) := by
  unfold DhcpState.input
  by_cases addressed : s.Addressed mem
  · rw [if_neg (not_not.mpr addressed)]
    split_ifs with discovering waiting
    · exact live.requested (offer_requests memory mem len discovering)
    · unfold DhcpState.ack
      cases taken : ackTaken mem len with
      | none => exact live
      | some found => exact bound_live (ackTaken_ok taken)
    · exact live
  · rw [if_pos addressed]
    exact live

theorem start_live (s : DhcpState) : Live (s.start true) :=
  ⟨show 0 ≤ (5000 : BitVec 32).toInt by decide, .inl ⟨rfl, show 0 < 10 by decide⟩⟩

/-! ## Runs -/

/-- A client that no tick brings back. -/
def Dead (s : DhcpState) : Prop := s.client.timeOut.toInt < 0 ∨ s.client.state = 0

theorem Dead.tick (dead : Dead s) :
    (dhcpTimer true s).1 = none ∧ Dead (dhcpTimer true s).2 := by
  unfold dhcpTimer
  by_cases over_ : s.client.timeOut.toInt < 0
  · rw [if_pos over_]
    exact ⟨rfl, .inl over_⟩
  · have stopped : s.client.state = 0 := dead.resolve_left over_
    rw [if_neg over_]
    dsimp only
    split_ifs with early discovering more requesting more bound less
    · exact ⟨rfl, .inr stopped⟩
    · exact absurd (stopped.symm.trans discovering) (by decide)
    · exact absurd (stopped.symm.trans discovering) (by decide)
    · exact absurd (stopped.symm.trans requesting) (by decide)
    · exact absurd (stopped.symm.trans requesting) (by decide)
    · exact absurd (stopped.symm.trans bound) (by decide)
    · exact absurd (stopped.symm.trans bound) (by decide)
    · exact ⟨rfl, .inr stopped⟩

theorem Dead.not_retries (dead : Dead s) : ¬ Retries s := by
  rintro ⟨ticks, sends⟩
  induction ticks generalizing s with
  | zero =>
    rw [List.replicate_zero] at sends
    exact absurd (dead.tick.1 ▸ sends) (by simp)
  | succ ticks past => exact past dead.tick.2 sends

theorem Live.timeOut_missing (live : Live s) (late : s.client.timeOut.toInt ≤ 10) :
    (dhcpTimer false s).2.client.timeOut.toInt = s.client.timeOut.toInt - 10 := by
  have left := toInt_sub_scale live.timeOut
  have nonneg := live.timeOut
  rw [← left]
  unfold dhcpTimer dhcpRenew
  rw [if_neg (by omega)]
  dsimp only
  rw [if_neg (show ¬ 0 < (s.client.timeOut - INET_TIMER_SCALE).toInt by omega),
    if_pos (show false = false ∨ 3 ≤ s.client.retry from .inl rfl)]
  split_ifs
  all_goals rfl

/-- The steps that do not reach the defect: a tick has memory for its sender, or it leaves
`time_out` at zero or above. -/
def DhcpState.Fair (s : DhcpState) : DhcpEvent → Prop
  | .tick memory => memory = true ∨ 10 ≤ s.client.timeOut.toInt
  | .packet _ _ _ => True

/-- A run whose steps are all fair. -/
def DhcpState.FairRun (s : DhcpState) : List DhcpEvent → Prop
  | [] => True
  | event :: events => s.Fair event ∧ (s.step event).FairRun events

theorem Live.step (live : Live s) {event : DhcpEvent} (fair : s.Fair event) :
    Live (s.step event) := by
  cases event with
  | tick memory => exact live.tick fair
  | packet memory mem len => exact live.packet memory mem len

theorem Live.run_iff (live : Live s) (events : List DhcpEvent) :
    (∀ front back, events = front ++ back → Retries (s.run front)) ↔ s.FairRun events := by
  induction events generalizing s with
  | nil =>
    refine ⟨fun _ => trivial, fun _ front back split_ => ?_⟩
    rw [(List.append_eq_nil_iff.mp split_.symm).1]
    exact live.retries
  | cons event events past =>
    constructor
    · intro all
      have fair : s.Fair event := by
        cases event with
        | packet memory mem len => trivial
        | tick memory =>
          by_contra unfair
          obtain ⟨none_, less⟩ := not_or.mp unfair
          obtain rfl := Bool.eq_false_of_not_eq_true none_
          have missing := live.timeOut_missing (by omega)
          have dead : Dead (s.step (.tick false)) := .inl (missing.trans_lt (by omega))
          exact dead.not_retries (all [.tick false] events rfl)
      exact ⟨fair, (past (live.step fair)).mp fun front back split_ =>
        all (event :: front) back (congrArg (event :: ·) split_)⟩
    · rintro ⟨fair, later⟩ front back split_
      cases front with
      | nil => exact live.retries
      | cons first front =>
        obtain ⟨rfl, rest⟩ := List.cons.inj split_
        exact (past (live.step fair)).mpr later front back rest

/-- A client before its first start. -/
def idleDhcp : DhcpState where
  client := ⟨0, 0, 0, 0, 0, 0, 0, 0, 0, 0, [0, 0, 0]⟩
  dev := ⟨0, 0, 0, 0, [0, 0, 0, 0, 0, 0], 0, 0⟩
  xid := 0xdeca0000

/-- A client that waits for an ACK. -/
def waitingDhcp : DhcpState :=
  { idleDhcp with client := { idleDhcp.client with state := DHCP_REQUEST, timeOut := 5000 } }

/-- A reply whose options are the message type, with more options behind the packet. -/
def staleAck : Nat → Byte :=
  Function.update (packetOf [53, 1, 5, 1, 4, 255, 255, 255, 0, 51, 4, 0, 0, 14, 16, 255]) 0 2

theorem Live.waits (live : Live s) (ticks : Nat) (early : 10 * (ticks : Int) < s.client.timeOut.toInt) :
    Live (s.run (List.replicate ticks (.tick true))) ∧
      (s.run (List.replicate ticks (.tick true))).client.timeOut.toInt =
        s.client.timeOut.toInt - 10 * ticks := by
  induction ticks generalizing s with
  | zero => exact ⟨live, by simp [DhcpState.run]⟩
  | succ ticks past =>
    have next : (dhcpTimer true s).2.client.timeOut.toInt = s.client.timeOut.toInt - 10 := by
      rw [dhcpTimer_early true (by omega)]
      exact toInt_sub_scale live.timeOut
    obtain ⟨kept, left⟩ := past (live.tick (.inl rfl)) (by omega)
    exact ⟨kept, left.trans (by omega)⟩

theorem DhcpState.run_append (s : DhcpState) (front back : List DhcpEvent) :
    s.run (front ++ back) = (s.run front).run back := List.foldl_append

theorem Live.dies (live : Live s) (ten : s.client.timeOut.toInt = 10) :
    ¬ Retries (s.run [.tick false, .tick false]) := by
  have fair := (live.due (by omega) false).2 (.inr ten)
  have zero := live.timeOut_missing (by omega)
  have missing := fair.timeOut_missing (by omega)
  exact Dead.not_retries (.inl (missing.trans_lt (by omega)))

end PosFirmware.IpStack
