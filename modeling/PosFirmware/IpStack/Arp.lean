import Mathlib.Data.List.Basic
import PosFirmware.Foundation.Run
import PosFirmware.IpStack.Inet

/-! # The table of ethernet addresses

`arp.c` keeps a list of entries that received packets fill, a timer ages, and an
application may pin. An application pins at most four addresses that the table does
not have yet, but an address that it does have is pinned without counting, so that the
list can hold more than four static entries (`static_limit_broken`). In runs in which
no address is pinned that way, the list keeps one entry for each address and device
and at most four static entries, and no packet or tick touches a static entry
(`arp_integrity`).
-/

namespace PosFirmware.IpStack

open PosFirmware.Foundation

/-! ## Entries -/

/-- The status of an entry. -/
inductive ArpStatus where
  | arpStatic
  | arpOk
  | arpTimeout
  | arpDead
  deriving DecidableEq

/-- `struct arpentry`. -/
structure ArpEntry where
  mac : Mac
  ip : Ip
  status : ArpStatus
  dev : InetDev
  timestamp : BitVec 32
  retry : Int
  deriving DecidableEq

def MAX_ARP_ENTRY_COUNT : Nat := MAX_SOCK_COUNT + 10

/-- `MAX_ARP_TIME`, in milliseconds. -/
def MAX_ARP_TIME : BitVec 32 := 120 * 1000

/-- The device and the address of an entry. -/
def ArpEntry.key (entry : ArpEntry) : InetDev × Ip := (entry.dev, entry.ip)

def ArpEntry.IsStatic (entry : ArpEntry) : Prop := entry.status = .arpStatic

instance (entry : ArpEntry) : Decidable entry.IsStatic :=
  inferInstanceAs (Decidable (_ = _))

/-- `arp_list`, and the address that `arp_wait_pkt` waits for. -/
structure ArpState where
  arpList : List ArpEntry
  nexthop : Ip

/-! ## The functions of `arp.c` -/

/-- `arp_lookup`. -/
def arpLookup (list : List ArpEntry) (dev : InetDev) (dip : Ip) : Option ArpEntry :=
  list.find? fun entry => entry.dev = dev ∧ entry.ip = dip

/-- An entry with the address just heard of. -/
def ArpEntry.fresh (entry : ArpEntry) (dmac : Mac) (now : BitVec 32) : ArpEntry :=
  { entry with mac := dmac, status := .arpOk, timestamp := now + MAX_ARP_TIME }

/-- The first entry for an address, if it is not static, changed in place. -/
def freshFirst (list : List ArpEntry) (dev : InetDev) (dip : Ip) (dmac : Mac) (now : BitVec 32) :
    List ArpEntry :=
  list.replaceF fun entry =>
    if entry.dev = dev ∧ entry.ip = dip then
      some (if entry.IsStatic then entry else entry.fresh dmac now)
    else none

/-- `arp_fresh_nocreate`. -/
def arpFreshNocreate (list : List ArpEntry) (dev : InetDev) (dip : Ip) (dmac : Mac)
    (now : BitVec 32) : List ArpEntry :=
  freshFirst list dev dip dmac now

/-- `arp_fresh`. -/
def arpFresh (list : List ArpEntry) (dev : InetDev) (dip : Ip) (dmac : Mac) (now : BitVec 32) :
    List ArpEntry :=
  match arpLookup list dev dip with
  | none =>
      if list.length < MAX_ARP_ENTRY_COUNT then
        ArpEntry.fresh ⟨0, dip, .arpOk, dev, 0, 0⟩ dmac now :: list
      else list
  | some _ => freshFirst list dev dip dmac now

/-- What the timer makes of an entry; `none` when it is deleted. -/
def arpTick (now : BitVec 32) (entry : ArpEntry) : Option ArpEntry :=
  match entry.status with
  | .arpStatic => some entry
  | .arpTimeout =>
      if entry.timestamp < now then
        if entry.retry > 0 then
          some { entry with retry := entry.retry - 1, timestamp := now + 1 * 1000 }
        else some { entry with status := .arpDead, timestamp := now + 5 * 1000 }
      else some entry
  | .arpOk =>
      if entry.timestamp < now then
        some { entry with status := .arpTimeout, timestamp := now + 1 * 1000, retry := 10 }
      else some entry
  | .arpDead => if entry.timestamp < now then none else some entry

/-- `arp_timer_fun`. -/
def arpTimerFun (list : List ArpEntry) (now : BitVec 32) : List ArpEntry :=
  list.filterMap (arpTick now)

def ARPOP_REQUEST : Nat := 1
def ARPOP_REPLY : Nat := 2

/-- What `arp_input` reads of a packet: whether its header is complete and describes
ethernet and IP, the opcode, and the addresses. -/
structure ArpPacket where
  wellFormed : Bool
  op : Nat
  smac : Mac
  sip : Ip
  dip : Ip

/-- `arp_input`, on a device with this address. -/
def arpInput (s : ArpState) (dev : InetDev) (addr : Ip) (packet : ArpPacket) (now : BitVec 32) :
    ArpState :=
  if !packet.wellFormed then s
  else if packet.op = ARPOP_REPLY then
    if packet.sip = addr then s
    else if s.nexthop ≠ 0 ∧ s.nexthop = packet.sip then
      { arpList := arpFresh s.arpList dev packet.sip packet.smac now, nexthop := 0 }
    else { s with arpList := arpFreshNocreate s.arpList dev packet.sip packet.smac now }
  else s

/-- The first entry for an address on a device, made static. -/
def pinKey (list : List ArpEntry) (dev : InetDev) (ip : Ip) : List ArpEntry :=
  list.replaceF fun entry =>
    if entry.dev = dev ∧ entry.ip = ip then some { entry with status := .arpStatic } else none

/-- `arp_entry_add` with the flag `ARP_STATIC`, when the address is routed to this
device. -/
def arpEntryAdd (list : List ArpEntry) (route : Option InetDev) (ip : Ip) (mac : Mac)
    (now : BitVec 32) : Int × List ArpEntry :=
  match route with
  | none => (NET_ERR_RTE, list)
  | some dev =>
      let list := arpFresh list dev ip mac now
      match arpLookup list dev ip with
      | none => (NET_ERR_MEM, list)
      | some _ => (NET_OK, pinKey list dev ip)

/-- The first entry for an address on any device, made static. -/
def pinFirst (list : List ArpEntry) (ip : Ip) (mac : Mac) : List ArpEntry :=
  list.replaceF fun entry =>
    if entry.ip = ip then some { entry with mac := mac, status := .arpStatic } else none

/-- The number of static entries. -/
def statics (list : List ArpEntry) : Nat := list.countP fun entry => entry.IsStatic

/-- `NetAddStaticArp_std`, on an address that was parsed. -/
def netAddStaticArp (list : List ArpEntry) (route : Option InetDev) (ip : Option Ip) (mac : Mac)
    (now : BitVec 32) : Int × List ArpEntry :=
  match ip with
  | none => (NET_ERR_VAL, list)
  | some ip =>
      if ip = 0 ∨ ip = -1 then (NET_ERR_VAL, list)
      else if list.any fun entry => entry.ip = ip then (NET_OK, pinFirst list ip mac)
      else if statics list < 4 then arpEntryAdd list route ip mac now
      else (NET_ERR_MEM, list)

/-- `arp_entry_delete`. -/
def arpEntryDelete (list : List ArpEntry) (dev : InetDev) : List ArpEntry :=
  list.filter fun entry => entry.dev ≠ dev

/-- What happens to the table. -/
inductive ArpEvent where
  | input (dev : InetDev) (addr : Ip) (packet : ArpPacket) (now : BitVec 32)
  | timer (now : BitVec 32)
  | addStatic (route : Option InetDev) (ip : Option Ip) (mac : Mac) (now : BitVec 32)
  | wait (nexthop : Ip)
  | delete (dev : InetDev)

/-- One event. -/
def arpStep (s : ArpState) : ArpEvent → ArpState
  | .input dev addr packet now => arpInput s dev addr packet now
  | .timer now => { s with arpList := arpTimerFun s.arpList now }
  | .addStatic route ip mac now =>
      { s with arpList := (netAddStaticArp s.arpList route ip mac now).2 }
  | .wait nexthop => { s with nexthop := nexthop }
  | .delete dev => { s with arpList := arpEntryDelete s.arpList dev }

/-- The table after `arp_init`. -/
def arpInit : ArpState := ⟨[], 0⟩

/-! ## One entry for each address and device -/

private theorem map_replaceF_of_kept {α β : Type} {f : α → Option α} {g : α → β}
    (kept : ∀ a b, f a = some b → g b = g a) (list : List α) :
    (list.replaceF f).map g = list.map g := by
  induction list with
  | nil => rfl
  | cons a rest past =>
      rw [List.replaceF_cons]
      cases change : f a with
      | none => simp [past]
      | some b => simp [kept a b change]

private theorem map_filterMap_sublist {α β : Type} {f : α → Option α} {g : α → β}
    (kept : ∀ a b, f a = some b → g b = g a) (list : List α) :
    ((list.filterMap f).map g).Sublist (list.map g) := by
  induction list with
  | nil => exact List.Sublist.refl _
  | cons a rest past =>
      cases change : f a with
      | none => simpa [change] using past.cons (g a)
      | some b => simpa [change, kept a b change] using past.cons_cons (g a)

private theorem keys_replaceF {f : ArpEntry → Option ArpEntry}
    (kept : ∀ a b, f a = some b → b.key = a.key) (list : List ArpEntry) :
    (list.replaceF f).map ArpEntry.key = list.map ArpEntry.key :=
  map_replaceF_of_kept kept list

private theorem freshFirst_keys (list : List ArpEntry) (dev : InetDev) (dip : Ip) (dmac : Mac)
    (now : BitVec 32) :
    (freshFirst list dev dip dmac now).map ArpEntry.key = list.map ArpEntry.key := by
  refine keys_replaceF ?_ list
  intro a b change
  split at change
  · obtain rfl := Option.some.inj change
    split <;> rfl
  · simp at change

private theorem key_notMem_of_arpLookup {list : List ArpEntry} {dev : InetDev} {dip : Ip}
    (missing : arpLookup list dev dip = none) : (dev, dip) ∉ list.map ArpEntry.key := by
  rintro present
  obtain ⟨entry, member, same⟩ := List.mem_map.mp present
  have differs := List.find?_eq_none.mp missing entry member
  exact differs (by simpa [ArpEntry.key] using same)

theorem arpFresh_keys {list : List ArpEntry} (dev : InetDev) (dip : Ip) (dmac : Mac)
    (now : BitVec 32) (apart : (list.map ArpEntry.key).Nodup) :
    ((arpFresh list dev dip dmac now).map ArpEntry.key).Nodup := by
  unfold arpFresh
  split
  next missing =>
    split
    · exact List.nodup_cons.mpr ⟨key_notMem_of_arpLookup missing, apart⟩
    · exact apart
  next =>
    rw [freshFirst_keys]
    exact apart

private theorem arpTick_key {now : BitVec 32} {entry aged : ArpEntry}
    (tick : arpTick now entry = some aged) : aged.key = entry.key := by
  unfold arpTick at tick
  split at tick <;> repeat' split at tick
  all_goals
    first
    | obtain rfl := Option.some.inj tick; simp only [ArpEntry.key]
    | simp at tick

private theorem arpTick_isStatic {now : BitVec 32} {entry aged : ArpEntry}
    (tick : arpTick now entry = some aged) :
    decide aged.IsStatic = decide entry.IsStatic := by
  unfold arpTick at tick
  split at tick <;> repeat' split at tick
  all_goals
    first
    | obtain rfl := Option.some.inj tick; simp_all [ArpEntry.IsStatic]
    | simp at tick

private theorem pinKey_keys (list : List ArpEntry) (dev : InetDev) (ip : Ip) :
    (pinKey list dev ip).map ArpEntry.key = list.map ArpEntry.key := by
  refine keys_replaceF ?_ list
  intro a b change
  split at change
  · obtain rfl := Option.some.inj change
    rfl
  · simp at change

private theorem pinFirst_keys (list : List ArpEntry) (ip : Ip) (mac : Mac) :
    (pinFirst list ip mac).map ArpEntry.key = list.map ArpEntry.key := by
  refine keys_replaceF ?_ list
  intro a b change
  split at change
  · obtain rfl := Option.some.inj change
    rfl
  · simp at change

theorem netAddStaticArp_keys {list : List ArpEntry} (route : Option InetDev) (ip : Option Ip)
    (mac : Mac) (now : BitVec 32) (apart : (list.map ArpEntry.key).Nodup) :
    ((netAddStaticArp list route ip mac now).2.map ArpEntry.key).Nodup := by
  unfold netAddStaticArp
  split
  · exact apart
  next ip =>
    split
    · exact apart
    · split
      · rw [pinFirst_keys]
        exact apart
      · split
        · unfold arpEntryAdd
          split
          · exact apart
          next dev =>
            have fresh := arpFresh_keys dev ip mac now apart
            dsimp only
            split
            · exact fresh
            · rw [pinKey_keys]
              exact fresh
        · exact apart

/-! ## Static entries -/

private theorem statics_eq (list : List ArpEntry) :
    statics list = (list.map fun entry => decide entry.IsStatic).countP id := by
  rw [List.countP_map]
  rfl

private theorem freshFirst_statics (list : List ArpEntry) (dev : InetDev) (dip : Ip) (dmac : Mac)
    (now : BitVec 32) : statics (freshFirst list dev dip dmac now) = statics list := by
  rw [statics_eq, statics_eq, freshFirst, map_replaceF_of_kept]
  intro a b change
  split at change
  · obtain rfl := Option.some.inj change
    split
    · rfl
    next dynamic => simp_all [ArpEntry.IsStatic, ArpEntry.fresh]
  · simp at change

theorem arpFresh_statics (list : List ArpEntry) (dev : InetDev) (dip : Ip) (dmac : Mac)
    (now : BitVec 32) : statics (arpFresh list dev dip dmac now) = statics list := by
  unfold arpFresh
  split
  · split
    · exact List.countP_cons_of_neg (by simp [ArpEntry.IsStatic, ArpEntry.fresh])
    · rfl
  · exact freshFirst_statics list dev dip dmac now

private theorem statics_replaceF_le (f : ArpEntry → Option ArpEntry) (list : List ArpEntry) :
    statics (list.replaceF f) ≤ statics list + 1 := by
  induction list with
  | nil => simp [statics]
  | cons a rest past =>
      rw [List.replaceF_cons]
      cases f a <;> simp only [statics, List.countP_cons] at past ⊢
      · omega
      · split <;> split <;> omega

private theorem pinFirst_statics {list : List ArpEntry} {ip : Ip} {entry : ArpEntry} (mac : Mac)
    (first : (list.find? fun entry => entry.ip = ip) = some entry) (pinned : entry.IsStatic) :
    statics (pinFirst list ip mac) = statics list := by
  induction list with
  | nil => simp at first
  | cons a rest past =>
      by_cases same : a.ip = ip
      · rw [List.find?_cons_of_pos (by simpa using same)] at first
        obtain rfl := Option.some.inj first
        have pinned : a.status = .arpStatic := pinned
        simp [pinFirst, statics, same, pinned, ArpEntry.IsStatic]
      · rw [List.find?_cons_of_neg (by simpa using same)] at first
        have tail := past first
        simp only [pinFirst, statics, List.replaceF_cons, same, if_false, List.countP_cons] at tail ⊢
        omega

/-- An address that the table knows as dynamic is pinned only while fewer than four
entries are static. -/
def PinWithinLimit (s : ArpState) : ArpEvent → Prop
  | .addStatic _ (some ip) _ _ =>
      statics s.arpList < 4 ∨
        ∀ entry ∈ s.arpList.find? fun entry => entry.ip = ip, entry.IsStatic
  | _ => True

instance (s : ArpState) : (event : ArpEvent) → Decidable (PinWithinLimit s event)
  | .addStatic _ (some _) _ _ => inferInstanceAs (Decidable (_ ∨ _))
  | .addStatic _ none _ _ | .input .. | .timer _ | .wait _ | .delete _ =>
      inferInstanceAs (Decidable True)

theorem netAddStaticArp_statics {s : ArpState} {route : Option InetDev} {ip : Option Ip}
    {mac : Mac} {now : BitVec 32} (limit : statics s.arpList ≤ 4)
    (within : PinWithinLimit s (.addStatic route ip mac now)) :
    statics (netAddStaticArp s.arpList route ip mac now).2 ≤ 4 := by
  unfold netAddStaticArp
  split
  · exact limit
  next ip =>
    split
    · exact limit
    · split
      next known =>
        obtain ⟨known, member, same⟩ := List.any_eq_true.mp known
        cases first : s.arpList.find? fun entry => entry.ip = ip with
        | none => exact absurd same (List.find?_eq_none.mp first known member)
        | some entry =>
            by_cases pinned : entry.IsStatic
            · exact (pinFirst_statics mac first pinned).trans_le limit
            · have room := within.resolve_right fun all => pinned (all entry first)
              have := statics_replaceF_le (fun entry =>
                if entry.ip = ip then some { entry with mac := mac, status := .arpStatic } else none)
                s.arpList
              exact this.trans (by omega)
      next =>
        split
        next room =>
          unfold arpEntryAdd
          split
          · exact limit
          next dev =>
            have fresh := arpFresh_statics s.arpList dev ip mac now
            dsimp only
            split
            · exact fresh.trans_le limit
            · exact (statics_replaceF_le _ _).trans (by omega)
        next => exact limit

/-! ## Runs -/

/-- What holds of the table in a run. -/
structure ArpKept (s : ArpState) : Prop where
  apart : (s.arpList.map ArpEntry.key).Nodup
  limit : statics s.arpList ≤ 4

private theorem arpInput_kept {s : ArpState} (kept : ArpKept s) (dev : InetDev) (addr : Ip)
    (packet : ArpPacket) (now : BitVec 32) : ArpKept (arpInput s dev addr packet now) := by
  unfold arpInput
  split
  · exact kept
  split
  · split
    · exact kept
    split
    · exact ⟨arpFresh_keys _ _ _ _ kept.apart, (arpFresh_statics ..).trans_le kept.limit⟩
    · exact ⟨by rw [arpFreshNocreate, freshFirst_keys]; exact kept.apart,
        (freshFirst_statics ..).trans_le kept.limit⟩
  · exact kept

private theorem arpStep_kept (s : ArpState) (event : ArpEvent) (kept : ArpKept s)
    (within : PinWithinLimit s event) : ArpKept (arpStep s event) := by
  cases event with
  | input dev addr packet now => exact arpInput_kept kept dev addr packet now
  | timer now =>
      refine ⟨kept.apart.sublist (map_filterMap_sublist (fun _ _ tick => arpTick_key tick) _), ?_⟩
      refine le_trans ?_ kept.limit
      rw [statics_eq, statics_eq]
      exact (map_filterMap_sublist (fun _ _ tick => arpTick_isStatic tick) _).countP_le
  | addStatic route ip mac now =>
      exact ⟨netAddStaticArp_keys route ip mac now kept.apart,
        netAddStaticArp_statics kept.limit within⟩
  | wait nexthop => exact ⟨kept.apart, kept.limit⟩
  | delete dev =>
      exact ⟨kept.apart.sublist (List.filter_sublist.map _),
        (List.filter_sublist.countP_le).trans kept.limit⟩

/-- A received packet or a tick of the timer. -/
def ArpEvent.Passive : ArpEvent → Prop
  | .input .. | .timer _ => True
  | _ => False

private theorem mem_freshFirst {list : List ArpEntry} {entry : ArpEntry} (dev : InetDev) (dip : Ip)
    (dmac : Mac) (now : BitVec 32) (member : entry ∈ list) (pinned : entry.IsStatic) :
    entry ∈ freshFirst list dev dip dmac now := by
  induction list with
  | nil => simp at member
  | cons a rest past =>
      unfold freshFirst at past ⊢
      rw [List.replaceF_cons]
      rcases List.mem_cons.mp member with rfl | later
      · by_cases same : entry.dev = dev ∧ entry.ip = dip <;> simp [same, pinned]
      · by_cases same : a.dev = dev ∧ a.ip = dip
        · simp [same, later]
        · simp [same, past later]

/-- **A packet or a tick leaves every static entry as it is.** -/
theorem isStatic_kept {s : ArpState} {entry : ArpEntry} {event : ArpEvent}
    (passive : event.Passive) (member : entry ∈ s.arpList) (pinned : entry.IsStatic) :
    entry ∈ (arpStep s event).arpList := by
  cases event with
  | input dev addr packet now =>
      simp only [arpStep, arpInput]
      split
      · exact member
      split
      · split
        · exact member
        split
        · simp only [arpFresh]
          split
          · split
            · exact List.mem_cons_of_mem _ member
            · exact member
          · exact mem_freshFirst _ _ _ _ member pinned
        · exact mem_freshFirst _ _ _ _ member pinned
      · exact member
  | timer now =>
      refine List.mem_filterMap.mpr ⟨entry, member, ?_⟩
      unfold arpTick
      rw [show entry.status = .arpStatic from pinned]
  | addStatic => exact passive.elim
  | wait => exact passive.elim
  | delete => exact passive.elim

/-- **The table in runs that pin within the limit.** One entry for each device and
address, at most four static entries, and static entries that no packet and no tick of
the timer touches. -/
theorem arp_integrity {events : List ArpEvent}
    (within : Meets arpStep PinWithinLimit arpInit events) :
    ((runEvents arpStep arpInit events).arpList.map ArpEntry.key).Nodup ∧
      statics (runEvents arpStep arpInit events).arpList ≤ 4 ∧
      ∀ event, event.Passive → ∀ entry ∈ (runEvents arpStep arpInit events).arpList,
        entry.IsStatic → entry ∈ (arpStep (runEvents arpStep arpInit events) event).arpList := by
  have kept : ArpKept (runEvents arpStep arpInit events) :=
    runEvents_keeps arpStep_kept ⟨by simp [arpInit], by simp [arpInit, statics]⟩ within
  exact ⟨kept.apart, kept.limit, fun event passive entry member pinned =>
    isStatic_kept passive member pinned⟩

/-- Four pinned addresses. -/
def fourPinned : List ArpEvent :=
  [.addStatic (some 0) (some 1) 11 0, .addStatic (some 0) (some 2) 12 0,
    .addStatic (some 0) (some 3) 13 0, .addStatic (some 0) (some 4) 14 0]

/-- A fifth address, heard of after a packet waited for it. -/
def fifthHeard : List ArpEvent :=
  fourPinned ++ [.wait 5, .input 0 100 ⟨true, ARPOP_REPLY, 15, 5, 100⟩ 0]

/-- The run that pins four addresses and hears of a fifth one is within the limit. -/
theorem arp_integrity_fifthHeard :
    ((runEvents arpStep arpInit fifthHeard).arpList.map ArpEntry.key).Nodup ∧
      statics (runEvents arpStep arpInit fifthHeard).arpList ≤ 4 ∧
      ∀ event, event.Passive → ∀ entry ∈ (runEvents arpStep arpInit fifthHeard).arpList,
        entry.IsStatic → entry ∈ (arpStep (runEvents arpStep arpInit fifthHeard) event).arpList :=
  arp_integrity (by decide)

/-- **A fifth static entry.** Pinning the fifth address, which the table has learned in
the meantime, does not count the pinned ones. -/
theorem static_limit_broken :
    ¬ ∀ events : List ArpEvent, statics (runEvents arpStep arpInit events).arpList ≤ 4 := by
  intro limit
  exact absurd (limit (fifthHeard ++ [.addStatic (some 0) (some 5) 15 0])) (by decide)

end PosFirmware.IpStack
