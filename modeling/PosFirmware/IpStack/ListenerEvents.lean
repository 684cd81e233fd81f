import PosFirmware.IpStack.ListenerInvariant

/-! # The sockets under TCP

The input path and the timers of TCP keep the invariant of the sockets. The expected ACK of a
half-open connection does where the slot that it takes is not the one that `NetSocket` has
(`SockState.Inv.tcpProcessAck`).
-/

namespace PosFirmware.IpStack

namespace SockState

variable {s s' : SockState}

/-! ## What TCP does -/

theorem Inv.event (inv : Inv s) (i : SockIndex) (event : BitVec 32) :
    Inv (s.setSock i { s.sockArr i with event := event }) := by
  have socks : ∀ j, SameSock (s.sockArr j)
      ((s.setSock i { s.sockArr i with event := event }).sockArr j) ∧
      ((s.setSock i { s.sockArr i with event := event }).sockArr j).childNum =
        (s.sockArr j).childNum ∧
      ((s.setSock i { s.sockArr i with event := event }).sockArr j).backlog =
        (s.sockArr j).backlog := by
    intro j
    by_cases mine : j = i
    · subst mine
      rw [setSock_sockArr, Function.update_self]
      exact ⟨⟨rfl, rfl, rfl, rfl, rfl⟩, rfl, rfl⟩
    · rw [setSock_sockArr, Function.update_of_ne mine]
      exact ⟨.refl _, rfl, rfl⟩
  refine inv.of_same (fun j => (socks j).1) (fun j => (socks j).2.1) (fun l is => ?_) rfl rfl
  rw [(socks l).2.2]
  exact inv.bound l is

theorem Inv.tcpEventErr (inv : Inv s) (pcb : SockPcb) {err : Int} (noReset : err ≠ NET_ERR_RST) :
    Inv (s.tcpEventErr pcb err) ∧ (s.tcpEventErr pcb err).pcbs = s.pcbs := by
  unfold SockState.tcpEventErr
  split
  next i _ _ =>
    unfold SockState.inetTcpErrCb
    dsimp only
    rw [if_pos noReset]
    exact ⟨inv.event i _, rfl⟩
  next => exact ⟨inv, rfl⟩

theorem Inv.free (inv : Inv s) {p : PcbIndex} (unknown : known (s.pcbs p) = none) :
    Inv (s.setPcb p none) :=
  inv.setPcb unknown.symm fun _ is => by cases is

/-- A connection moves on, from one state that the application has not closed to another or
between states that the sockets do not see. -/
theorem Inv.move (inv : Inv s) {p : PcbIndex} {pcb new : SockPcb} (there : s.pcbs p = some pcb)
    (arg : new.callbackArg = pcb.callbackArg) (errf : new.errf = pcb.errf)
    (was : pcb.state ≠ .listen) (notListen : new.state ≠ .listen)
    (notHalf : new.state ≠ .synRcvd) (stays : pcb.errf = true → isOpen new.state) :
    Inv (s.setPcb p (some new)) := by
  refine inv.setPcb ?_ fun pcb' is => ?_
  · rw [there]
    simp [known, arg, errf, was, notListen]
  · obtain rfl := Option.some.inj is
    exact ⟨fun is => stays (errf ▸ is),
      fun state => state.elim (absurd · notListen) (absurd · notHalf),
      fun half => absurd half notHalf⟩

theorem Inv.unknown (inv : Inv s) {p : PcbIndex} {pcb : SockPcb} (there : s.pcbs p = some pcb)
    (closed : isOpen pcb.state = false) (notListen : pcb.state ≠ .listen) :
    known (s.pcbs p) = none := by
  rw [there]
  have noErrf : pcb.errf ≠ true := fun errf => by
    rw [(inv.good p pcb there).errf errf] at closed
    cases closed
  simp [known, noErrf, notListen]

theorem Inv.tcpListenInput (inv : Inv s) (p npcb : PcbIndex) : Inv (s.tcpListenInput p npcb) := by
  unfold SockState.tcpListenInput
  split
  next pcb there free =>
    split
    next state =>
      obtain ⟨l, arg, -, listens⟩ := inv.listener there state
      refine inv.setPcb ?_ fun pcb' is => ?_
      · rw [free]
        rfl
      · obtain rfl := Option.some.inj is
        exact ⟨fun errf => absurd errf Bool.false_ne_true,
          fun _ => (inv.good p pcb there).accept (.inl state), fun _ => ⟨l, arg, listens⟩⟩
    next => exact inv
  next => exact inv

theorem Inv.tcpProcess (inv : Inv s) (p : PcbIndex) (next : TcpState) :
    Inv (s.tcpProcess p next) := by
  unfold SockState.tcpProcess
  split
  next => exact inv
  next pcb there =>
    split
    next moves =>
      have was : pcb.state ≠ .listen := fun state => by
        rw [state] at moves
        cases moves
      have stays : pcb.errf = true → isOpen next ∧ next ≠ .closed := fun errf => by
        have isOpen := (inv.good p pcb there).errf errf
        revert moves isOpen
        cases pcb.state <;> cases next <;> decide
      have moved : ∀ new : SockPcb, new.callbackArg = pcb.callbackArg → new.errf = pcb.errf →
          new.state = next → next ≠ .closed → Inv (s.setPcb p (some new)) := by
        intro new arg errf state notClosed
        have not : next ≠ .listen ∧ next ≠ .synRcvd := by
          revert moves
          cases pcb.state <;> cases next <;> decide
        exact inv.move there arg errf was (state ▸ not.1) (state ▸ not.2)
          fun errf => state ▸ (stays errf).1
      split
      · refine inv.free ?_
        have noErrf : pcb.errf ≠ true := fun errf => (stays errf).2 rfl
        rw [there]
        simp [known, noErrf, was]
      · exact moved _ rfl rfl rfl (by decide)
      · exact (moved { pcb with state := .established } rfl rfl rfl (by decide)).event _ _
      · rename_i notClosed _ _
        exact moved _ rfl rfl rfl notClosed
    next => exact inv

theorem Inv.tcpExpire (inv : Inv s) (p : PcbIndex) (expiry : TcpExpiry) :
    Inv (s.tcpExpire p expiry) := by
  unfold SockState.tcpExpire
  split
  next => exact inv
  next pcb there =>
    split
    next allowed =>
      have was : pcb.state ≠ .listen := fun state => by
        rw [state] at allowed
        revert allowed
        cases expiry <;> simp [TcpExpiry.allows]
      have closed : ∀ err, Inv (s.setPcb p (some { pcb with state := .closed, err := err })) :=
        fun err => inv.move there rfl rfl was (fun is => by cases is) (fun is => by cases is)
          fun _ => rfl
      have noReset : expiry.err ≠ NET_ERR_RST := by
        cases expiry with
        | syn | keepalive | stuck => decide
        | data tooLong => exact (by decide : NET_ERR_ABRT ≠ NET_ERR_RST)
      dsimp only
      have told : ∀ t : SockState, Inv t →
          Inv (if expiry.err = NET_OK then t else t.tcpEventErr pcb expiry.err) ∧
            (if expiry.err = NET_OK then t else t.tcpEventErr pcb expiry.err).pcbs = t.pcbs := by
        intro t inv
        split
        · exact ⟨inv, rfl⟩
        · exact inv.tcpEventErr pcb noReset
      obtain ⟨after, pcbs⟩ := told _ (closed (if expiry.err = NET_OK then pcb.err else expiry.err))
      split
      next frees =>
        refine after.free ?_
        have noErrf : pcb.errf ≠ true := fun errf => by
          have open' := (inv.good p pcb there).errf errf
          revert frees allowed open'
          cases expiry <;> cases pcb.state <;> simp [TcpExpiry.frees, TcpExpiry.allows, isOpen]
        rw [pcbs]
        simp [known, noErrf]
      next => exact after
    next => exact inv

theorem Inv.tcpTimeWaitOver (inv : Inv s) (p : PcbIndex) : Inv (s.tcpTimeWaitOver p) := by
  unfold SockState.tcpTimeWaitOver
  split
  next pcb there =>
    split
    next state =>
      exact inv.free (inv.unknown there (by rw [state]; rfl) (by rw [state]; decide))
    next => exact inv
  next => exact inv

theorem Inv.tcpAbort (inv : Inv s) {p : PcbIndex} (unknown : known (s.pcbs p) = none) :
    Inv (s.tcpAbort p) := by
  unfold SockState.tcpAbort
  split
  next => exact inv
  next pcb _ =>
    split
    · exact inv.free unknown
    · exact ((inv.free unknown).tcpEventErr pcb (by decide)).1

theorem Inv.tcpKillTimewait (inv : Inv s) (p : PcbIndex) : Inv (s.tcpKillTimewait p) := by
  unfold SockState.tcpKillTimewait
  split
  next pcb there =>
    split
    next state =>
      refine inv.tcpAbort (inv.unknown there ?_ ?_)
      · rcases state with state | state | state | state | state <;> rw [state] <;> rfl
      · rcases state with state | state | state | state | state <;> rw [state] <;> decide
    next => exact inv
  next => exact inv

theorem Inv.tcpLinkChange (inv : Inv s) (p : PcbIndex) (errCode : Int) :
    Inv (s.tcpLinkChange p errCode) := by
  unfold SockState.tcpLinkChange
  split
  next pcb there =>
    split
    next state =>
      refine inv.move there rfl rfl ?_ (fun is => by cases is) (fun is => by cases is)
        fun _ => rfl
      rcases state with state | state <;> rw [state] <;> decide
    next => exact inv
  next => exact inv

/-- A reset of a connection that waits for `NetAccept`. -/
private theorem Inv.resetChild (inv : Inv s) {j : SockIndex} {p : PcbIndex} {pcb : SockPcb}
    (holds : s.Holds j p pcb) (used : s.InUse j)
    (flag : (s.sockArr j).flag &&& SOCK_ACCEPT ≠ 0) :
    Inv ((s.inetTcpErrCb j NET_ERR_RST).setPcb p none) ∧
      (s.inetTcpErrCb j NET_ERR_RST).pcbs p = some { pcb with state := .closed } := by
  have waiting : (s.sockArr j).waitAccept = true := by
    by_contra plain
    rw [Bool.not_eq_true] at plain
    exact flag (inv.flag j used plain)
  have id : (s.sockArr j).id ≠ 0 := by
    rcases used with id | call
    · exact id
    · rw [(inv.created j call).2.1] at waiting
      cases waiting
  obtain ⟨l, listens, owner⟩ := (inv.waits j id waiting).owned
  have other : j ≠ l := by
    rintro rfl
    rw [listens.1] at waiting
    cases waiting
  -- the search finds the listener: no other socket with its id counts children
  have after := inv.event j ((s.sockArr j).event ||| SOCK_EVENT_ERROR)
  generalize same : s.setSock j { s.sockArr j with
    event := (s.sockArr j).event ||| SOCK_EVENT_ERROR } = t at after
  have sock : ∀ k, SameSock (s.sockArr k) (t.sockArr k) ∧
      (t.sockArr k).childNum = (s.sockArr k).childNum := by
    intro k
    rw [← same]
    by_cases mine : k = j
    · subst mine
      rw [setSock_sockArr, Function.update_self]
      exact ⟨⟨rfl, rfl, rfl, rfl, rfl⟩, rfl⟩
    · rw [setSock_sockArr, Function.update_of_ne mine]
      exact ⟨.refl _, rfl⟩
  have pcbs : t.pcbs = s.pcbs := by rw [← same]; rfl
  have count : 0 < (s.sockArr l).childNum := by
    rw [inv.count l listens.id listens.1]
    have member : j ∈ s.pending l :=
      Finset.mem_filter.mpr ⟨Finset.mem_univ _, owner.symm, waiting⟩
    exact_mod_cast Finset.card_pos.mpr ⟨j, member⟩
  have found : t.errListener j = some l := by
    unfold errListener
    have some' : ((List.finRange MAX_SOCK_COUNT).find? fun k => decide (j ≠ k ∧
        (t.sockArr j).id = (t.sockArr k).id ∧ (t.sockArr k).childNum > 0)).isSome := by
      rw [List.find?_isSome]
      refine ⟨l, List.mem_finRange l, ?_⟩
      rw [(sock j).1.id, (sock l).1.id, (sock l).2, decide_eq_true_iff]
      exact ⟨other, owner.symm, count⟩
    obtain ⟨k, is⟩ := Option.isSome_iff_exists.mp some'
    rw [is]
    have found := List.find?_some is
    rw [(sock j).1.id, (sock k).1.id, (sock k).2, decide_eq_true_iff] at found
    obtain ⟨-, sameId, counts⟩ := found
    have plain : (s.sockArr k).waitAccept = false := by
      by_contra waits
      rw [Bool.not_eq_false] at waits
      have none := (inv.waits k (sameId ▸ id) waits).childNum
      omega
    exact congrArg some (inv.unique k l (sameId ▸ id) (sameId.symm.trans owner.symm) plain
      listens.1)
  have listens' : t.Listens l :=
    (listens_of_same (sock l).1 fun q _ => by rw [pcbs]).mpr listens
  have holds' : t.Holds j p pcb := holds.of_same (sock j).1 (by rw [pcbs])
  have flag' : ¬ (t.sockArr j).flag &&& SOCK_ACCEPT = 0 := by
    rw [(sock j).1.flag]
    exact flag
  have closed : s.inetTcpErrCb j NET_ERR_RST =
      ((t.setPcb p (some { pcb with state := .closed })).setSock l
        { t.sockArr l with childNum := (t.sockArr l).childNum - 1 }).setSock j
          { t.sockArr j with id := 0 } := by
    unfold SockState.inetTcpErrCb
    dsimp only
    rw [same, if_neg (not_not.mpr rfl), if_neg flag', found, holds'.data]
    simp only [holds'.there, Option.map_some, setSock_sockArr, setPcb_sockArr,
      Function.update_of_ne other]
    rw [holds'.data]
  have waiting' : (t.sockArr j).waitAccept = true := (sock j).1.waitAccept.trans waiting
  have released : Inv (t.withoutChild l j p none true) :=
    (after.withoutChild listens' (by rw [(sock l).1.id, (sock j).1.id, owner]) waiting' holds' rfl
      (fun _ is => by cases is) true).1
  rw [closed]
  refine ⟨?_, by simp⟩
  convert released using 1
  unfold SockState.withoutChild SockState.setSock SockState.setPcb
  simp only [Function.update_idem, SockState.mk.injEq, and_true]
  rw [Function.update_comm other, waiting']

/-- An acceptable RST. -/
theorem Inv.tcpInputReset (inv : Inv s) (p : PcbIndex) : Inv (s.tcpInputReset p) := by
  unfold SockState.tcpInputReset
  split
  next => exact inv
  next pcb there =>
    split
    next => exact inv
    next active =>
      simp only [not_or] at active
      have closed : ∀ t : SockState, Inv t → t.pcbs p = some pcb →
          (pcb.errf = true → pcb.state = .established ∨ pcb.state = .synSent ∨
            pcb.state = .closeWait) →
          Inv (if pcb.state = .established ∨ pcb.state = .synSent ∨ pcb.state = .closeWait then
              t.setPcb p (some { pcb with err := NET_ERR_RST, state := .closed })
            else t.setPcb p none) := by
        intro t inv there owned
        split
        next =>
          exact inv.move there rfl rfl active.2.1 (fun is => by cases is) (fun is => by cases is)
            fun _ => rfl
        next notOwned =>
          refine inv.free ?_
          have noErrf : pcb.errf ≠ true := fun errf => notOwned (owned errf)
          rw [there]
          simp [known, noErrf, active.2.1]
      have owned : pcb.errf = true → pcb.state = .established ∨ pcb.state = .synSent ∨
          pcb.state = .closeWait := fun errf => by
        have isOpen := (inv.good p pcb there).errf errf
        revert active isOpen
        cases pcb.state <;> simp [SockState.isOpen]
      by_cases errf : pcb.errf = true
      · obtain ⟨j, used, -, holds⟩ := inv.held p pcb there (.inl errf)
        have told : s.tcpEventErr pcb NET_ERR_RST = s.inetTcpErrCb j NET_ERR_RST := by
          unfold SockState.tcpEventErr
          rw [errf, holds.arg]
        rw [told]
        by_cases flag : (s.sockArr j).flag &&& SOCK_ACCEPT = 0
        · have event : s.inetTcpErrCb j NET_ERR_RST = s.setSock j { s.sockArr j with
              event := (s.sockArr j).event ||| SOCK_EVENT_ERROR } := by
            unfold SockState.inetTcpErrCb
            dsimp only
            rw [if_neg (not_not.mpr rfl), if_pos (by simpa using flag)]
          have same : (s.setSock j { s.sockArr j with
              event := (s.sockArr j).event ||| SOCK_EVENT_ERROR }).pcbs p = some pcb := there
          rw [event]
          dsimp only
          rw [same]
          exact closed _ (inv.event j _) there owned
        · obtain ⟨after, there'⟩ := inv.resetChild holds used flag
          dsimp only
          rw [there']
          exact after
      · have told : s.tcpEventErr pcb NET_ERR_RST = s := by
          unfold SockState.tcpEventErr
          split
          next is _ => exact absurd is errf
          next => rfl
        rw [told]
        dsimp only
        rw [there]
        exact closed s inv there owned

/-! ## A new child -/

theorem sockGet_eq_some {id : BitVec 32} {i : SockIndex} (found : s.sockGet id = some i) :
    (s.sockArr i).id = id := by
  simpa using List.find?_some found

/-- The state after the callback has put a connection into a free slot. -/
def withChild (s : SockState) (l c : SockIndex) (p : PcbIndex) (pcb : SockPcb) : SockState :=
  { s with
    sockArr := Function.update
      (Function.update s.sockArr c ⟨(s.sockArr l).id, true, 0, 0, 0,
        (s.sockArr l).flag ||| SOCK_ACCEPT, (s.sockArr l).ops, some p⟩)
      l { s.sockArr l with
        childNum := (s.sockArr l).childNum + 1,
        event := (s.sockArr l).event ||| SOCK_EVENT_ACCEPT }
    pcbs := Function.update s.pcbs p (some { pcb with callbackArg := some c, errf := true }) }

theorem inetTcpAcceptCb_eq {l c : SockIndex} {p : PcbIndex} {pcb : SockPcb}
    (slot : s.acceptSlot l = some c) (other : c ≠ l) (there : s.pcbs p = some pcb) :
    s.inetTcpAcceptCb l p = (NET_OK, s.withChild l c p pcb) := by
  unfold SockState.inetTcpAcceptCb SockState.withChild
  rw [slot]
  simp only [setSock_sockArr, setSock_pcbs, setPcb_sockArr, Function.update_self,
    Function.update_of_ne other, Function.update_of_ne other.symm, Function.update_idem]
  refine congrArg (Prod.mk NET_OK) ?_
  unfold SockState.setSock SockState.setPcb
  simp only [there, Option.map_some, Sock.zero, SockState.mk.injEq, and_true]
  rw [Function.update_comm other, Function.update_idem, Function.update_comm other.symm,
    Function.update_idem]

/-- A connection that becomes a child. -/
theorem Inv.withChild (inv : Inv s) {l c : SockIndex} {p : PcbIndex} {pcb : SockPcb}
    (listens : s.Listens l) (free : (s.sockArr c).id = 0) (notCreated : s.call ≠ .created c)
    (notFound : ∀ ops, s.call ≠ .found c ops) (there : s.pcbs p = some pcb)
    (errf : pcb.errf ≠ true) (state : pcb.state = .established)
    (room : (s.sockArr l).childNum < (s.sockArr l).backlog) : Inv (s.withChild l c p pcb) := by
  have other : c ≠ l := by
    rintro rfl
    exact listens.id free
  have notKnown : ¬ (pcb.errf = true ∨ pcb.state = .listen) := by simp [errf, state]
  have newSock : (s.withChild l c p pcb).sockArr c = ⟨(s.sockArr l).id, true, 0, 0, 0,
      (s.sockArr l).flag ||| SOCK_ACCEPT, (s.sockArr l).ops, some p⟩ := by
    simp [SockState.withChild, other]
  have socks : ∀ j, j ≠ c → SameSock (s.sockArr j) ((s.withChild l c p pcb).sockArr j) ∧
      ((s.withChild l c p pcb).sockArr j).backlog = (s.sockArr j).backlog := by
    intro j notChild
    by_cases mine : j = l
    · subst mine
      have sock : (s.withChild j c p pcb).sockArr j = { s.sockArr j with
          childNum := (s.sockArr j).childNum + 1,
          event := (s.sockArr j).event ||| SOCK_EVENT_ACCEPT } := Function.update_self ..
      rw [sock]
      exact ⟨⟨rfl, rfl, rfl, rfl, rfl⟩, rfl⟩
    · have sock : (s.withChild l c p pcb).sockArr j = s.sockArr j :=
        (Function.update_of_ne mine ..).trans (Function.update_of_ne notChild ..)
      rw [sock]
      exact ⟨.refl _, rfl⟩
  have listener : ((s.withChild l c p pcb).sockArr l).childNum = (s.sockArr l).childNum + 1 := by
    simp [SockState.withChild]
  have childNum : ∀ j, j ≠ c → j ≠ l →
      ((s.withChild l c p pcb).sockArr j).childNum = (s.sockArr j).childNum := by
    intro j notChild notOwner
    simp [SockState.withChild, notChild, notOwner]
  have pcbs : ∀ q, q ≠ p → (s.withChild l c p pcb).pcbs q = s.pcbs q := fun q away =>
    Function.update_of_ne away ..
  have newPcb : (s.withChild l c p pcb).pcbs p =
      some { pcb with callbackArg := some c, errf := true } := Function.update_self ..
  have newHolds : (s.withChild l c p pcb).Holds c p
      { pcb with callbackArg := some c, errf := true } :=
    ⟨by rw [newSock], newPcb, rfl, .inl rfl⟩
  have away : ∀ {j q held}, s.Holds j q held → q ≠ p := by
    rintro j q held holds rfl
    have is := holds.known
    rw [← Option.some.inj (there.symm.trans holds.there)] at is
    exact notKnown is
  have back : ∀ j, j ≠ c → ∀ q held, (s.withChild l c p pcb).Holds j q held →
      s.Holds j q held := by
    intro j notChild q held holds
    have away : q ≠ p := by
      rintro rfl
      exact notChild (holds.unique newHolds)
    exact holds.of_same (socks j notChild).1.symm (pcbs q away).symm
  have inUse : ∀ j, j ≠ c → ((s.withChild l c p pcb).InUse j ↔ s.InUse j) := fun j notChild => by
    unfold InUse
    rw [(socks j notChild).1.id]
    rfl
  have listens' : ∀ j, j ≠ c → ((s.withChild l c p pcb).Listens j ↔ s.Listens j) := by
    intro j notChild
    constructor
    · rintro ⟨plain, q, held, data, is⟩
      have same := (socks j notChild).1
      obtain ⟨used, tcp, data, there'⟩ := tcpData_eq_some.mp data
      have away : q ≠ p := by
        rintro rfl
        rw [newPcb] at there'
        rw [← Option.some.inj there', state] at is
        cases is
      exact ⟨same.waitAccept.symm.trans plain, q, held, tcpData_eq_some.mpr ⟨same.id ▸ used,
        same.ops.symm.trans tcp, same.data.symm.trans data, (pcbs q away).symm.trans there'⟩, is⟩
    · intro is
      refine (listens_of_same (socks j notChild).1 fun q data => ?_).mpr is
      obtain ⟨-, q', held, found, -⟩ := is
      obtain ⟨used, tcp, -, -⟩ := tcpData_eq_some.mp found
      obtain ⟨held', holds⟩ := inv.holds_data (.inl used) tcp data
      exact pcbs q (away holds)
  have plainOther : ∀ {j}, ((s.withChild l c p pcb).sockArr j).waitAccept = false → j ≠ c := by
    rintro j plain rfl
    rw [newSock] at plain
    cases plain
  have listens'' : (s.withChild l c p pcb).Listens l := (listens' l other.symm).mpr listens
  have tcpListener : (s.sockArr l).ops = .tcp := by
    obtain ⟨-, q, held, found, -⟩ := listens
    exact (tcpData_eq_some.mp found).2.1
  refine ⟨fun i j used same plain plain' => ?_, fun j used tcp => ?_, fun q held there' is => ?_,
    fun q held there' => ?_, fun j used waiting => ?_, fun j used plain => ?_, fun j is => ?_,
    fun j used plain => ?_, fun k ops is => ?_, fun k is => ?_⟩
  · have notChild := plainOther plain
    have notChild' := plainOther plain'
    rw [(socks i notChild).1.id] at used same
    rw [(socks j notChild').1.id] at same
    rw [(socks i notChild).1.waitAccept] at plain
    rw [(socks j notChild').1.waitAccept] at plain'
    exact inv.unique i j used same plain plain'
  · by_cases child : j = c
    · subst child
      exact ⟨p, _, newHolds⟩
    · rw [(socks j child).1.ops] at tcp
      obtain ⟨q, held, holds⟩ := inv.holds j ((inUse j child).mp used) tcp
      exact ⟨q, held, holds.of_same (socks j child).1 (pcbs q (away holds))⟩
  · by_cases mine : q = p
    · subst mine
      rw [newPcb] at there'
      obtain rfl := Option.some.inj there'
      refine ⟨c, .inl ?_, ?_, newHolds⟩
      · rw [newSock]
        exact listens.id
      · rw [newSock]
        exact tcpListener
    · obtain ⟨j, used, tcp, holds⟩ := inv.held q held ((pcbs q mine).symm.trans there') is
      have notChild : j ≠ c := by
        rintro rfl
        exact used.elim (absurd free) (absurd · notCreated)
      exact ⟨j, (inUse j notChild).mpr used, (socks j notChild).1.ops.trans tcp,
        holds.of_same (socks j notChild).1 (pcbs q mine)⟩
  · by_cases mine : q = p
    · subst mine
      rw [newPcb] at there'
      obtain rfl := Option.some.inj there'
      refine ⟨fun _ => ?_, fun is => ?_, fun half => ?_⟩
      · change isOpen pcb.state = true
        rw [state]
        rfl
      · rcases is with is | is <;> exact absurd (state.symm.trans is) (by decide)
      · exact absurd (state.symm.trans half) (by decide)
    · have good := inv.good q held ((pcbs q mine).symm.trans there')
      refine ⟨good.errf, good.accept, fun half => ?_⟩
      obtain ⟨l', arg, is⟩ := good.halfOpen half
      have notChild : l' ≠ c := by
        rintro rfl
        exact is.id free
      exact ⟨l', arg, (listens' l' notChild).mpr is⟩
  · by_cases child : j = c
    · subst child
      refine ⟨by rw [newSock, tcpListener], ?_, by rw [newSock], fun q held holds => ?_,
        l, listens'', ?_⟩
      · rw [newSock]
        intro none
        have bits : ∀ flag : BitVec 32, (flag ||| SOCK_ACCEPT) &&& SOCK_ACCEPT = SOCK_ACCEPT :=
          fun flag => by
            ext i
            simp only [BitVec.getElem_and, BitVec.getElem_or]
            cases flag[i] <;> simp
        rw [bits] at none
        exact absurd none (by decide)
      · have data := holds.data
        rw [newSock] at data
        obtain rfl := Option.some.inj data
        rw [← Option.some.inj (newPcb.symm.trans holds.there)]
      · rw [newSock, (socks l other.symm).1.id]
    · rw [(socks j child).1.id] at used
      rw [(socks j child).1.waitAccept] at waiting
      have waits := inv.waits j used waiting
      obtain ⟨l', is, id⟩ := waits.owned
      have notChild : l' ≠ c := by
        rintro rfl
        exact is.id free
      have notOwner : j ≠ l := by
        rintro rfl
        rw [listens.1] at waiting
        cases waiting
      exact ⟨(socks j child).1.ops.trans waits.ops,
        by rw [(socks j child).1.flag]; exact waits.flag,
        (childNum j child notOwner).trans waits.childNum,
        fun q held holds => waits.errf q held (back j child q held holds),
        l', (listens' l' notChild).mpr is,
        by rw [(socks l' notChild).1.id, (socks j child).1.id, id]⟩
  · have child := plainOther plain
    rw [(socks j child).1.id] at used
    rw [(socks j child).1.waitAccept] at plain
    have count := inv.count j used plain
    have member : ∀ i, i ≠ c → (i ∈ (s.withChild l c p pcb).pending j ↔ i ∈ s.pending j) := by
      intro i notChild
      simp only [pending, Finset.mem_filter, Finset.mem_univ, true_and,
        (socks i notChild).1.id, (socks i notChild).1.waitAccept, (socks j child).1.id]
    have notIn : c ∉ s.pending j := fun waits => by
      have id := (Finset.mem_filter.mp waits).2.1
      rw [free] at id
      exact used id.symm
    by_cases owner : j = l
    · subst owner
      have more : (s.withChild j c p pcb).pending j = insert c (s.pending j) := by
        ext i
        rw [Finset.mem_insert]
        by_cases mine : i = c
        · subst mine
          simp only [pending, Finset.mem_filter, Finset.mem_univ, true_and, newSock, true_or,
            (socks j child).1.id]
        · simp only [mine, false_or, member i mine]
      rw [listener, more, Finset.card_insert_of_notMem notIn, count]
      push_cast
      rfl
    · have same : (s.withChild l c p pcb).pending j = s.pending j := by
        ext i
        by_cases mine : i = c
        · subst mine
          refine iff_of_false (fun waits => ?_) notIn
          have id := (Finset.mem_filter.mp waits).2.1
          rw [newSock, (socks j child).1.id] at id
          exact owner (inv.unique j l used id.symm plain listens.1)
        · exact member i mine
      rw [childNum j child owner, same, count]
  · have child := plainOther is.1
    have was := (listens' j child).mp is
    rw [(socks j child).2]
    by_cases owner : j = l
    · subst owner
      rw [listener]
      omega
    · rw [childNum j child owner]
      exact inv.bound j was
  · have child := plainOther plain
    rw [(socks j child).1.waitAccept] at plain
    rw [(socks j child).1.flag]
    exact inv.flag j ((inUse j child).mp used) plain
  · have child : k ≠ c := by
      rintro rfl
      exact notFound ops is
    rw [(socks k child).1.id]
    exact inv.found k ops is
  · have child : k ≠ c := by
      rintro rfl
      exact notCreated is
    obtain ⟨free', plain, none, errf'⟩ := inv.created k is
    have notOwner : k ≠ l := by
      rintro rfl
      exact listens.id free'
    exact ⟨(socks k child).1.id.trans free', (socks k child).1.waitAccept.trans plain,
      (childNum k child notOwner).trans none,
      fun q held holds => errf' q held (back k child q held holds)⟩

theorem Inv.tcpProcessAck (inv : Inv s) (p : PcbIndex)
    (slot : ∀ pcb ∈ s.pcbs p, pcb.state = .synRcvd → ∀ l ∈ pcb.callbackArg,
      ∀ c ∈ s.acceptSlot l, s.call.slot ≠ some c) : Inv (s.tcpProcessAck p) := by
  unfold SockState.tcpProcessAck
  split
  next => exact inv
  next pcb there =>
    split
    next state =>
      have good := inv.good p pcb there
      obtain ⟨l, arg, listens⟩ := good.halfOpen state
      have errf : pcb.errf ≠ true := fun errf => by
        have := good.errf errf
        rw [state] at this
        cases this
      have moved : Inv (s.setPcb p (some { pcb with state := .established })) :=
        inv.move there rfl rfl (by rw [state]; decide) (fun is => by cases is)
          (fun is => by cases is) fun is => absurd is errf
      have there' : (s.setPcb p (some { pcb with state := .established })).pcbs p =
          some { pcb with state := .established } := Function.update_self ..
      have same : known (some { pcb with state := .established }) = known (s.pcbs p) := by
        rw [there]
        simp [known, errf, state]
      have slot' : (s.setPcb p (some { pcb with state := .established })).acceptSlot l =
          s.acceptSlot l := rfl
      have call : (s.setPcb p (some { pcb with state := .established })).call = s.call := rfl
      have listens' := (listens_setPcb same l).mpr listens
      have aborts : ∀ t : SockState, Inv t → known (t.pcbs p) = none → Inv (t.tcpAbort p) :=
        fun t inv unknown => inv.tcpAbort unknown
      have unknown : known (some { pcb with state := .established }) = none := by
        simp [known, errf]
      generalize s.setPcb p (some { pcb with state := .established }) = t at *
      dsimp only
      rw [good.accept (.inr state), arg]
      dsimp only
      cases place : s.acceptSlot l with
      | none =>
          have answer : t.inetTcpAcceptCb l p = (NET_ERR_MEM, t) := by
            unfold SockState.inetTcpAcceptCb
            rw [slot', place]
          rw [answer, if_pos (show NET_ERR_MEM ≠ NET_OK by decide)]
          exact aborts t moved (by rw [there', unknown])
      | some c =>
          have room : ¬ (t.sockArr l).childNum ≥ (t.sockArr l).backlog := fun full => by
            rw [← slot', acceptSlot, if_pos full] at place
            cases place
          have free : (t.sockArr c).id = 0 := by
            rw [← slot', acceptSlot, if_neg room] at place
            exact sockGet_eq_some place
          have other : c ≠ l := by
            rintro rfl
            exact listens'.id free
          rw [inetTcpAcceptCb_eq (slot'.trans place) other there',
            if_neg (show ¬ NET_OK ≠ NET_OK from not_not.mpr rfl)]
          have notSlot := slot pcb there state l arg c place
          rw [← call] at notSlot
          exact moved.withChild listens' free (fun is => notSlot (by rw [is]; rfl))
            (fun ops is => notSlot (by rw [is]; rfl)) there' errf rfl (not_le.mp room)
    next => exact inv

end SockState

end PosFirmware.IpStack
