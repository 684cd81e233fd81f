import Mathlib.Data.Finset.Card
import PosFirmware.IpStack.Socket

/-! # The invariant of the sockets

What the accounts of the listening sockets are (`SockState.Accounted`), the invariant that
gives them (`SockState.Inv`), and that closing sockets keeps it (`SockState.Inv.netCloseSocket`).
-/

namespace PosFirmware.IpStack

/-- The slot that a call of `NetSocket` has found. -/
def SocketCall.slot : SocketCall → Option SockIndex
  | .idle => none
  | .found k _ | .created k => some k

namespace SockState

/-! ## What is claimed -/

/-- A socket that listens. -/
def Listens (s : SockState) (l : SockIndex) : Prop :=
  (s.sockArr l).waitAccept = false ∧ ∃ p pcb, s.tcpData l = some (p, pcb) ∧ pcb.state = .listen

/-- The entries of the array that wait for `NetAccept` on a socket. -/
def pending (s : SockState) (l : SockIndex) : Finset SockIndex :=
  Finset.univ.filter fun j => (s.sockArr j).id = (s.sockArr l).id ∧ (s.sockArr j).waitAccept = true

/-- A socket is in use, or `NetSocket` has created its control block. -/
def InUse (s : SockState) (j : SockIndex) : Prop := (s.sockArr j).id ≠ 0 ∨ s.call = .created j

/-- The accounts of the listeners: the counter is the number of the entries that wait, and
within the backlog; every entry that waits, and every half-open connection, has its
listener; and a connection that was handed to the sockets is that of a socket in use. -/
structure Accounted (s : SockState) : Prop where
  counted : ∀ l, s.Listens l → (s.sockArr l).childNum = (s.pending l).card
  bounded : ∀ l, s.Listens l → (s.sockArr l).childNum ≤ (s.sockArr l).backlog
  owned : ∀ j, (s.sockArr j).id ≠ 0 → (s.sockArr j).waitAccept = true →
    ∃ l, s.Listens l ∧ (s.sockArr l).id = (s.sockArr j).id
  halfOpen : ∀ p pcb, s.pcbs p = some pcb → pcb.state = .synRcvd →
    ∃ l, pcb.callbackArg = some l ∧ s.Listens l
  handed : ∀ p pcb, s.pcbs p = some pcb → pcb.errf = true →
    ∃ j, pcb.callbackArg = some j ∧ s.InUse j ∧ (s.sockArr j).data = some p

/-! ## The invariant -/

/-- A socket holds a control block, which knows it. -/
structure Holds (s : SockState) (j : SockIndex) (p : PcbIndex) (pcb : SockPcb) : Prop where
  data : (s.sockArr j).data = some p
  there : s.pcbs p = some pcb
  arg : pcb.callbackArg = some j
  known : pcb.errf = true ∨ pcb.state = .listen

/-- The states of a connection that the application has not closed. -/
def isOpen : TcpState → Bool
  | .closed | .synSent | .established | .closeWait => true
  | _ => false

/-- What a control block may be. -/
structure PcbGood (s : SockState) (pcb : SockPcb) : Prop where
  errf : pcb.errf = true → isOpen pcb.state
  accept : pcb.state = .listen ∨ pcb.state = .synRcvd → pcb.accept = true
  halfOpen : pcb.state = .synRcvd → ∃ l, pcb.callbackArg = some l ∧ s.Listens l

/-- What an entry that waits for `NetAccept` may be. -/
structure Waits (s : SockState) (j : SockIndex) : Prop where
  ops : (s.sockArr j).ops = .tcp
  flag : (s.sockArr j).flag &&& SOCK_ACCEPT ≠ 0
  childNum : (s.sockArr j).childNum = 0
  errf : ∀ p pcb, s.Holds j p pcb → pcb.errf = true
  owned : ∃ l, s.Listens l ∧ (s.sockArr l).id = (s.sockArr j).id

/-- The invariant of the sockets. -/
structure Inv (s : SockState) : Prop where
  unique : ∀ i j, (s.sockArr i).id ≠ 0 → (s.sockArr i).id = (s.sockArr j).id →
    (s.sockArr i).waitAccept = false → (s.sockArr j).waitAccept = false → i = j
  holds : ∀ j, s.InUse j → (s.sockArr j).ops = .tcp → ∃ p pcb, s.Holds j p pcb
  held : ∀ p pcb, s.pcbs p = some pcb → pcb.errf = true ∨ pcb.state = .listen →
    ∃ j, s.InUse j ∧ (s.sockArr j).ops = .tcp ∧ s.Holds j p pcb
  good : ∀ p pcb, s.pcbs p = some pcb → s.PcbGood pcb
  waits : ∀ j, (s.sockArr j).id ≠ 0 → (s.sockArr j).waitAccept = true → s.Waits j
  count : ∀ j, (s.sockArr j).id ≠ 0 → (s.sockArr j).waitAccept = false →
    (s.sockArr j).childNum = (s.pending j).card
  bound : ∀ l, s.Listens l → (s.sockArr l).childNum ≤ (s.sockArr l).backlog
  flag : ∀ j, s.InUse j → (s.sockArr j).waitAccept = false →
    (s.sockArr j).flag &&& SOCK_ACCEPT = 0
  found : ∀ k ops, s.call = .found k ops → (s.sockArr k).id = 0
  created : ∀ k, s.call = .created k → (s.sockArr k).id = 0 ∧ (s.sockArr k).waitAccept = false ∧
    (s.sockArr k).childNum = 0 ∧ ∀ p pcb, s.Holds k p pcb → pcb.errf = true

variable {s : SockState}

theorem tcpData_eq_some {i : SockIndex} {p : PcbIndex} {pcb : SockPcb} :
    s.tcpData i = some (p, pcb) ↔ (s.sockArr i).id ≠ 0 ∧ (s.sockArr i).ops = .tcp ∧
      (s.sockArr i).data = some p ∧ s.pcbs p = some pcb := by
  unfold tcpData
  split
  next not =>
    constructor
    · rintro ⟨⟩
    · rintro ⟨used, tcp, -, -⟩
      exact absurd not (not_or.mpr ⟨used, not_not.mpr tcp⟩)
  next yes =>
    rw [not_or, not_not] at yes
    simp only [Option.bind_eq_some_iff, Option.map_eq_some_iff, Prod.mk.injEq]
    constructor
    · rintro ⟨q, data, pcb', there, rfl, rfl⟩
      exact ⟨yes.1, yes.2, data, there⟩
    · rintro ⟨-, -, data, there⟩
      exact ⟨p, data, pcb, there, rfl, rfl⟩

theorem Listens.id {l : SockIndex} (listens : s.Listens l) : (s.sockArr l).id ≠ 0 := by
  obtain ⟨-, p, pcb, data, -⟩ := listens
  exact (tcpData_eq_some.mp data).1

theorem PcbGood.notListen {pcb : SockPcb} (good : s.PcbGood pcb) (errf : pcb.errf = true) :
    pcb.state ≠ .listen := fun state => by
  have := good.errf errf
  rw [state] at this
  cases this

theorem Inv.accounted (inv : Inv s) : s.Accounted where
  counted l listens := inv.count l listens.id listens.1
  bounded := inv.bound
  owned j used waiting := (inv.waits j used waiting).owned
  halfOpen p pcb there state := (inv.good p pcb there).halfOpen state
  handed p pcb there errf := by
    obtain ⟨j, used, -, holds⟩ := inv.held p pcb there (.inl errf)
    exact ⟨j, holds.arg, used, holds.data⟩

/-! ## Writing sockets and control blocks -/

@[simp] theorem setSock_sockArr (s : SockState) (i : SockIndex) (sk : Sock) :
    (s.setSock i sk).sockArr = Function.update s.sockArr i sk := rfl

@[simp] theorem setSock_pcbs (s : SockState) (i : SockIndex) (sk : Sock) :
    (s.setSock i sk).pcbs = s.pcbs := rfl

@[simp] theorem setSock_call (s : SockState) (i : SockIndex) (sk : Sock) :
    (s.setSock i sk).call = s.call := rfl

@[simp] theorem setPcb_sockArr (s : SockState) (p : PcbIndex) (pcb : Option SockPcb) :
    (s.setPcb p pcb).sockArr = s.sockArr := rfl

@[simp] theorem setPcb_pcbs (s : SockState) (p : PcbIndex) (pcb : Option SockPcb) :
    (s.setPcb p pcb).pcbs = Function.update s.pcbs p pcb := rfl

@[simp] theorem setPcb_call (s : SockState) (p : PcbIndex) (pcb : Option SockPcb) :
    (s.setPcb p pcb).call = s.call := rfl

/-- What the sockets know of a control block: whether it is theirs, whose, and whether it
listens. -/
def known : Option SockPcb → Option (Option SockIndex × Bool)
  | some pcb =>
      if pcb.errf = true ∨ pcb.state = .listen then
        some (pcb.callbackArg, decide (pcb.state = .listen))
      else none
  | none => none

theorem known_eq_some {pcb : Option SockPcb} {arg : Option SockIndex} {listens : Bool} :
    known pcb = some (arg, listens) ↔ ∃ pcb', pcb = some pcb' ∧
      (pcb'.errf = true ∨ pcb'.state = .listen) ∧ pcb'.callbackArg = arg ∧
        decide (pcb'.state = .listen) = listens := by
  cases pcb with
  | none => simp [known]
  | some pcb =>
      unfold known
      split
      next is => simp [is]
      next not => simp [not]

theorem known_of_listen {pcb : SockPcb} (listens : pcb.state = .listen) :
    known (some pcb) = some (pcb.callbackArg, true) :=
  known_eq_some.mpr ⟨pcb, rfl, .inr listens, rfl, by simp [listens]⟩

theorem listens_setPcb {p : PcbIndex} {pcb : Option SockPcb} (same : known pcb = known (s.pcbs p))
    (l : SockIndex) : (s.setPcb p pcb).Listens l ↔ s.Listens l := by
  unfold Listens
  simp only [tcpData_eq_some, setPcb_sockArr, setPcb_pcbs]
  refine and_congr_right fun _ => ?_
  constructor
  · rintro ⟨q, pcb', ⟨used, tcp, data, there⟩, listens⟩
    by_cases here : q = p
    · subst here
      rw [Function.update_self] at there
      rw [there, known_of_listen listens] at same
      obtain ⟨old, was, -, -, old'⟩ := known_eq_some.mp same.symm
      exact ⟨q, old, ⟨used, tcp, data, was⟩, of_decide_eq_true old'⟩
    · rw [Function.update_of_ne here] at there
      exact ⟨q, pcb', ⟨used, tcp, data, there⟩, listens⟩
  · rintro ⟨q, pcb', ⟨used, tcp, data, there⟩, listens⟩
    by_cases here : q = p
    · subst here
      rw [there, known_of_listen listens] at same
      obtain ⟨new, is, -, -, new'⟩ := known_eq_some.mp same
      exact ⟨q, new, ⟨used, tcp, data, by rw [Function.update_self, is]⟩, of_decide_eq_true new'⟩
    · exact ⟨q, pcb', ⟨used, tcp, data, by rwa [Function.update_of_ne here]⟩, listens⟩

theorem holds_setPcb (p : PcbIndex) (pcb : Option SockPcb) (same : known pcb = known (s.pcbs p))
    {j : SockIndex} {q : PcbIndex} {held : SockPcb} (holds : s.Holds j q held) :
    ∃ held', (s.setPcb p pcb).Holds j q held' ∧ (held'.state = .listen ↔ held.state = .listen) := by
  by_cases here : q = p
  · subst here
    have old : known (s.pcbs q) = some (some j, decide (held.state = .listen)) :=
      known_eq_some.mpr ⟨held, holds.there, holds.known, holds.arg, rfl⟩
    rw [old] at same
    obtain ⟨new, rfl, is, arg, listens⟩ := known_eq_some.mp same
    refine ⟨new, ⟨holds.data, Function.update_self .., arg, is⟩, ?_⟩
    simpa using listens
  · refine ⟨held, ⟨holds.data, ?_, holds.arg, holds.known⟩, Iff.rfl⟩
    rw [setPcb_pcbs, Function.update_of_ne here]
    exact holds.there

theorem Inv.setPcb (inv : Inv s) {p : PcbIndex} {pcb : Option SockPcb}
    (same : known pcb = known (s.pcbs p)) (good : ∀ pcb', pcb = some pcb' → s.PcbGood pcb') :
    Inv (s.setPcb p pcb) := by
  have listens := listens_setPcb same
  have goodThere : ∀ pcb', s.PcbGood pcb' → (s.setPcb p pcb).PcbGood pcb' := fun pcb' good =>
    ⟨good.errf, good.accept, fun half => by
      obtain ⟨l, arg, is⟩ := good.halfOpen half
      exact ⟨l, arg, (listens l).mpr is⟩⟩
  have errfThere : ∀ j, (∀ q held, s.Holds j q held → held.errf = true) →
      ∀ q held, (s.setPcb p pcb).Holds j q held → held.errf = true := by
    intro j errf q held holds
    obtain ⟨old, holds', listen⟩ := holds_setPcb p (s.pcbs p)
      (by rw [setPcb_pcbs, Function.update_self]; exact same.symm) holds
    have back : (s.setPcb p pcb).setPcb p (s.pcbs p) = s := by
      unfold SockState.setPcb
      rw [Function.update_idem, Function.update_eq_self]
    rw [back] at holds'
    have not := (inv.good q old holds'.there).notListen (errf q old holds')
    rcases holds.known with errf' | state
    · exact errf'
    · exact absurd (listen.mpr state) not
  refine ⟨inv.unique, fun j used tcp => ?_, fun q pcb' there is => ?_, fun q pcb' there => ?_,
    fun j used waiting => ?_, inv.count, fun l is => inv.bound l ((listens l).mp is), inv.flag,
    inv.found, fun k call => ?_⟩
  · obtain ⟨q, held, holds⟩ := inv.holds j used tcp
    obtain ⟨held', holds', -⟩ := holds_setPcb p pcb same holds
    exact ⟨q, held', holds'⟩
  · rw [setPcb_pcbs] at there
    by_cases here : q = p
    · subst here
      rw [Function.update_self] at there
      rw [there] at same
      have new : known (some pcb') = some (pcb'.callbackArg, decide (pcb'.state = .listen)) :=
        known_eq_some.mpr ⟨pcb', rfl, is, rfl, rfl⟩
      obtain ⟨old, was, old', arg, -⟩ := known_eq_some.mp (same.symm.trans new)
      obtain ⟨j, used, tcp, holds⟩ := inv.held q old was old'
      refine ⟨j, used, tcp, holds.data, ?_, arg ▸ holds.arg, is⟩
      rw [setPcb_pcbs, Function.update_self, there]
    · rw [Function.update_of_ne here] at there
      obtain ⟨j, used, tcp, holds⟩ := inv.held q pcb' there is
      refine ⟨j, used, tcp, holds.data, ?_, holds.arg, is⟩
      rwa [setPcb_pcbs, Function.update_of_ne here]
  · rw [setPcb_pcbs] at there
    by_cases here : q = p
    · subst here
      rw [Function.update_self] at there
      exact goodThere pcb' (good pcb' there)
    · rw [Function.update_of_ne here] at there
      exact goodThere pcb' (inv.good q pcb' there)
  · have waits := inv.waits j used waiting
    obtain ⟨l, is, id⟩ := waits.owned
    exact ⟨waits.ops, waits.flag, waits.childNum, errfThere j waits.errf,
      ⟨l, (listens l).mpr is, id⟩⟩
  · obtain ⟨free, plain, none, errf⟩ := inv.created k call
    exact ⟨free, plain, none, errfThere k errf⟩

theorem Inv.listener (inv : Inv s) {p : PcbIndex} {pcb : SockPcb} (there : s.pcbs p = some pcb)
    (state : pcb.state = .listen) :
    ∃ l, pcb.callbackArg = some l ∧ s.Holds l p pcb ∧ s.Listens l := by
  obtain ⟨l, used, tcp, holds⟩ := inv.held p pcb there (.inr state)
  have noErrf : pcb.errf ≠ true := fun errf => (inv.good p pcb there).notListen errf state
  have id : (s.sockArr l).id ≠ 0 := by
    rcases used with id | call
    · exact id
    · exact absurd ((inv.created l call).2.2.2 p pcb holds) noErrf
  refine ⟨l, holds.arg, holds, ?_, p, pcb, tcpData_eq_some.mpr ⟨id, tcp, holds.data, there⟩, state⟩
  cases waiting : (s.sockArr l).waitAccept with
  | false => rfl
  | true => exact absurd ((inv.waits l id waiting).errf p pcb holds) noErrf

/-! ## Sockets that stay as they are -/

/-- A slot with the same socket in it, but for the counter, the backlog and the events. -/
structure SameSock (old new : Sock) : Prop where
  id : new.id = old.id
  waitAccept : new.waitAccept = old.waitAccept
  flag : new.flag &&& SOCK_ACCEPT = old.flag &&& SOCK_ACCEPT
  ops : new.ops = old.ops
  data : new.data = old.data

theorem SameSock.refl (sk : Sock) : SameSock sk sk := ⟨rfl, rfl, rfl, rfl, rfl⟩

variable {s' : SockState}

theorem listens_of_same {l : SockIndex} (same : SameSock (s.sockArr l) (s'.sockArr l))
    (pcbs : ∀ p, (s.sockArr l).data = some p → s'.pcbs p = s.pcbs p) :
    s'.Listens l ↔ s.Listens l := by
  unfold Listens
  simp only [tcpData_eq_some, same.id, same.waitAccept, same.ops, same.data]
  refine and_congr_right fun _ => exists_congr fun p => exists_congr fun pcb =>
    and_congr_left fun _ => and_congr_right fun _ => and_congr_right fun _ => ?_
  refine and_congr_right fun data => ?_
  rw [pcbs p data]

theorem Holds.of_same {j : SockIndex} {p : PcbIndex} {pcb : SockPcb} (holds : s.Holds j p pcb)
    (same : SameSock (s.sockArr j) (s'.sockArr j)) (pcbs : s'.pcbs p = s.pcbs p) :
    s'.Holds j p pcb :=
  ⟨same.data.trans holds.data, pcbs.trans holds.there, holds.arg, holds.known⟩

theorem SameSock.symm {old new : Sock} (same : SameSock old new) : SameSock new old :=
  ⟨same.id.symm, same.waitAccept.symm, same.flag.symm, same.ops.symm, same.data.symm⟩

theorem Holds.unique {i j : SockIndex} {p : PcbIndex} {pcb pcb' : SockPcb}
    (first : s.Holds i p pcb) (second : s.Holds j p pcb') : i = j := by
  have same := Option.some.inj (first.there.symm.trans second.there)
  exact Option.some.inj (first.arg.symm.trans (same ▸ second.arg))

theorem Inv.of_same (inv : Inv s) (socks : ∀ j, SameSock (s.sockArr j) (s'.sockArr j))
    (childNum : ∀ j, (s'.sockArr j).childNum = (s.sockArr j).childNum)
    (backlog : ∀ l, s.Listens l → (s.sockArr l).childNum ≤ (s'.sockArr l).backlog)
    (pcbs : s'.pcbs = s.pcbs) (call : s'.call = s.call) : Inv s' := by
  have listens : ∀ l, s'.Listens l ↔ s.Listens l := fun l =>
    listens_of_same (socks l) fun p _ => by rw [pcbs]
  have inUse : ∀ j, s'.InUse j ↔ s.InUse j := fun j => by
    unfold InUse
    rw [(socks j).id, call]
  have pending : ∀ j, s'.pending j = s.pending j := fun j =>
    Finset.filter_congr fun i _ => by rw [(socks i).id, (socks i).waitAccept, (socks j).id]
  have errf : ∀ j, (∀ p pcb, s.Holds j p pcb → pcb.errf = true) →
      ∀ p pcb, s'.Holds j p pcb → pcb.errf = true := fun j known p pcb holds =>
    known p pcb (holds.of_same (socks j).symm (by rw [pcbs]))
  refine ⟨fun i j => ?_, fun j used tcp => ?_, fun p pcb there is => ?_, fun p pcb there => ?_,
    fun j used waiting => ?_, fun j used plain => ?_, fun l is => ?_, fun j used plain => ?_,
    fun k ops is => ?_, fun k is => ?_⟩
  · rw [(socks i).id, (socks j).id, (socks i).waitAccept, (socks j).waitAccept]
    exact inv.unique i j
  · rw [(socks j).ops] at tcp
    obtain ⟨p, pcb, holds⟩ := inv.holds j ((inUse j).mp used) tcp
    exact ⟨p, pcb, holds.of_same (socks j) (by rw [pcbs])⟩
  · rw [pcbs] at there
    obtain ⟨j, used, tcp, holds⟩ := inv.held p pcb there is
    exact ⟨j, (inUse j).mpr used, (socks j).ops.trans tcp, holds.of_same (socks j) (by rw [pcbs])⟩
  · rw [pcbs] at there
    have good := inv.good p pcb there
    refine ⟨good.errf, good.accept, fun half => ?_⟩
    obtain ⟨l, arg, is⟩ := good.halfOpen half
    exact ⟨l, arg, (listens l).mpr is⟩
  · rw [(socks j).id] at used
    rw [(socks j).waitAccept] at waiting
    have waits := inv.waits j used waiting
    obtain ⟨l, is, id⟩ := waits.owned
    exact ⟨(socks j).ops.trans waits.ops, by rw [(socks j).flag]; exact waits.flag,
      (childNum j).trans waits.childNum, errf j waits.errf,
      ⟨l, (listens l).mpr is, by rw [(socks l).id, (socks j).id, id]⟩⟩
  · rw [(socks j).id] at used
    rw [(socks j).waitAccept] at plain
    rw [childNum, pending]
    exact inv.count j used plain
  · rw [childNum]
    exact backlog l ((listens l).mp is)
  · rw [(socks j).waitAccept] at plain
    rw [(socks j).flag]
    exact inv.flag j ((inUse j).mp used) plain
  · rw [call] at is
    rw [(socks k).id]
    exact inv.found k ops is
  · rw [call] at is
    obtain ⟨free, plain, none, known⟩ := inv.created k is
    exact ⟨(socks k).id.trans free, (socks k).waitAccept.trans plain, (childNum k).trans none,
      errf k known⟩

/-! ## A socket is given up -/

theorem Inv.holds_data (inv : Inv s) {j : SockIndex} {p : PcbIndex} (used : s.InUse j)
    (tcp : (s.sockArr j).ops = .tcp) (data : (s.sockArr j).data = some p) :
    ∃ pcb, s.Holds j p pcb := by
  obtain ⟨q, pcb, holds⟩ := inv.holds j used tcp
  obtain rfl := Option.some.inj (data.symm.trans holds.data)
  exact ⟨pcb, holds⟩

/-- A socket was given up, and with it the control block that it held; a listener was given
up only without children. -/
structure Released (s s' : SockState) (c : SockIndex) : Prop where
  used : (s.sockArr c).id ≠ 0
  free : (s'.sockArr c).id = 0
  socks : ∀ j, j ≠ c → SameSock (s.sockArr j) (s'.sockArr j)
  pcbs : ∀ p, s'.pcbs p = s.pcbs p ∨
    (s.sockArr c).ops = .tcp ∧ (s.sockArr c).data = some p ∧
      ∀ pcb, s'.pcbs p = some pcb → pcb.state ≠ .synRcvd
  gone : (s.sockArr c).ops = .tcp → ∀ p, (s.sockArr c).data = some p → known (s'.pcbs p) = none
  call : s'.call = s.call
  childless : s.Listens c → ∀ j, (s.sockArr j).id = (s.sockArr c).id →
    (s.sockArr j).waitAccept = false
  noHalfOpen : s.Listens c → ∀ p pcb, s.pcbs p = some pcb → pcb.state = .synRcvd →
    pcb.callbackArg ≠ some c

theorem Released.keeps (inv : Inv s) {c : SockIndex} (released : Released s s' c) {j : SockIndex}
    {p : PcbIndex} {pcb : SockPcb} (holds : s.Holds j p pcb) (other : j ≠ c) :
    s'.pcbs p = s.pcbs p := by
  rcases released.pcbs p with same | ⟨tcp, data, -⟩
  · exact same
  · obtain ⟨pcb', mine⟩ := inv.holds_data (.inl released.used) tcp data
    exact absurd (holds.unique mine) other

theorem Released.listens (inv : Inv s) {c : SockIndex} (released : Released s s' c)
    {j : SockIndex} (other : j ≠ c) : s'.Listens j ↔ s.Listens j := by
  have same := released.socks j other
  constructor
  · rintro ⟨plain, p, pcb, data, state⟩
    obtain ⟨used, tcp, data, there⟩ := tcpData_eq_some.mp data
    refine ⟨same.waitAccept.symm.trans plain, p, pcb, tcpData_eq_some.mpr
      ⟨same.id ▸ used, same.ops.symm.trans tcp, same.data.symm.trans data, ?_⟩, state⟩
    rcases released.pcbs p with keeps | ⟨tcp', data', -⟩
    · rw [← keeps, there]
    · have gone := released.gone tcp' p data'
      rw [there, known_of_listen state] at gone
      cases gone
  · intro listens
    refine (listens_of_same same fun p data => ?_).mpr listens
    obtain ⟨-, q, pcb, there, -⟩ := listens
    obtain ⟨used, tcp, -, -⟩ := tcpData_eq_some.mp there
    obtain ⟨held, holds⟩ := inv.holds_data (.inl used) tcp data
    exact released.keeps inv holds other

/-- Giving up a socket keeps the invariant, where the counters are right. -/
theorem Inv.released (inv : Inv s) {c : SockIndex} (released : Released s s' c)
    (count : ∀ j, j ≠ c → (s.sockArr j).id ≠ 0 → (s.sockArr j).waitAccept = false →
      (s'.sockArr j).childNum = (s'.pending j).card)
    (zero : ∀ j, j ≠ c → (s.sockArr j).childNum = 0 → (s'.sockArr j).childNum = 0)
    (bound : ∀ l, l ≠ c → s.Listens l → (s'.sockArr l).childNum ≤ (s'.sockArr l).backlog) :
    Inv s' := by
  have socks := released.socks
  have notFree : ∀ j, (s'.sockArr j).id ≠ 0 → j ≠ c := by
    rintro j used rfl
    exact used released.free
  have notCreated : ∀ j, s.call = .created j → j ≠ c := by
    rintro j call rfl
    exact released.used (inv.created j call).1
  have inUse : ∀ j, s'.InUse j → j ≠ c ∧ s.InUse j := by
    rintro j (used | call)
    · exact ⟨notFree j used, .inl ((socks j (notFree j used)).id ▸ used)⟩
    · rw [released.call] at call
      exact ⟨notCreated j call, .inr call⟩
  have listens : ∀ j, j ≠ c → (s'.Listens j ↔ s.Listens j) := fun j => released.listens inv
  have back : ∀ j, j ≠ c → ∀ p pcb, s'.Holds j p pcb → s.Holds j p pcb := by
    intro j other p pcb holds
    rcases released.pcbs p with keeps | ⟨tcp, data, -⟩
    · exact holds.of_same (socks j other).symm keeps.symm
    · have gone := released.gone tcp p data
      rw [holds.there, known_eq_some.mpr ⟨pcb, rfl, holds.known, rfl, rfl⟩] at gone
      cases gone
  refine ⟨fun i j used => ?_, fun j used tcp => ?_, fun p pcb there is => ?_,
    fun p pcb there => ?_, fun j used waiting => ?_, fun j used plain => ?_, fun l is => ?_,
    fun j used plain => ?_, fun k ops is => ?_, fun k is => ?_⟩
  · intro same
    have other := notFree i used
    have other' := notFree j (same ▸ used)
    rw [(socks i other).id] at used same
    rw [(socks j other').id] at same
    rw [(socks i other).waitAccept, (socks j other').waitAccept]
    exact inv.unique i j used same
  · obtain ⟨other, used⟩ := inUse j used
    rw [(socks j other).ops] at tcp
    obtain ⟨p, pcb, holds⟩ := inv.holds j used tcp
    exact ⟨p, pcb, holds.of_same (socks j other) (released.keeps inv holds other)⟩
  · rcases released.pcbs p with keeps | ⟨tcp, data, -⟩
    · obtain ⟨j, used, tcp, holds⟩ := inv.held p pcb (keeps ▸ there) is
      have other : j ≠ c := by
        rintro rfl
        have gone := released.gone tcp p holds.data
        rw [there, known_eq_some.mpr ⟨pcb, rfl, is, rfl, rfl⟩] at gone
        cases gone
      refine ⟨j, used.imp (fun used => ?_) (released.call.trans ·), (socks j other).ops.trans tcp,
        holds.of_same (socks j other) keeps⟩
      rwa [(socks j other).id]
    · have gone := released.gone tcp p data
      rw [there, known_eq_some.mpr ⟨pcb, rfl, is, rfl, rfl⟩] at gone
      cases gone
  · rcases released.pcbs p with keeps | ⟨tcp, data, notHalf⟩
    · have good := inv.good p pcb (keeps ▸ there)
      refine ⟨good.errf, good.accept, fun half => ?_⟩
      obtain ⟨l, arg, is⟩ := good.halfOpen half
      have other : l ≠ c := by
        rintro rfl
        exact released.noHalfOpen is p pcb (keeps ▸ there) half arg
      exact ⟨l, arg, (listens l other).mpr is⟩
    · have gone := released.gone tcp p data
      rw [there] at gone
      have unknown : ¬ (pcb.errf = true ∨ pcb.state = .listen) := fun is => by
        rw [known_eq_some.mpr ⟨pcb, rfl, is, rfl, rfl⟩] at gone
        cases gone
      rw [not_or] at unknown
      exact ⟨fun errf => absurd errf unknown.1,
        fun state => state.elim (absurd · unknown.2) (absurd · (notHalf pcb there)),
        fun half => absurd half (notHalf pcb there)⟩
  · have other := notFree j used
    rw [(socks j other).id] at used
    rw [(socks j other).waitAccept] at waiting
    have waits := inv.waits j used waiting
    obtain ⟨l, is, id⟩ := waits.owned
    have otherOwner : l ≠ c := by
      rintro rfl
      rw [released.childless is j id.symm] at waiting
      cases waiting
    exact ⟨(socks j other).ops.trans waits.ops, by rw [(socks j other).flag]; exact waits.flag,
      zero j other waits.childNum, fun p pcb holds => waits.errf p pcb (back j other p pcb holds),
      l, (listens l otherOwner).mpr is, by rw [(socks l otherOwner).id, (socks j other).id, id]⟩
  · have other := notFree j used
    rw [(socks j other).id] at used
    rw [(socks j other).waitAccept] at plain
    exact count j other used plain
  · have other := notFree l is.id
    exact bound l other ((listens l other).mp is)
  · obtain ⟨other, used⟩ := inUse j used
    rw [(socks j other).waitAccept] at plain
    rw [(socks j other).flag]
    exact inv.flag j used plain
  · rw [released.call] at is
    have free := inv.found k ops is
    have other : k ≠ c := by
      rintro rfl
      exact released.used free
    rw [(socks k other).id, free]
  · rw [released.call] at is
    have other := notCreated k is
    obtain ⟨free, plain, none, errf⟩ := inv.created k is
    exact ⟨(socks k other).id.trans free, (socks k other).waitAccept.trans plain,
      zero k other none, fun p pcb holds => errf p pcb (back k other p pcb holds)⟩

theorem Released.mem_pending {c : SockIndex} (released : Released s s' c) {j : SockIndex}
    (other : j ≠ c) (used : (s.sockArr j).id ≠ 0) (i : SockIndex) :
    i ∈ s'.pending j ↔ i ∈ (s.pending j).erase c := by
  simp only [pending, Finset.mem_erase, Finset.mem_filter, Finset.mem_univ, true_and]
  rw [(released.socks j other).id]
  by_cases mine : i = c
  · subst mine
    rw [released.free]
    exact ⟨fun waits => absurd waits.1.symm used, fun waits => absurd rfl waits.1⟩
  · rw [(released.socks i mine).id, (released.socks i mine).waitAccept]
    exact ⟨fun waits => ⟨mine, waits⟩, fun waits => waits.2⟩

theorem Released.pending {c : SockIndex} (released : Released s s' c) {j : SockIndex}
    (other : j ≠ c) (used : (s.sockArr j).id ≠ 0) : s'.pending j = (s.pending j).erase c :=
  Finset.ext (released.mem_pending other used)

theorem Inv.released_plain (inv : Inv s) {c : SockIndex} (released : Released s s' c)
    (plain : (s.sockArr c).waitAccept = false)
    (same : ∀ j, j ≠ c → (s'.sockArr j).childNum = (s.sockArr j).childNum ∧
      (s'.sockArr j).backlog = (s.sockArr j).backlog) : Inv s' := by
  refine inv.released released (fun j other used plain' => ?_) (fun j other none => ?_)
    (fun l other is => ?_)
  · have notIn : c ∉ s.pending j := fun waits => by
      have := (Finset.mem_filter.mp waits).2.2
      rw [plain] at this
      cases this
    rw [released.pending other used, Finset.erase_eq_of_notMem notIn, (same j other).1]
    exact inv.count j used plain'
  · rw [(same j other).1, none]
  · rw [(same l other).1, (same l other).2]
    exact inv.bound l is

theorem Inv.released_child (inv : Inv s) {c l : SockIndex} (released : Released s s' c)
    (waiting : (s.sockArr c).waitAccept = true) (listens : s.Listens l)
    (id : (s.sockArr l).id = (s.sockArr c).id)
    (less : (s'.sockArr l).childNum = (s.sockArr l).childNum - 1)
    (same : ∀ j, j ≠ c → j ≠ l → (s'.sockArr j).childNum = (s.sockArr j).childNum)
    (backlog : ∀ j, j ≠ c → (s'.sockArr j).backlog = (s.sockArr j).backlog) : Inv s' := by
  have otherOwner : l ≠ c := by
    rintro rfl
    rw [listens.1] at waiting
    cases waiting
  have waits : c ∈ s.pending l :=
    Finset.mem_filter.mpr ⟨Finset.mem_univ _, id.symm, waiting⟩
  have count := inv.count l listens.id listens.1
  have some' : 0 < (s.pending l).card := Finset.card_pos.mpr ⟨c, waits⟩
  refine inv.released released (fun j other used plain => ?_) (fun j other none => ?_)
    (fun j other is => ?_)
  · rw [released.pending other used]
    by_cases owner : j = l
    · subst owner
      rw [Finset.card_erase_of_mem waits, less, count]
      omega
    · have notIn : c ∉ s.pending j := fun waits' => by
        have id' := (Finset.mem_filter.mp waits').2.1
        exact owner (inv.unique j l used (id'.symm.trans id.symm) plain listens.1)
      rw [Finset.erase_eq_of_notMem notIn, same j other owner]
      exact inv.count j used plain
  · by_cases owner : j = l
    · subst owner
      omega
    · rw [same j other owner, none]
  · rw [backlog j other]
    have bound := inv.bound j is
    by_cases owner : j = l
    · subst owner
      omega
    · rw [same j other owner]
      exact bound

theorem Inv.tcpClose (inv : Inv s) {j : SockIndex} {p : PcbIndex} {pcb : SockPcb}
    (holds : s.Holds j p pcb) :
    ∃ new, s.tcpClose p = s.setPcb p new ∧ known new = none ∧
      ∀ pcb', new = some pcb' → pcb'.state ≠ .synRcvd := by
  have freed : known none = none ∧ ∀ pcb' : SockPcb, none = some pcb' → pcb'.state ≠ .synRcvd :=
    ⟨rfl, fun pcb' is => by cases is⟩
  have mayBe : pcb.state = .listen ∨ isOpen pcb.state = true :=
    holds.known.symm.imp_right (inv.good p pcb holds.there).errf
  unfold SockState.tcpClose
  rw [holds.there]
  dsimp only
  cases state : pcb.state with
  | closed | listen | synSent | synRcvd => exact ⟨none, rfl, freed⟩
  | established =>
      refine ⟨_, rfl, ?_, ?_⟩
      · simp [known]
      · rintro pcb' ⟨⟩ half
        cases half
  | closeWait =>
      dsimp only
      split
      · exact ⟨none, rfl, freed⟩
      · refine ⟨_, rfl, ?_, ?_⟩
        · simp [known]
        · rintro pcb' ⟨⟩ half
          cases half
  | finWait1 | finWait2 | closing | lastAck | timeWait => simp [state, isOpen] at mayBe

theorem Inv.close (inv : Inv s) {c : SockIndex} (used : (s.sockArr c).id ≠ 0)
    (plain : (s.sockArr c).waitAccept = false)
    (childless : s.Listens c → ∀ j, (s.sockArr j).id = (s.sockArr c).id →
      (s.sockArr j).waitAccept = false)
    (noHalfOpen : s.Listens c → ∀ p pcb, s.pcbs p = some pcb → pcb.state = .synRcvd →
      pcb.callbackArg ≠ some c) :
    Inv ((match s.tcpData c with
      | some (p, _) => s.tcpClose p
      | none => s).setSock c { s.sockArr c with id := 0 }) := by
  have others : ∀ (t : SockState) (sk : Sock), t.sockArr = s.sockArr → ∀ j, j ≠ c →
      (t.setSock c sk).sockArr j = s.sockArr j := by
    intro t sk same j other
    rw [setSock_sockArr, Function.update_of_ne other, same]
  cases data : s.tcpData c with
  | none =>
      have notTcp : (s.sockArr c).ops ≠ .tcp := fun tcp => by
        obtain ⟨p, pcb, holds⟩ := inv.holds c (.inl used) tcp
        rw [tcpData_eq_some.mpr ⟨used, tcp, holds.data, holds.there⟩] at data
        cases data
      refine inv.released_plain ⟨used, ?_, fun j other => ?_, fun p => .inl rfl,
        fun tcp => absurd tcp notTcp, rfl, childless, noHalfOpen⟩ plain fun j other => ?_
      · simp
      · rw [others s _ rfl j other]
        exact .refl _
      · rw [others s _ rfl j other]
        exact ⟨rfl, rfl⟩
  | some found =>
      obtain ⟨p, pcb⟩ := found
      obtain ⟨-, tcp, data, there⟩ := tcpData_eq_some.mp data
      obtain ⟨held, holds⟩ := inv.holds_data (.inl used) tcp data
      obtain ⟨new, closed, unknown, notHalf⟩ := inv.tcpClose holds
      dsimp only
      rw [closed]
      refine inv.released_plain ⟨used, ?_, fun j other => ?_, fun q => ?_, fun _ q is => ?_, rfl,
        childless, noHalfOpen⟩ plain fun j other => ?_
      · simp
      · rw [others (s.setPcb p new) _ rfl j other]
        exact .refl _
      · by_cases here : q = p
        · subst here
          refine .inr ⟨tcp, data, fun pcb' is => notHalf pcb' ?_⟩
          rw [← is]
          simp
        · exact .inl (by simp [here])
      · obtain rfl := Option.some.inj (data.symm.trans is)
        simp [unknown]
      · rw [others (s.setPcb p new) _ rfl j other]
        exact ⟨rfl, rfl⟩

/-- The state after a child was given up, and its listener has counted down. -/
def withoutChild (s : SockState) (l c : SockIndex) (p : PcbIndex) (new : Option SockPcb)
    (waits : Bool) : SockState :=
  ((s.setPcb p new).setSock c { s.sockArr c with id := 0, waitAccept := waits }).setSock l
    { s.sockArr l with childNum := (s.sockArr l).childNum - 1 }

theorem Inv.withoutChild (inv : Inv s) {l c : SockIndex} {p : PcbIndex} {pcb : SockPcb}
    {new : Option SockPcb} (listens : s.Listens l) (id : (s.sockArr l).id = (s.sockArr c).id)
    (waiting : (s.sockArr c).waitAccept = true) (holds : s.Holds c p pcb)
    (unknown : known new = none) (notHalf : ∀ pcb', new = some pcb' → pcb'.state ≠ .synRcvd)
    (waits : Bool) :
    Inv (s.withoutChild l c p new waits) ∧ Released s (s.withoutChild l c p new waits) c := by
  have used : (s.sockArr c).id ≠ 0 := id ▸ listens.id
  have tcp := (inv.waits c used waiting).ops
  have owner : c ≠ l := by
    rintro rfl
    rw [listens.1] at waiting
    cases waiting
  have notListener : ¬ s.Listens c := fun is => by
    rw [is.1] at waiting
    cases waiting
  have socks : ∀ j, j ≠ c →
      SameSock (s.sockArr j) ((s.withoutChild l c p new waits).sockArr j) := by
    intro j other
    simp only [SockState.withoutChild, setSock_sockArr, setPcb_sockArr]
    by_cases mine : j = l
    · subst mine
      rw [Function.update_self]
      exact ⟨rfl, rfl, rfl, rfl, rfl⟩
    · rw [Function.update_of_ne mine, Function.update_of_ne other]
      exact .refl _
  have released : Released s (s.withoutChild l c p new waits) c := by
    refine ⟨used, ?_, socks, fun q => ?_, fun _ q is => ?_, rfl, fun is => absurd is notListener,
      fun is => absurd is notListener⟩
    · simp [SockState.withoutChild, Function.update_of_ne owner]
    · by_cases here : q = p
      · subst here
        refine .inr ⟨tcp, holds.data, fun pcb' is => notHalf pcb' ?_⟩
        rw [← is]
        simp [SockState.withoutChild]
      · exact .inl (by simp [SockState.withoutChild, here])
    · obtain rfl := Option.some.inj (holds.data.symm.trans is)
      simp [SockState.withoutChild, unknown]
  refine ⟨inv.released_child released waiting listens id ?_ (fun j other notOwner => ?_)
    (fun j other => ?_), released⟩
  · simp [SockState.withoutChild]
  · simp [SockState.withoutChild, other, notOwner]
  · by_cases mine : j = l
    · subst mine
      simp [SockState.withoutChild]
    · simp [SockState.withoutChild, other, mine]

theorem Inv.closeChild (inv : Inv s) {i : SockIndex} (listens : s.Listens i) (k : SockIndex) :
    Inv (s.closeChild i k) ∧ (s.closeChild i k).Listens i ∧
      ((s.closeChild i k).sockArr i).id = (s.sockArr i).id ∧
      ((s.closeChild i k).sockArr i).data = (s.sockArr i).data ∧
      (∀ j, j ≠ i → ((s.closeChild i k).sockArr j).id = (s.sockArr i).id →
        (s.sockArr j).id = (s.sockArr i).id ∧ j ≠ k) ∧
      ∀ p pcb, (s.closeChild i k).pcbs p = some pcb → pcb.state = .synRcvd →
        s.pcbs p = some pcb := by
  by_cases child : k ≠ i ∧ (s.sockArr k).id = (s.sockArr i).id
  · obtain ⟨other, id⟩ := child
    have used : (s.sockArr k).id ≠ 0 := id ▸ listens.id
    have waiting : (s.sockArr k).waitAccept = true := by
      by_contra plain
      rw [Bool.not_eq_true] at plain
      exact other (inv.unique k i used id plain listens.1)
    obtain ⟨p, pcb, holds⟩ := inv.holds k (.inl used) (inv.waits k used waiting).ops
    obtain ⟨new, closed, unknown, notHalf⟩ := inv.tcpClose holds
    have same : s.closeChild i k = s.withoutChild i k p new false := by
      unfold SockState.closeChild SockState.withoutChild
      rw [if_pos ⟨other, id⟩, holds.data]
      simp only [closed, setSock_sockArr, setPcb_sockArr, Function.update_of_ne other.symm]
    obtain ⟨after, released⟩ :=
      inv.withoutChild listens id.symm waiting holds unknown notHalf false
    rw [same]
    refine ⟨after, (released.listens inv other.symm).mpr listens,
      (released.socks i other.symm).id, (released.socks i other.symm).data,
      fun j notOwner id' => ?_, fun q pcb' there half => ?_⟩
    · have notChild : j ≠ k := by
        rintro rfl
        rw [released.free] at id'
        exact listens.id id'.symm
      exact ⟨(released.socks j notChild).id.symm.trans id', notChild⟩
    · rcases released.pcbs q with keeps | ⟨-, -, notHalf'⟩
      · rw [← keeps, there]
      · exact absurd half (notHalf' pcb' there)
  · have same : s.closeChild i k = s := if_neg child
    rw [same]
    refine ⟨inv, listens, rfl, rfl, fun j other id => ⟨id, ?_⟩, fun p pcb there _ => there⟩
    rintro rfl
    exact child ⟨other, id⟩

theorem Inv.closeChildren (inv : Inv s) {i : SockIndex} (listens : s.Listens i)
    (ks : List SockIndex) :
    Inv (ks.foldl (SockState.closeChild i) s) ∧ (ks.foldl (SockState.closeChild i) s).Listens i ∧
      ((ks.foldl (SockState.closeChild i) s).sockArr i).id = (s.sockArr i).id ∧
      ((ks.foldl (SockState.closeChild i) s).sockArr i).data = (s.sockArr i).data ∧
      (∀ j, j ≠ i → ((ks.foldl (SockState.closeChild i) s).sockArr j).id = (s.sockArr i).id →
        (s.sockArr j).id = (s.sockArr i).id ∧ j ∉ ks) ∧
      ∀ p pcb, (ks.foldl (SockState.closeChild i) s).pcbs p = some pcb →
        pcb.state = .synRcvd → s.pcbs p = some pcb := by
  induction ks generalizing s with
  | nil =>
      exact ⟨inv, listens, rfl, rfl, fun j _ id => ⟨id, List.not_mem_nil⟩,
        fun _ _ there _ => there⟩
  | cons k rest past =>
      obtain ⟨inv₁, listens₁, id₁, data₁, left₁, pcbs₁⟩ := inv.closeChild listens k
      obtain ⟨inv₂, listens₂, id₂, data₂, left₂, pcbs₂⟩ := past inv₁ listens₁
      rw [List.foldl_cons]
      refine ⟨inv₂, listens₂, id₂.trans id₁, data₂.trans data₁, fun j other id => ?_,
        fun p pcb there half => pcbs₁ p pcb (pcbs₂ p pcb there half) half⟩
      obtain ⟨before, notRest⟩ := left₂ j other (id.trans id₁.symm)
      obtain ⟨first, notFirst⟩ := left₁ j other (before.trans id₁)
      exact ⟨first, List.not_mem_cons_of_ne_of_not_mem notFirst notRest⟩

theorem tcpClose_sockArr (s : SockState) (p : PcbIndex) : (s.tcpClose p).sockArr = s.sockArr := by
  unfold SockState.tcpClose
  split
  · rfl
  · split
    case h_6 => split <;> rfl
    all_goals rfl

/-- `NetCloseSocket`. -/
theorem Inv.netCloseSocket (inv : Inv s) (i : SockIndex)
    (noHalfOpen : s.Listens i → ∀ p pcb, s.pcbs p = some pcb → pcb.state = .synRcvd →
      pcb.callbackArg ≠ some i) : Inv (s.netCloseSocket i) := by
  unfold SockState.netCloseSocket
  split
  next => exact inv
  next may =>
    rw [not_or, Bool.not_eq_true] at may
    obtain ⟨used, plain⟩ := may
    cases data : s.tcpData i with
    | none =>
        have notListens : ¬ s.Listens i := fun ⟨_, p, pcb, is, _⟩ => by
          rw [data] at is
          cases is
        have closed := inv.close used plain (fun is => absurd is notListens) noHalfOpen
        rw [data] at closed
        exact closed
    | some found =>
        obtain ⟨p, pcb⟩ := found
        obtain ⟨-, tcp, data', there⟩ := tcpData_eq_some.mp data
        dsimp only
        split
        next round =>
          have listens : s.Listens i := ⟨plain, p, pcb, data, round.1⟩
          obtain ⟨inv₁, listens₁, id₁, data₁, left₁, pcbs₁⟩ :=
            inv.closeChildren listens (List.finRange MAX_SOCK_COUNT)
          obtain ⟨plain₁, p₁, pcb₁, found₁, state₁⟩ := listens₁
          have closed := inv₁.close (id₁ ▸ used) plain₁
            (fun _ j id => by
              by_cases mine : j = i
              · rw [mine]
                exact plain₁
              · exact absurd (List.mem_finRange j) (left₁ j mine (id.trans id₁)).2)
            (fun _ q pcb' there' half => noHalfOpen listens q pcb' (pcbs₁ q pcb' there' half) half)
          rw [found₁] at closed
          have same : p₁ = p := by
            have := (tcpData_eq_some.mp found₁).2.2.1
            rw [data₁, data'] at this
            exact (Option.some.inj this).symm
          rw [same] at closed
          rw [tcpClose_sockArr]
          exact closed
        next noRound =>
          have childless : s.Listens i → ∀ j, (s.sockArr j).id = (s.sockArr i).id →
              (s.sockArr j).waitAccept = false := by
            rintro ⟨-, p', pcb', is, state⟩ j id
            rw [data] at is
            obtain ⟨rfl, rfl⟩ := Prod.mk.inj (Option.some.inj is)
            have count := inv.count i used plain
            have none : (s.pending i).card = 0 := by
              by_contra some'
              exact noRound ⟨state, by omega⟩
            by_contra waiting
            rw [Bool.not_eq_false] at waiting
            have member : j ∈ s.pending i :=
              Finset.mem_filter.mpr ⟨Finset.mem_univ _, id, waiting⟩
            rw [Finset.card_eq_zero.mp none] at member
            exact Finset.notMem_empty _ member
          have closed := inv.close used plain childless noHalfOpen
          rw [data] at closed
          rw [tcpClose_sockArr]
          exact closed

end SockState

end PosFirmware.IpStack
