import PosFirmware.Foundation.Run
import PosFirmware.IpStack.ListenerEvents

/-! # The children of a listening socket

`child_num` of a listening socket counts the sockets that wait for `NetAccept`. The count is
right, within the backlog, and no connection is left without an owner, as long as no
backlog is lowered below the count, no listener is closed with half-open connections, and
no connection takes the slot that `NetSocket` has found (`runSockets_accounted`).
-/

namespace PosFirmware.IpStack

open PosFirmware.Foundation

namespace SockState

variable {s s' : SockState}

/-! ## Ids -/

theorem sockGet_isSome {id : BitVec 32} :
    (s.sockGet id).isSome = true ↔ ∃ i, (s.sockArr i).id = id := by
  simp [sockGet]

theorem freeId_passes (fuel : Nat) (id : BitVec 32) :
    (s.freeId fuel id ≠ 0 ∧ ∀ i, (s.sockArr i).id ≠ s.freeId fuel id) ∨
      ∀ k < fuel, id + BitVec.ofNat 32 k = 0 ∨
        ∃ i, (s.sockArr i).id = id + BitVec.ofNat 32 k := by
  induction fuel generalizing id with
  | zero => exact .inr fun k less => absurd less (Nat.not_lt_zero k)
  | succ fuel past =>
      rw [freeId]
      split
      next taken =>
        refine (past (id + 1)).imp_right fun passes k less => ?_
        cases k with
        | zero =>
            rw [BitVec.ofNat_eq_ofNat, BitVec.add_zero]
            exact taken.imp_right sockGet_isSome.mp
        | succ k =>
            have next : id + BitVec.ofNat 32 (k + 1) = id + 1 + BitVec.ofNat 32 k := by
              rw [Nat.add_comm k 1, BitVec.ofNat_add, BitVec.add_assoc]
              rfl
            rw [next]
            exact passes k (Nat.lt_of_succ_lt_succ less)
      next free =>
        rw [not_or, sockGet_isSome] at free
        exact .inl ⟨free.1, fun i same => free.2 ⟨i, same⟩⟩

theorem freeId_fresh (s : SockState) (id : BitVec 32) :
    s.freeId (MAX_SOCK_COUNT + 2) id ≠ 0 ∧
      ∀ i, (s.sockArr i).id ≠ s.freeId (MAX_SOCK_COUNT + 2) id := by
  refine (freeId_passes (MAX_SOCK_COUNT + 2) id).resolve_right fun passes => ?_
  -- more ids were passed than there are sockets
  let ids : Finset (BitVec 32) :=
    (Finset.range (MAX_SOCK_COUNT + 2)).image fun k => id + BitVec.ofNat 32 k
  have card : ids.card = MAX_SOCK_COUNT + 2 := by
    rw [Finset.card_image_of_injOn, Finset.card_range]
    intro a inside b inside' same
    have bits := congrArg BitVec.toNat ((BitVec.add_right_inj id).mp same)
    rw [Finset.mem_coe, Finset.mem_range] at inside inside'
    have bound : MAX_SOCK_COUNT + 2 < 2 ^ 32 := by decide
    rwa [BitVec.toNat_ofNat, BitVec.toNat_ofNat, Nat.mod_eq_of_lt (by omega),
      Nat.mod_eq_of_lt (by omega)] at bits
  have within : ids ⊆ insert 0 (Finset.univ.image fun i => (s.sockArr i).id) := by
    intro value member
    obtain ⟨k, inside, rfl⟩ := Finset.mem_image.mp member
    rcases passes k (Finset.mem_range.mp inside) with zero | ⟨i, same⟩
    · rw [zero]
      exact Finset.mem_insert_self ..
    · exact Finset.mem_insert_of_mem (Finset.mem_image.mpr ⟨i, Finset.mem_univ i, same⟩)
  have few := (Finset.card_le_card within).trans (Finset.card_insert_le ..)
  have most : (Finset.univ.image fun i => (s.sockArr i).id).card ≤ MAX_SOCK_COUNT :=
    Finset.card_image_le.trans (Finset.card_fin _).le
  omega

/-! ## `NetAccept` -/

/-- The state after a child was taken from its listener. -/
def accepted (s : SockState) (l c : SockIndex) (id : BitVec 32) : SockState :=
  { s with
    sockArr := Function.update
      (Function.update s.sockArr l
        { s.sockArr l with childNum := (s.sockArr l).childNum - 1 })
      c { s.sockArr c with
        flag := (s.sockArr c).flag &&& ~~~SOCK_ACCEPT, waitAccept := false, id := id }
    sockId := id }

/-- A child that is taken from its listener. -/
theorem Inv.accepted (inv : Inv s) {l c : SockIndex} {id' : BitVec 32} (listens : s.Listens l)
    (id : (s.sockArr c).id = (s.sockArr l).id) (waiting : (s.sockArr c).waitAccept = true)
    (notZero : id' ≠ 0) (fresh : ∀ i, (s.sockArr i).id ≠ id') : Inv (s.accepted l c id') := by
  have used : (s.sockArr c).id ≠ 0 := id ▸ listens.id
  have waits := inv.waits c used waiting
  have other : l ≠ c := by
    rintro rfl
    rw [listens.1] at waiting
    cases waiting
  have sock : (s.accepted l c id').sockArr c = { s.sockArr c with
      flag := (s.sockArr c).flag &&& ~~~SOCK_ACCEPT, waitAccept := false, id := id' } :=
    Function.update_self ..
  have socks : ∀ j, j ≠ c → SameSock (s.sockArr j) ((s.accepted l c id').sockArr j) ∧
      ((s.accepted l c id').sockArr j).backlog = (s.sockArr j).backlog := by
    intro j notChild
    by_cases mine : j = l
    · subst mine
      have sock : (s.accepted j c id').sockArr j =
          { s.sockArr j with childNum := (s.sockArr j).childNum - 1 } :=
        (Function.update_of_ne notChild ..).trans (Function.update_self ..)
      rw [sock]
      exact ⟨⟨rfl, rfl, rfl, rfl, rfl⟩, rfl⟩
    · have sock : (s.accepted l c id').sockArr j = s.sockArr j :=
        (Function.update_of_ne notChild ..).trans (Function.update_of_ne mine ..)
      rw [sock]
      exact ⟨.refl _, rfl⟩
  have listener : ((s.accepted l c id').sockArr l).childNum = (s.sockArr l).childNum - 1 := by
    simp [SockState.accepted, other]
  have childNum : ∀ j, j ≠ l →
      ((s.accepted l c id').sockArr j).childNum = (s.sockArr j).childNum := by
    intro j notOwner
    by_cases mine : j = c
    · subst mine
      rw [sock]
    · simp [SockState.accepted, mine, notOwner]
  have ops : ∀ j, ((s.accepted l c id').sockArr j).ops = (s.sockArr j).ops := fun j => by
    by_cases mine : j = c
    · subst mine
      rw [sock]
    · exact (socks j mine).1.ops
  have data : ∀ j, ((s.accepted l c id').sockArr j).data = (s.sockArr j).data := fun j => by
    by_cases mine : j = c
    · subst mine
      rw [sock]
    · exact (socks j mine).1.data
  have holds : ∀ j q held, (s.accepted l c id').Holds j q held ↔ s.Holds j q held :=
    fun j q held =>
      ⟨fun holds => ⟨(data j).symm.trans holds.data, holds.there, holds.arg, holds.known⟩,
        fun holds => ⟨(data j).trans holds.data, holds.there, holds.arg, holds.known⟩⟩
  have inUse : ∀ j, (s.accepted l c id').InUse j ↔ s.InUse j := fun j => by
    by_cases mine : j = c
    · subst mine
      unfold InUse
      rw [sock]
      exact iff_of_true (.inl notZero) (.inl used)
    · unfold InUse
      rw [(socks j mine).1.id]
      rfl
  have listens' : ∀ j, (s.accepted l c id').Listens j ↔ s.Listens j := fun j => by
    by_cases mine : j = c
    · subst mine
      refine iff_of_false (fun is => ?_) (fun is => ?_)
      · obtain ⟨-, q, held, found, state⟩ := is
        obtain ⟨-, tcp, data', there⟩ := tcpData_eq_some.mp found
        obtain ⟨held', holds'⟩ := inv.holds_data (.inl used) waits.ops ((data j).symm.trans data')
        obtain rfl := Option.some.inj (there.symm.trans holds'.there)
        exact (inv.good q held there).notListen (waits.errf q held holds') state
      · rw [is.1] at waiting
        cases waiting
    · exact listens_of_same (socks j mine).1 fun _ _ => rfl
  have waitsOther : ∀ {j}, ((s.accepted l c id').sockArr j).waitAccept = true → j ≠ c := by
    rintro j waits rfl
    rw [sock] at waits
    cases waits
  have idFresh : ∀ {j}, ((s.accepted l c id').sockArr j).id = id' → j = c := by
    intro j same
    by_contra mine
    rw [(socks j mine).1.id] at same
    exact fresh j same
  refine ⟨fun i j used' same plain plain' => ?_, fun j used' tcp => ?_, fun q held there is => ?_,
    fun q held there => ?_, fun j used' waits' => ?_, fun j used' plain => ?_, fun j is => ?_,
    fun j used' plain => ?_, fun k ops is => ?_, fun k is => ?_⟩
  · by_cases mine : i = c
    · subst mine
      rw [sock] at same
      exact (idFresh same.symm).symm
    · by_cases mine' : j = c
      · subst mine'
        rw [sock] at same
        exact absurd (idFresh same) mine
      · rw [(socks i mine).1.id] at used' same
        rw [(socks j mine').1.id] at same
        rw [(socks i mine).1.waitAccept] at plain
        rw [(socks j mine').1.waitAccept] at plain'
        exact inv.unique i j used' same plain plain'
  · rw [ops] at tcp
    obtain ⟨q, held, is⟩ := inv.holds j ((inUse j).mp used') tcp
    exact ⟨q, held, (holds j q held).mpr is⟩
  · obtain ⟨j, used', tcp, is'⟩ := inv.held q held there is
    exact ⟨j, (inUse j).mpr used', (ops j).trans tcp, (holds j q held).mpr is'⟩
  · have good := inv.good q held there
    refine ⟨good.errf, good.accept, fun half => ?_⟩
    obtain ⟨l', arg, is⟩ := good.halfOpen half
    exact ⟨l', arg, (listens' l').mpr is⟩
  · have mine := waitsOther waits'
    rw [(socks j mine).1.id] at used'
    rw [(socks j mine).1.waitAccept] at waits'
    have was := inv.waits j used' waits'
    obtain ⟨l', is, id⟩ := was.owned
    have notChild : l' ≠ c := by
      rintro rfl
      rw [is.1] at waiting
      cases waiting
    have notOwner : j ≠ l := by
      rintro rfl
      rw [listens.1] at waits'
      cases waits'
    exact ⟨(ops j).trans was.ops, by rw [(socks j mine).1.flag]; exact was.flag,
      (childNum j notOwner).trans was.childNum,
      fun q held is => was.errf q held ((holds j q held).mp is), l', (listens' l').mpr is,
      by rw [(socks l' notChild).1.id, (socks j mine).1.id, id]⟩
  · by_cases mine : j = c
    · subst mine
      have none : (s.accepted l j id').pending j = ∅ := by
        refine Finset.eq_empty_of_forall_notMem fun i member => ?_
        obtain ⟨-, same, waits'⟩ := Finset.mem_filter.mp member
        rw [sock] at same
        exact waitsOther waits' (idFresh same)
      rw [none, childNum j other.symm, waits.childNum]
      rfl
    · have less : (s.accepted l c id').pending j = (s.pending j).erase c := by
        ext i
        simp only [pending, Finset.mem_erase, Finset.mem_filter, Finset.mem_univ, true_and]
        by_cases child : i = c
        · subst child
          exact iff_of_false (fun is => waitsOther is.2 rfl) (fun is => is.1 rfl)
        · rw [(socks i child).1.id, (socks i child).1.waitAccept, (socks j mine).1.id]
          exact ⟨fun is => ⟨child, is⟩, fun is => is.2⟩
      rw [(socks j mine).1.id] at used'
      rw [(socks j mine).1.waitAccept] at plain
      have count := inv.count j used' plain
      by_cases owner : j = l
      · subst owner
        have member : c ∈ s.pending j :=
          Finset.mem_filter.mpr ⟨Finset.mem_univ _, id, waiting⟩
        have some' := Finset.card_pos.mpr ⟨c, member⟩
        rw [listener, less, Finset.card_erase_of_mem member]
        omega
      · have notIn : c ∉ s.pending j := fun member => by
          have same := (Finset.mem_filter.mp member).2.1
          exact owner (inv.unique j l used' (same.symm.trans id) plain listens.1)
        rw [childNum j owner, less, Finset.erase_eq_of_notMem notIn, count]
  · have was := (listens' j).mp is
    have mine : j ≠ c := by
      rintro rfl
      rw [was.1] at waiting
      cases waiting
    rw [(socks j mine).2]
    have bound := inv.bound j was
    by_cases owner : j = l
    · subst owner
      omega
    · rw [childNum j owner]
      exact bound
  · by_cases mine : j = c
    · subst mine
      rw [sock]
      have bits : ∀ flag : BitVec 32, flag &&& ~~~SOCK_ACCEPT &&& SOCK_ACCEPT = 0 :=
        fun flag => by
          rw [BitVec.and_assoc, show ~~~SOCK_ACCEPT &&& SOCK_ACCEPT = 0 by decide]
          exact BitVec.and_zero
      exact bits _
    · rw [(socks j mine).1.waitAccept] at plain
      rw [(socks j mine).1.flag]
      exact inv.flag j ((inUse j).mp used') plain
  · have free := inv.found k ops is
    have mine : k ≠ c := by
      rintro rfl
      exact used free
    rw [(socks k mine).1.id]
    exact free
  · obtain ⟨free, plain, none, errf⟩ := inv.created k is
    have mine : k ≠ c := by
      rintro rfl
      exact used free
    have notOwner : k ≠ l := by
      rintro rfl
      exact listens.id free
    exact ⟨(socks k mine).1.id.trans free, (socks k mine).1.waitAccept.trans plain,
      (childNum k notOwner).trans none, fun q held is => errf q held ((holds k q held).mp is)⟩

/-- `NetAccept`. -/
theorem Inv.inetTcpAccept (inv : Inv s) (i : SockIndex) : Inv (s.inetTcpAccept i) := by
  unfold SockState.inetTcpAccept
  split
  next => exact inv
  next p pcb data =>
    split
    next may =>
      split
      next => exact inv
      next c found =>
        obtain ⟨used, tcp, data', there⟩ := tcpData_eq_some.mp data
        have plain : (s.sockArr i).waitAccept = false := by
          by_contra waits
          rw [Bool.not_eq_false] at waits
          have none := (inv.waits i used waits).childNum
          omega
        have listens : s.Listens i := ⟨plain, p, pcb, data, may.1⟩
        have child := List.find?_some found
        rw [decide_eq_true_iff] at child
        obtain ⟨id, waiting⟩ := child
        have other : i ≠ c := by
          rintro rfl
          rw [plain] at waiting
          cases waiting
        have usedChild : (s.sockArr c).id ≠ 0 := id ▸ used
        have waits := inv.waits c usedChild waiting
        obtain ⟨q, held, holds⟩ := inv.holds c (.inl usedChild) waits.ops
        -- the ids of the sockets are those of the state before
        have sockGet : ∀ t : SockState, (∀ j, (t.sockArr j).id = (s.sockArr j).id) →
            ∀ fuel id, t.freeId fuel id = s.freeId fuel id := by
          intro t same fuel
          have get : ∀ id, t.sockGet id = s.sockGet id := fun id => by
            unfold SockState.sockGet
            simp only [same]
          induction fuel with
          | zero => exact fun _ => rfl
          | succ fuel past =>
              intro id
              rw [freeId, freeId, get, past]
        obtain ⟨notZero, fresh⟩ := freeId_fresh s s.sockId
        generalize taken : s.freeId (MAX_SOCK_COUNT + 2) s.sockId = id' at notZero fresh
        have after := inv.accepted listens id waiting notZero fresh
        have sock : (s.accepted i c id').sockArr c = { s.sockArr c with
            flag := (s.sockArr c).flag &&& ~~~SOCK_ACCEPT, waitAccept := false, id := id' } :=
          Function.update_self ..
        have state : ((((s.setSock c { s.sockArr c with
            flag := (s.sockArr c).flag &&& ~~~SOCK_ACCEPT }).setSock i { s.sockArr i with
              childNum := (s.sockArr i).childNum - 1 }).setSock c { s.sockArr c with
                flag := (s.sockArr c).flag &&& ~~~SOCK_ACCEPT, waitAccept := false }).sockSetId
                  c) = s.accepted i c id' := by
          unfold SockState.sockSetId
          rw [sockGet _ fun j => ?_]
          · rw [show ((((s.setSock c _).setSock i _).setSock c _ : SockState)).sockId = s.sockId
              from rfl, taken]
            unfold SockState.accepted SockState.setSock
            simp only [Function.update_self, Function.update_idem, SockState.mk.injEq, and_true]
            rw [Function.update_comm other.symm, Function.update_idem]
          · by_cases mine : j = c
            · subst mine
              simp
            · by_cases owner : j = i
              · subst owner
                simp [mine]
              · simp [mine, owner]
        simp only [setSock_sockArr, Function.update_self, Function.update_of_ne other,
          Function.update_of_ne other.symm]
        rw [state, sock]
        dsimp only
        rw [holds.data]
        dsimp only
        split
        next => exact after
        next closed =>
          have data'' : (s.accepted i c id').tcpData c = some (q, held) :=
            tcpData_eq_some.mpr ⟨by rw [sock]; exact notZero, by rw [sock]; exact waits.ops,
              by rw [sock]; exact holds.data, holds.there⟩
          have notListens : ¬ (s.accepted i c id').Listens c := by
            rintro ⟨-, q', held', is, state⟩
            rw [data''] at is
            obtain ⟨rfl, rfl⟩ := Prod.mk.inj (Option.some.inj is)
            exact (inv.good q held holds.there).notListen (waits.errf q held holds) state
          have close := after.close (by rw [sock]; exact notZero) (by rw [sock])
            (fun is => absurd is notListens) (fun is => absurd is notListens)
          rw [data''] at close
          dsimp only at close
          rw [tcpClose_sockArr, sock] at *
          exact close
    next => exact inv

/-! ## `NetListen` -/

theorem listen_flag (flag : BitVec 32) :
    (flag ||| SOCK_LISTEN) &&& SOCK_ACCEPT = flag &&& SOCK_ACCEPT := by
  rw [BitVec.and_comm, BitVec.and_or_distrib_left,
    show SOCK_ACCEPT &&& SOCK_LISTEN = 0 by decide, BitVec.and_comm]
  exact BitVec.or_zero

theorem Inv.listenAgain (inv : Inv s) {i : SockIndex} {p : PcbIndex} {pcb : SockPcb}
    (data : s.tcpData i = some (p, pcb)) (state : pcb.state = .listen) {backlog : Int}
    (room : (s.sockArr i).childNum ≤ backlog) :
    Inv ((s.setPcb p (some { pcb with accept := true })).setSock i { s.sockArr i with
      backlog := backlog, flag := (s.sockArr i).flag ||| SOCK_LISTEN }) := by
  have there := (tcpData_eq_some.mp data).2.2.2
  have notErrf : pcb.errf ≠ true := fun errf => (inv.good p pcb there).notListen errf state
  have after : Inv (s.setPcb p (some { pcb with accept := true })) := by
    refine inv.setPcb ?_ fun pcb' is => ?_
    · rw [there]
      rfl
    · obtain rfl := Option.some.inj is
      exact ⟨fun errf => absurd errf notErrf, fun _ => rfl,
        fun half => absurd (state.symm.trans half) (by decide)⟩
  have same : known (some { pcb with accept := true }) = known (s.pcbs p) := by
    rw [there]
    rfl
  generalize written : (s.setPcb p (some { pcb with accept := true })).setSock i { s.sockArr i with
    backlog := backlog, flag := (s.sockArr i).flag ||| SOCK_LISTEN } = t
  have socks : ∀ j, SameSock (s.sockArr j) (t.sockArr j) ∧
      (t.sockArr j).childNum = (s.sockArr j).childNum ∧
      (t.sockArr j).backlog = if j = i then backlog else (s.sockArr j).backlog := by
    intro j
    rw [← written, setSock_sockArr]
    by_cases mine : j = i
    · subst mine
      rw [Function.update_self, if_pos rfl]
      exact ⟨⟨rfl, rfl, listen_flag _, rfl, rfl⟩, rfl, rfl⟩
    · rw [Function.update_of_ne mine, if_neg mine]
      exact ⟨.refl _, rfl, rfl⟩
  refine after.of_same (fun j => (socks j).1) (fun j => (socks j).2.1) (fun l is => ?_)
    (by rw [← written]; rfl) (by rw [← written]; rfl)
  rw [(socks l).2.2]
  split
  next mine =>
    rw [mine]
    exact room
  next => exact inv.bound l ((listens_setPcb same l).mp is)

/-- `NetListen` on a socket that does not listen. -/
theorem Inv.listenFirst (inv : Inv s) {i : SockIndex} {p lpcb : PcbIndex} {pcb : SockPcb}
    (data : s.tcpData i = some (p, pcb)) (notListen : pcb.state ≠ .listen)
    (plain : (s.sockArr i).waitAccept = false) (free : s.pcbs lpcb = none) {backlog : Int}
    (some' : 0 < backlog) (port : BitVec 16) :
    Inv (((s.setPcb lpcb (some ⟨.listen, pcb.callbackArg, port, NET_OK, true, false⟩)).setPcb
      p none).setSock i { s.sockArr i with
        backlog := backlog, data := some lpcb, flag := (s.sockArr i).flag ||| SOCK_LISTEN }) := by
  obtain ⟨used, tcp, data', there⟩ := tcpData_eq_some.mp data
  obtain ⟨held, mine⟩ := inv.holds_data (.inl used) tcp data'
  obtain rfl := Option.some.inj (there.symm.trans mine.there)
  have away : lpcb ≠ p := by
    rintro rfl
    rw [free] at there
    cases there
  have notListens : ¬ s.Listens i := by
    rintro ⟨-, q, held, is, listens⟩
    rw [data] at is
    obtain ⟨rfl, rfl⟩ := Prod.mk.inj (Option.some.inj is)
    exact notListen listens
  generalize written : ((s.setPcb lpcb (some ⟨.listen, pcb.callbackArg, port, NET_OK, true,
    false⟩)).setPcb p none).setSock i { s.sockArr i with
      backlog := backlog, data := some lpcb, flag := (s.sockArr i).flag ||| SOCK_LISTEN } = t
  have sock : t.sockArr i = { s.sockArr i with
      backlog := backlog, data := some lpcb, flag := (s.sockArr i).flag ||| SOCK_LISTEN } := by
    rw [← written]
    exact Function.update_self ..
  have socks : ∀ j, j ≠ i → t.sockArr j = s.sockArr j := fun j other => by
    rw [← written]
    exact Function.update_of_ne other ..
  have ids : ∀ j, (t.sockArr j).id = (s.sockArr j).id ∧
      (t.sockArr j).waitAccept = (s.sockArr j).waitAccept ∧
      (t.sockArr j).childNum = (s.sockArr j).childNum ∧
      (t.sockArr j).ops = (s.sockArr j).ops ∧
      (t.sockArr j).flag &&& SOCK_ACCEPT = (s.sockArr j).flag &&& SOCK_ACCEPT := by
    intro j
    by_cases other : j = i
    · rw [other, sock]
      exact ⟨rfl, rfl, rfl, rfl, listen_flag _⟩
    · rw [socks j other]
      exact ⟨rfl, rfl, rfl, rfl, rfl⟩
  have call : t.call = s.call := by rw [← written]; rfl
  have listener : t.pcbs lpcb = some ⟨.listen, pcb.callbackArg, port, NET_OK, true, false⟩ := by
    rw [← written]
    simp [away]
  have freed : t.pcbs p = none := by
    rw [← written]
    simp
  have pcbs : ∀ q, q ≠ p → q ≠ lpcb → t.pcbs q = s.pcbs q := by
    intro q notOld notNew
    rw [← written]
    simp [notOld, notNew]
  have newHolds : t.Holds i lpcb ⟨.listen, pcb.callbackArg, port, NET_OK, true, false⟩ :=
    ⟨by rw [sock], listener, mine.arg, .inr rfl⟩
  have inUse : ∀ j, t.InUse j ↔ s.InUse j := fun j => by
    unfold InUse
    rw [(ids j).1, call]
  have keeps : ∀ j, j ≠ i → ∀ q held, s.Holds j q held → t.Holds j q held := by
    intro j other q held holds
    have notOld : q ≠ p := by
      rintro rfl
      exact other (holds.unique mine)
    have notNew : q ≠ lpcb := by
      rintro rfl
      rw [holds.there] at free
      cases free
    exact ⟨by rw [socks j other, holds.data], (pcbs q notOld notNew).trans holds.there, holds.arg,
      holds.known⟩
  have back : ∀ j, j ≠ i → ∀ q held, t.Holds j q held → s.Holds j q held := by
    intro j other q held holds
    have notOld : q ≠ p := by
      rintro rfl
      rw [holds.there] at freed
      cases freed
    have notNew : q ≠ lpcb := by
      rintro rfl
      exact other (holds.unique newHolds)
    exact ⟨by rw [← socks j other, holds.data], (pcbs q notOld notNew).symm.trans holds.there,
      holds.arg, holds.known⟩
  have listens : ∀ j, j ≠ i → (t.Listens j ↔ s.Listens j) := by
    intro j other
    constructor
    · rintro ⟨plain', q, held, found, is⟩
      obtain ⟨used', tcp', data'', there'⟩ := tcpData_eq_some.mp found
      rw [socks j other] at used' tcp' data'' plain'
      refine ⟨plain', q, held, tcpData_eq_some.mpr ⟨used', tcp', data'', ?_⟩, is⟩
      obtain ⟨held', holds⟩ := inv.holds_data (.inl used') tcp' data''
      have there'' := (keeps j other q held' holds).there
      rw [← Option.some.inj (there'.symm.trans there'')] at holds
      exact holds.there
    · rintro ⟨plain', q, held, found, is⟩
      obtain ⟨used', tcp', data'', there'⟩ := tcpData_eq_some.mp found
      obtain ⟨held', holds⟩ := inv.holds_data (.inl used') tcp' data''
      have there'' := (keeps j other q held' holds).there
      rw [Option.some.inj (holds.there.symm.trans there')] at there''
      refine ⟨by rw [socks j other, plain'], q, held, tcpData_eq_some.mpr ?_, is⟩
      rw [socks j other]
      exact ⟨used', tcp', data'', there''⟩
  have owners : ∀ l, s.Listens l → l ≠ i ∧ t.Listens l := by
    intro l is
    have other : l ≠ i := by
      rintro rfl
      exact notListens is
    exact ⟨other, (listens l other).mpr is⟩
  have pending : ∀ j, t.pending j = s.pending j := fun j =>
    Finset.filter_congr fun k _ => by rw [(ids k).1, (ids k).2.1, (ids j).1]
  refine ⟨fun j k => ?_, fun j used' tcp' => ?_, fun q held there' is => ?_,
    fun q held there' => ?_, fun j used' waiting => ?_, fun j used' plain' => ?_, fun l is => ?_,
    fun j used' plain' => ?_, fun k ops is => ?_, fun k is => ?_⟩
  · rw [(ids j).1, (ids k).1, (ids j).2.1, (ids k).2.1]
    exact inv.unique j k
  · by_cases other : j = i
    · rw [other]
      exact ⟨lpcb, _, newHolds⟩
    · rw [(ids j).2.2.2.1] at tcp'
      obtain ⟨q, held, holds⟩ := inv.holds j ((inUse j).mp used') tcp'
      exact ⟨q, held, keeps j other q held holds⟩
  · have notOld : q ≠ p := by
      rintro rfl
      rw [there'] at freed
      cases freed
    by_cases new : q = lpcb
    · subst new
      obtain rfl := Option.some.inj (listener.symm.trans there')
      exact ⟨i, (inUse i).mpr (.inl used), (ids i).2.2.2.1.trans tcp, newHolds⟩
    · obtain ⟨j, used', tcp', holds⟩ := inv.held q held ((pcbs q notOld new).symm.trans there') is
      have other : j ≠ i := by
        rintro rfl
        exact notOld (Option.some.inj (holds.data.symm.trans data'))
      exact ⟨j, (inUse j).mpr used', (ids j).2.2.2.1.trans tcp', keeps j other q held holds⟩
  · by_cases new : q = lpcb
    · subst new
      obtain rfl := Option.some.inj (listener.symm.trans there')
      exact ⟨fun errf => absurd errf Bool.false_ne_true, fun _ => rfl,
        fun half => absurd half (fun is => by cases is)⟩
    · have notOld : q ≠ p := by
        rintro rfl
        rw [there'] at freed
        cases freed
      have good := inv.good q held ((pcbs q notOld new).symm.trans there')
      refine ⟨good.errf, good.accept, fun half => ?_⟩
      obtain ⟨l, arg, is⟩ := good.halfOpen half
      exact ⟨l, arg, (owners l is).2⟩
  · rw [(ids j).1] at used'
    rw [(ids j).2.1] at waiting
    have waits := inv.waits j used' waiting
    obtain ⟨l, is, id⟩ := waits.owned
    have other : j ≠ i := by
      rintro rfl
      rw [plain] at waiting
      cases waiting
    exact ⟨(ids j).2.2.2.1.trans waits.ops, by rw [(ids j).2.2.2.2]; exact waits.flag,
      (ids j).2.2.1.trans waits.childNum,
      fun q held holds => waits.errf q held (back j other q held holds), l, (owners l is).2,
      by rw [(ids l).1, (ids j).1, id]⟩
  · rw [(ids j).1] at used'
    rw [(ids j).2.1] at plain'
    rw [(ids j).2.2.1, pending]
    exact inv.count j used' plain'
  · rw [(ids l).2.2.1]
    by_cases other : l = i
    · subst other
      have none : s.pending l = ∅ := by
        refine Finset.eq_empty_of_forall_notMem fun k member => ?_
        obtain ⟨-, id, waiting⟩ := Finset.mem_filter.mp member
        obtain ⟨l', is', id'⟩ := (inv.waits k (id ▸ used) waiting).owned
        have same := inv.unique l' l is'.id (id'.trans id) is'.1 plain
        exact notListens (same ▸ is')
      rw [sock, inv.count l used plain, none]
      exact some'.le
    · rw [socks l other]
      exact inv.bound l ((listens l other).mp is)
  · rw [(ids j).2.1] at plain'
    rw [(ids j).2.2.2.2]
    exact inv.flag j ((inUse j).mp used') plain'
  · rw [call] at is
    rw [(ids k).1]
    exact inv.found k ops is
  · rw [call] at is
    obtain ⟨free', plain', none, errf⟩ := inv.created k is
    have other : k ≠ i := by
      rintro rfl
      exact used free'
    exact ⟨(ids k).1.trans free', (ids k).2.1.trans plain', (ids k).2.2.1.trans none,
      fun q held holds => errf q held (back k other q held holds)⟩

/-! ## `NetSocket` -/

/-- A slot that nobody uses is written by `NetSocket`, with or without a control block. -/
theorem Inv.cleared (inv : Inv s) {k : SockIndex} {sk : Sock} {pcbs : PcbIndex → Option SockPcb}
    {call : SocketCall} (free : (s.sockArr k).id = 0) (notCreated : ∀ j, s.call ≠ .created j)
    (zero : sk.id = 0) (plain : sk.waitAccept = false) (none' : sk.childNum = 0)
    (flag : sk.flag &&& SOCK_ACCEPT = 0) (call' : call = .idle ∨ call = .created k)
    (pcbs' : ∀ q, pcbs q = s.pcbs q ∨ s.pcbs q = none ∧ call = .created k ∧ sk.ops = .tcp ∧
      sk.data = some q ∧ ∃ port, pcbs q = some ⟨.closed, some k, port, NET_OK, false, true⟩)
    (held' : call = .created k → sk.ops = .tcp → ∃ q port, sk.data = some q ∧
      pcbs q = some ⟨.closed, some k, port, NET_OK, false, true⟩) :
    Inv { s with sockArr := Function.update s.sockArr k sk, pcbs := pcbs, call := call } := by
  generalize written : ({ s with
    sockArr := Function.update s.sockArr k sk, pcbs := pcbs, call := call } : SockState) = t
  have sock : t.sockArr k = sk := by
    rw [← written]
    exact Function.update_self ..
  have socks : ∀ j, j ≠ k → t.sockArr j = s.sockArr j := fun j other => by
    rw [← written]
    exact Function.update_of_ne other ..
  have samePcbs : t.pcbs = pcbs := by rw [← written]
  have sameCall : t.call = call := by rw [← written]
  have ids : ∀ j, (t.sockArr j).id = (s.sockArr j).id := fun j => by
    by_cases other : j = k
    · rw [other, sock, zero, free]
    · rw [socks j other]
  have usedOther : ∀ {j}, (s.sockArr j).id ≠ 0 → j ≠ k := by
    rintro j used rfl
    exact used free
  have keeps : ∀ {j q held}, s.Holds j q held → t.pcbs q = some held := by
    intro j q held holds
    rw [samePcbs]
    rcases pcbs' q with same | ⟨none, -⟩
    · exact same.trans holds.there
    · rw [holds.there] at none
      cases none
  have oldUsed : ∀ j, s.InUse j → (s.sockArr j).id ≠ 0 := fun j used =>
    used.resolve_right (notCreated j)
  have newUsed : ∀ j, t.InUse j → (s.sockArr j).id ≠ 0 ∨ call = .created k ∧ j = k := by
    rintro j (used | is)
    · exact .inl (ids j ▸ used)
    · rw [sameCall] at is
      rcases call' with idle | created
      · rw [idle] at is
        cases is
      · rw [created] at is
        exact .inr ⟨created, (SocketCall.created.inj is).symm⟩
  have holds : ∀ j, j ≠ k → ∀ q held, s.Holds j q held → t.Holds j q held :=
    fun j other q held holds =>
      ⟨by rw [socks j other, holds.data], keeps holds, holds.arg, holds.known⟩
  have mine : ∀ q, t.pcbs q ≠ s.pcbs q → call = .created k ∧ sk.ops = .tcp ∧ sk.data = some q ∧
      ∃ port, t.pcbs q = some ⟨.closed, some k, port, NET_OK, false, true⟩ := by
    intro q changed
    rw [samePcbs] at changed ⊢
    rcases pcbs' q with same | ⟨-, created, tcp, data, is⟩
    · exact absurd same changed
    · exact ⟨created, tcp, data, is⟩
  have back : ∀ j, j ≠ k → ∀ q held, t.Holds j q held → s.Holds j q held := by
    intro j other q held holds
    have same : t.pcbs q = s.pcbs q := by
      by_contra changed
      obtain ⟨-, -, -, port, is⟩ := mine q changed
      rw [holds.there] at is
      have arg := holds.arg
      rw [Option.some.inj is] at arg
      exact other (Option.some.inj arg).symm
    exact ⟨by rw [← socks j other, holds.data], same.symm.trans holds.there, holds.arg, holds.known⟩
  have listens : ∀ j, t.Listens j ↔ s.Listens j := by
    intro j
    constructor
    · intro is
      have used : (s.sockArr j).id ≠ 0 := ids j ▸ is.id
      have other := usedOther used
      obtain ⟨plain', q, held, found, state⟩ := is
      obtain ⟨-, tcp, data, there⟩ := tcpData_eq_some.mp found
      rw [socks j other] at plain' tcp data
      obtain ⟨held', holds'⟩ := inv.holds_data (.inl used) tcp data
      obtain rfl := Option.some.inj (there.symm.trans (keeps holds'))
      exact ⟨plain', q, held, tcpData_eq_some.mpr ⟨used, tcp, data, holds'.there⟩, state⟩
    · intro is
      have other := usedOther is.id
      obtain ⟨plain', q, held, found, state⟩ := is
      obtain ⟨used, tcp, data, there⟩ := tcpData_eq_some.mp found
      obtain ⟨held', holds'⟩ := inv.holds_data (.inl used) tcp data
      obtain rfl := Option.some.inj (there.symm.trans holds'.there)
      refine ⟨by rw [socks j other, plain'], q, held, tcpData_eq_some.mpr ?_, state⟩
      rw [socks j other]
      exact ⟨used, tcp, data, keeps holds'⟩
  have pending : ∀ j, (s.sockArr j).id ≠ 0 → t.pending j = s.pending j := fun j used =>
    Finset.ext fun i => by
      by_cases other : i = k
      · have notThis : ∀ u : SockState, (u.sockArr k).id = 0 → (u.sockArr j).id ≠ 0 →
            k ∉ u.pending j := fun u zero used member => by
          have same := (Finset.mem_filter.mp member).2.1
          exact used (same.symm.trans zero)
        rw [other]
        exact iff_of_false (notThis t (by rw [sock, zero]) (by rwa [ids])) (notThis s free used)
      · simp only [SockState.pending, Finset.mem_filter, Finset.mem_univ, true_and, ids,
          socks i other]
  refine ⟨fun i j used same plain' plain'' => ?_, fun j used tcp => ?_, fun q held there is => ?_,
    fun q held there => ?_, fun j used waiting => ?_, fun j used plain' => ?_, fun l is => ?_,
    fun j used plain' => ?_, fun k' ops is => ?_, fun k' is => ?_⟩
  · rw [ids] at used
    rw [ids, ids] at same
    rw [socks i (usedOther used)] at plain'
    rw [socks j (usedOther (same ▸ used))] at plain''
    exact inv.unique i j used same plain' plain''
  · rcases newUsed j used with used | ⟨created, rfl⟩
    · have other := usedOther used
      rw [socks j other] at tcp
      obtain ⟨q, held, is⟩ := inv.holds j (.inl used) tcp
      exact ⟨q, held, holds j other q held is⟩
    · rw [sock] at tcp
      obtain ⟨q, port, data, there⟩ := held' created tcp
      exact ⟨q, _, by rw [sock, data], samePcbs ▸ there, rfl, .inl rfl⟩
  · by_cases changed : t.pcbs q = s.pcbs q
    · obtain ⟨j, used, tcp, is'⟩ := inv.held q held (changed ▸ there) is
      have used' := oldUsed j used
      have other := usedOther used'
      exact ⟨j, .inl (by rwa [ids]), by rw [socks j other, tcp], holds j other q held is'⟩
    · obtain ⟨created, tcp, data, port, is'⟩ := mine q changed
      obtain rfl := Option.some.inj (is'.symm.trans there)
      exact ⟨k, .inr (sameCall.trans created), by rw [sock, tcp],
        by rw [sock, data], there, rfl, .inl rfl⟩
  · by_cases changed : t.pcbs q = s.pcbs q
    · have good := inv.good q held (changed ▸ there)
      refine ⟨good.errf, good.accept, fun half => ?_⟩
      obtain ⟨l, arg, is⟩ := good.halfOpen half
      exact ⟨l, arg, (listens l).mpr is⟩
    · obtain ⟨-, -, -, port, is'⟩ := mine q changed
      obtain rfl := Option.some.inj (is'.symm.trans there)
      exact ⟨fun _ => rfl, fun is => is.elim (fun is => by cases is) (fun is => by cases is),
        fun is => by cases is⟩
  · rw [ids] at used
    have other := usedOther used
    rw [socks j other] at waiting
    have waits := inv.waits j used waiting
    obtain ⟨l, is, id⟩ := waits.owned
    exact ⟨by rw [socks j other, waits.ops], by rw [socks j other]; exact waits.flag,
      by rw [socks j other, waits.childNum],
      fun q held is => waits.errf q held (back j other q held is), l, (listens l).mpr is,
      by rw [ids, ids, id]⟩
  · rw [ids] at used
    have other := usedOther used
    rw [socks j other] at plain' ⊢
    rw [pending j used]
    exact inv.count j used plain'
  · have was := (listens l).mp is
    rw [socks l (usedOther was.id)]
    exact inv.bound l was
  · rcases newUsed j used with used | ⟨-, rfl⟩
    · rw [socks j (usedOther used)] at plain' ⊢
      exact inv.flag j (.inl used) plain'
    · rw [sock]
      exact flag
  · rw [sameCall] at is
    rcases call' with idle | created
    · rw [idle] at is
      cases is
    · rw [created] at is
      cases is
  · rcases newUsed k' (.inr is) with used | ⟨-, rfl⟩
    · rw [sameCall] at is
      rcases call' with idle | created
      · rw [idle] at is
        cases is
      · rw [created] at is
        exact absurd (SocketCall.created.inj is).symm (usedOther used)
    · refine ⟨by rw [sock, zero], by rw [sock, plain], by rw [sock, none'], fun q held is' => ?_⟩
      by_contra notErrf
      have changed : t.pcbs q = s.pcbs q := by
        by_contra changed
        obtain ⟨-, -, -, port, new⟩ := mine q changed
        rw [← Option.some.inj (new.symm.trans is'.there)] at notErrf
        exact notErrf rfl
      obtain ⟨j, used, -, old⟩ := inv.held q held (changed ▸ is'.there) is'.known
      have same := Option.some.inj (old.arg.symm.trans is'.arg)
      exact usedOther (oldUsed j used) same

theorem Inv.netSocketCreate (inv : Inv s) {k : SockIndex} {ops : SockOps}
    (found : s.call = .found k ops) (pcb : Option PcbIndex) :
    Inv (s.netSocketCreate k ops pcb) := by
  have free := inv.found k ops found
  have notCreated : ∀ j, s.call ≠ .created j := fun j is => by
    rw [found] at is
    cases is
  have noFlag : Sock.zero.flag &&& SOCK_ACCEPT = 0 := by decide
  have idle : Inv { s with
      sockArr := Function.update s.sockArr k { Sock.zero with ops := ops }, call := .idle } :=
    inv.cleared free notCreated rfl rfl rfl noFlag (.inl rfl) (fun q => .inl rfl)
      (fun is => by cases is)
  unfold SockState.netSocketCreate
  split
  next p =>
    split
    next none =>
      have same : ∀ sk sk' : Sock, Function.update (Function.update s.sockArr k sk) k sk' =
          Function.update s.sockArr k sk' := fun sk sk' => Function.update_idem ..
      have after : Inv { s with
          sockArr := Function.update s.sockArr k { Sock.zero with ops := .tcp, data := some p },
          pcbs := Function.update s.pcbs p (some ⟨.closed, some k, 0, NET_OK, false, true⟩),
          call := .created k } :=
        inv.cleared free notCreated rfl rfl rfl noFlag (.inr rfl)
          (fun q => by
            by_cases mine : q = p
            · subst mine
              exact .inr ⟨none, rfl, rfl, rfl, 0, Function.update_self ..⟩
            · exact .inl (Function.update_of_ne mine ..))
          (fun _ _ => ⟨p, 0, rfl, Function.update_self ..⟩)
      unfold SockState.setPcb SockState.setSock
      dsimp only
      rw [same]
      exact after
    next => exact idle
  next =>
    exact inv.cleared free notCreated rfl rfl rfl noFlag (.inr rfl) (fun q => .inl rfl)
      (fun _ is => by cases is)
  next => exact idle

theorem Inv.netSocketFind (inv : Inv s) (idle : s.call = .idle) (ops : SockOps) :
    Inv (s.netSocketFind ops) := by
  unfold SockState.netSocketFind
  split
  next k found =>
    have notCreated : ∀ j, s.call ≠ .created j := fun j is => by
      rw [idle] at is
      cases is
    have same : ∀ j, ({ s with call := .found k ops } : SockState).InUse j ↔ s.InUse j := fun j =>
      or_congr_right (iff_of_false (fun is => by cases is) (notCreated j))
    have holds : ∀ {j p pcb}, s.Holds j p pcb →
        ({ s with call := .found k ops } : SockState).Holds j p pcb :=
      fun holds => ⟨holds.data, holds.there, holds.arg, holds.known⟩
    have back : ∀ {j p pcb}, ({ s with call := .found k ops } : SockState).Holds j p pcb →
        s.Holds j p pcb :=
      fun holds => ⟨holds.data, holds.there, holds.arg, holds.known⟩
    refine ⟨inv.unique, fun j used tcp => ?_, fun p pcb there is => ?_, fun p pcb there => ?_,
      fun j used waiting => ?_, inv.count, inv.bound, fun j used => inv.flag j ((same j).mp used),
      fun k' ops' is => ?_, fun k' is => by cases is⟩
    · obtain ⟨p, pcb, is⟩ := inv.holds j ((same j).mp used) tcp
      exact ⟨p, pcb, holds is⟩
    · obtain ⟨j, used, tcp, is'⟩ := inv.held p pcb there is
      exact ⟨j, (same j).mpr used, tcp, holds is'⟩
    · have good := inv.good p pcb there
      exact ⟨good.errf, good.accept, good.halfOpen⟩
    · have waits := inv.waits j used waiting
      exact ⟨waits.ops, waits.flag, waits.childNum, fun p pcb is => waits.errf p pcb (back is),
        waits.owned⟩
    · obtain ⟨rfl, -⟩ := SocketCall.found.inj is
      exact sockGet_eq_some found
  next => exact inv

/-- `NetSocket` returns the slot under a new id. -/
theorem Inv.netSocketSetId (inv : Inv s) {k : SockIndex} (created : s.call = .created k) :
    Inv (s.netSocketSetId k) := by
  obtain ⟨free, plain, none', errf⟩ := inv.created k created
  obtain ⟨notZero, fresh⟩ := freeId_fresh s s.sockId
  unfold SockState.netSocketSetId SockState.sockSetId
  dsimp only
  generalize s.freeId (MAX_SOCK_COUNT + 2) s.sockId = id at notZero fresh ⊢
  generalize written : ({ s.setSock k { s.sockArr k with id := id } with
    sockId := id, call := SocketCall.idle } : SockState) = t
  have sock : t.sockArr k = { s.sockArr k with id := id } := by
    rw [← written]
    exact Function.update_self ..
  have socks : ∀ j, j ≠ k → t.sockArr j = s.sockArr j := fun j other => by
    rw [← written]
    exact Function.update_of_ne other ..
  have pcbs : t.pcbs = s.pcbs := by rw [← written]; rfl
  have call : t.call = .idle := by rw [← written]
  have used : ∀ j, t.InUse j ↔ s.InUse j := by
    intro j
    by_cases mine : j = k
    · rw [mine]
      exact iff_of_true (.inl (by rw [sock]; exact notZero)) (.inr created)
    · refine or_congr (by rw [socks j mine]) (iff_of_false (fun is => ?_) fun is => ?_)
      · rw [call] at is
        cases is
      · rw [created] at is
        exact mine (SocketCall.created.inj is).symm
  have fields : ∀ j, (t.sockArr j).waitAccept = (s.sockArr j).waitAccept ∧
      (t.sockArr j).childNum = (s.sockArr j).childNum ∧
      (t.sockArr j).backlog = (s.sockArr j).backlog ∧ (t.sockArr j).flag = (s.sockArr j).flag ∧
      (t.sockArr j).ops = (s.sockArr j).ops ∧ (t.sockArr j).data = (s.sockArr j).data := by
    intro j
    by_cases mine : j = k
    · rw [mine, sock]
      exact ⟨rfl, rfl, rfl, rfl, rfl, rfl⟩
    · rw [socks j mine]
      exact ⟨rfl, rfl, rfl, rfl, rfl, rfl⟩
  have waits' : ∀ j, (t.sockArr j).waitAccept = (s.sockArr j).waitAccept := fun j => (fields j).1
  have childs : ∀ j, (t.sockArr j).childNum = (s.sockArr j).childNum := fun j => (fields j).2.1
  have backlogs : ∀ j, (t.sockArr j).backlog = (s.sockArr j).backlog := fun j => (fields j).2.2.1
  have flags : ∀ j, (t.sockArr j).flag = (s.sockArr j).flag := fun j => (fields j).2.2.2.1
  have opss : ∀ j, (t.sockArr j).ops = (s.sockArr j).ops := fun j => (fields j).2.2.2.2.1
  have datas : ∀ j, (t.sockArr j).data = (s.sockArr j).data := fun j => (fields j).2.2.2.2.2
  have holds : ∀ {j p pcb}, t.Holds j p pcb ↔ s.Holds j p pcb := by
    intro j p pcb
    constructor
    · exact fun is => ⟨datas j ▸ is.data, pcbs ▸ is.there, is.arg, is.known⟩
    · exact fun is => ⟨(datas j).trans is.data, pcbs ▸ is.there, is.arg, is.known⟩
  -- the socket that gets its id does not listen yet, and nobody waits for it
  have listens : ∀ l, t.Listens l ↔ s.Listens l := by
    intro l
    by_cases mine : l = k
    · subst mine
      refine iff_of_false (fun is => ?_) fun is => is.id free
      obtain ⟨-, p, pcb, found, state⟩ := is
      obtain ⟨-, tcp, data, there⟩ := tcpData_eq_some.mp found
      obtain ⟨q, held, is⟩ := inv.holds l (.inr created) ((opss l).symm.trans tcp)
      obtain rfl := Option.some.inj (is.data.symm.trans ((datas l).symm.trans data))
      obtain rfl := Option.some.inj (is.there.symm.trans (pcbs ▸ there))
      exact (inv.good q held is.there).notListen (errf q held is) state
    · unfold Listens
      simp only [tcpData_eq_some, socks l mine, pcbs]
  have pendingOther : ∀ j, j ≠ k → (s.sockArr j).id ≠ 0 → t.pending j = s.pending j := by
    intro j other used
    refine Finset.filter_congr fun i _ => ?_
    rw [socks j other]
    by_cases mine : i = k
    · subst mine
      rw [sock]
      exact iff_of_false (fun is => fresh j is.1.symm) fun is => used (is.1.symm.trans free)
    · rw [socks i mine]
  have pendingNew : t.pending k = ∅ := by
    refine Finset.filter_eq_empty_iff.mpr fun i _ is => ?_
    by_cases mine : i = k
    · rw [mine, waits', plain] at is
      cases is.2
    · rw [socks i mine, sock] at is
      exact fresh i is.1
  have oldUsed : ∀ {j}, j ≠ k → (t.sockArr j).id ≠ 0 → (s.sockArr j).id ≠ 0 := fun other used =>
    socks _ other ▸ used
  refine ⟨fun i j used same first second => ?_, fun j used' tcp => ?_, fun p pcb there is => ?_,
    fun p pcb there => ?_, fun j used' waiting => ?_, fun j used' first => ?_, fun l is => ?_,
    fun j used' first => ?_, fun k' ops is => ?_, fun k' is => ?_⟩
  · rw [waits'] at first second
    by_cases mine : i = k <;> by_cases mine' : j = k
    · rw [mine, mine']
    · rw [mine, sock, socks j mine'] at same
      exact absurd same.symm (fresh j)
    · rw [mine', sock, socks i mine] at same
      exact absurd same (fresh i)
    · rw [socks i mine] at used same
      rw [socks j mine'] at same
      exact inv.unique i j used same first second
  · obtain ⟨p, pcb, is⟩ := inv.holds j ((used j).mp used') (opss j ▸ tcp)
    exact ⟨p, pcb, holds.mpr is⟩
  · obtain ⟨j, used', tcp, is'⟩ := inv.held p pcb (pcbs ▸ there) is
    exact ⟨j, (used j).mpr used', (opss j).trans tcp, holds.mpr is'⟩
  · have good := inv.good p pcb (pcbs ▸ there)
    refine ⟨good.errf, good.accept, fun half => ?_⟩
    obtain ⟨l, arg, is⟩ := good.halfOpen half
    exact ⟨l, arg, (listens l).mpr is⟩
  · have other : j ≠ k := by
      rintro rfl
      rw [waits', plain] at waiting
      cases waiting
    have waits := inv.waits j (oldUsed other used') (waits' j ▸ waiting)
    obtain ⟨l, is, id⟩ := waits.owned
    have otherL : l ≠ k := by
      rintro rfl
      exact is.id free
    exact ⟨(opss j).trans waits.ops, flags j ▸ waits.flag, (childs j).trans waits.childNum,
      fun p pcb is => waits.errf p pcb (holds.mp is), l, (listens l).mpr is,
      by rw [socks l otherL, socks j other, id]⟩
  · rw [childs]
    by_cases mine : j = k
    · rw [mine, pendingNew, none']
      rfl
    · rw [pendingOther j mine (oldUsed mine used')]
      exact inv.count j (oldUsed mine used') (waits' j ▸ first)
  · rw [childs, backlogs]
    exact inv.bound l ((listens l).mp is)
  · rw [flags]
    exact inv.flag j ((used j).mp used') (waits' j ▸ first)
  · rw [call] at is
    cases is
  · rw [call] at is
    cases is

/-! ## Bound and connected sockets -/

theorem Inv.inetTcpBind (inv : Inv s) (i : SockIndex) (port : BitVec 16) :
    Inv (s.inetTcpBind i port) := by
  unfold SockState.inetTcpBind
  split
  next p pcb data =>
    split
    next may =>
      obtain ⟨closed, -⟩ := may
      have notListen : pcb.state ≠ .listen := fun is => by rw [closed] at is; cases is
      have notHalf : pcb.state ≠ .synRcvd := fun is => by rw [closed] at is; cases is
      exact inv.move (tcpData_eq_some.mp data).2.2.2 rfl rfl notListen notListen notHalf
        fun _ => by rw [closed]; rfl
    next => exact inv
  next => exact inv

theorem Inv.inetTcpConnect (inv : Inv s) (i : SockIndex) (newPort : BitVec 16) :
    Inv (s.inetTcpConnect i newPort) := by
  unfold SockState.inetTcpConnect
  split
  next p pcb data =>
    split
    next closed =>
      have notListen : pcb.state ≠ .listen := fun is => by rw [closed] at is; cases is
      exact inv.move (tcpData_eq_some.mp data).2.2.2 rfl rfl notListen (fun is => by cases is)
        (fun is => by cases is) fun _ => rfl
    next => exact inv
  next => exact inv

/-! ## Runs -/

/-- When a call or a segment keeps the accounts: `NetListen` is on a socket that the
application was given, and lowers no backlog below the children that wait; a listener is
closed without half-open connections; and the slot of a new connection is not the one that
a call of `NetSocket` has found. -/
def SockCondition (s : SockState) : SockEvent → Prop
  | .listen i backlog _ => ∀ found ∈ s.tcpData i, 0 < backlog → backlog ≤ 5 →
      (s.sockArr i).waitAccept = false ∧
        (found.2.state = .listen → (s.sockArr i).childNum ≤ backlog)
  | .close i => (s.sockArr i).waitAccept = false → ∀ found ∈ s.tcpData i,
      found.2.state = .listen → ∀ p, ∀ pcb ∈ s.pcbs p, pcb.state = .synRcvd →
        pcb.callbackArg ≠ some i
  | .ack p => ∀ pcb ∈ s.pcbs p, pcb.state = .synRcvd → ∀ l ∈ pcb.callbackArg,
      ∀ c ∈ s.acceptSlot l, s.call.slot ≠ some c
  | _ => True

instance (s : SockState) (event : SockEvent) : Decidable (s.SockCondition event) := by
  unfold SockCondition
  split <;> infer_instance

theorem Inv.inetTcpListen (inv : Inv s) {i : SockIndex} {backlog : Int} {lpcb : PcbIndex}
    (may : SockCondition s (.listen i backlog lpcb)) : Inv (s.inetTcpListen i backlog lpcb) := by
  unfold SockState.inetTcpListen
  split
  next => exact inv
  next p pcb data =>
    split
    next => exact inv
    next within =>
      rw [not_or, not_le, not_lt] at within
      obtain ⟨plain, room⟩ := may (p, pcb) data within.1 within.2
      split
      next state => exact inv.listenAgain data state (room state)
      next notListen =>
        split
        next => exact inv
        next may =>
          rw [not_or, Bool.not_eq_true, Option.isSome_eq_false_iff, Option.isNone_iff_eq_none]
            at may
          exact inv.listenFirst data notListen plain may.2 within.1 pcb.localPort

theorem Inv.step (inv : Inv s) (event : SockEvent) (may : SockCondition s event) :
    Inv (sockStep s event) := by
  have called : ∀ after, (s.call = .idle → Inv after) → Inv (s.called after) := by
    intro after keeps
    unfold SockState.called
    split
    next idle => exact keeps idle
    next => exact inv
  cases event with
  | socketFind ops => exact called _ fun idle => inv.netSocketFind idle ops
  | socketCreate pcb =>
      dsimp only [sockStep]
      split
      next k ops found => exact inv.netSocketCreate found pcb
      next => exact inv
  | socketSetId =>
      dsimp only [sockStep]
      split
      next k created => exact inv.netSocketSetId created
      next => exact inv
  | bind i port => exact called _ fun _ => inv.inetTcpBind i port
  | connect i newPort => exact called _ fun _ => inv.inetTcpConnect i newPort
  | listen i backlog lpcb => exact called _ fun _ => inv.inetTcpListen may
  | accept i => exact called _ fun _ => inv.inetTcpAccept i
  | close i =>
      refine called _ fun _ => inv.netCloseSocket i fun listens q half there state => ?_
      obtain ⟨plain, p, pcb, data, listen⟩ := listens
      exact may plain (p, pcb) data listen q half there state
  | syn p npcb => exact inv.tcpListenInput p npcb
  | ack p => exact inv.tcpProcessAck p may
  | segment p next => exact inv.tcpProcess p next
  | reset p => exact inv.tcpInputReset p
  | expire p expiry => exact inv.tcpExpire p expiry
  | timeWaitOver p => exact inv.tcpTimeWaitOver p
  | kill p => exact inv.tcpKillTimewait p
  | linkChange p errCode => exact inv.tcpLinkChange p errCode

theorem Inv.boot : Inv SockState.boot where
  unique i _ used := absurd rfl used
  holds j used _ := used.elim (absurd rfl) (fun is => by cases is)
  held p pcb there := by cases there
  good p pcb there := by cases there
  waits j used := absurd rfl used
  count j used := absurd rfl used
  bound l is := absurd rfl is.id
  flag j _ _ := show Sock.zero.flag &&& SOCK_ACCEPT = 0 by decide
  found k ops is := by cases is
  created k is := by cases is

end SockState

open SockState

/-- **The accounts of the listeners.** In every run whose calls and segments all meet the
condition, every state that is reached has right accounts. -/
theorem runSockets_accounted (events : List SockEvent)
    (meets : Meets sockStep SockCondition SockState.boot events) :
    (runEvents sockStep SockState.boot events).Accounted :=
  (runEvents_keeps (fun _ event inv => inv.step event) Inv.boot meets).accounted

/-- The application opens a listening socket on port 80, with a backlog. -/
def openListener (backlog : Int) : List SockEvent :=
  [.socketFind .tcp, .socketCreate (some 0), .socketSetId, .bind 0 80, .listen 0 backlog 1]

/-- A listener takes three connections; the peer resets one of them while it waits, the
application accepts one, and the listener is closed before the other. -/
theorem runSockets_accounted_closed :
    (runEvents sockStep SockState.boot (openListener 2 ++ [.syn 1 2, .ack 2, .syn 1 3, .ack 3,
      .reset 2, .syn 1 4, .ack 4, .accept 0, .close 0])).Accounted :=
  runSockets_accounted _ (by decide +kernel)

instance (s : SockState) (j : SockIndex) : Decidable (s.InUse j) :=
  inferInstanceAs (Decidable (_ ∨ _))

instance (s : SockState) (l : SockIndex) : Decidable (s.Listens l) :=
  decidable_of_iff ((s.sockArr l).waitAccept = false ∧
      ∃ p, (s.tcpData l).any fun found => found.1 = p ∧ found.2.state = .listen) <| by
    unfold SockState.Listens
    refine and_congr_right fun _ => exists_congr fun p => ?_
    cases s.tcpData l with
    | none => simp
    | some found => simp [Prod.ext_iff, and_assoc]

/-- A second `NetListen` lowers the backlog below the two connections that wait; a listener
is closed while a connection is half open, which then has an entry that no call finds; and a
connection takes the slot that `NetSocket` then clears, and is still counted. -/
theorem runSockets_miscounts :
    ¬ (runEvents sockStep SockState.boot (openListener 5 ++ [.syn 1 2, .ack 2, .syn 1 3, .ack 3,
      .listen 0 1 4])).Accounted ∧
    ¬ (runEvents sockStep SockState.boot (openListener 5 ++ [.syn 1 2, .close 0,
      .ack 2])).Accounted ∧
    ¬ (runEvents sockStep SockState.boot (openListener 5 ++ [.syn 1 2, .socketFind .tcp, .ack 2,
      .socketCreate (some 3)])).Accounted := by
  refine ⟨fun accounted => ?_, fun accounted => ?_, fun accounted => ?_⟩
  · exact absurd (accounted.bounded 0 (by decide +kernel)) (by decide +kernel)
  · have orphan : ∃ pcb ∈ (runEvents sockStep SockState.boot (openListener 5 ++ [.syn 1 2,
        .close 0, .ack 2])).pcbs 2, pcb.errf = true ∧ ∀ j ∈ pcb.callbackArg,
          ¬ SockState.InUse (runEvents sockStep SockState.boot (openListener 5 ++ [.syn 1 2,
            .close 0, .ack 2])) j := by
      decide +kernel
    obtain ⟨pcb, there, errf, unused⟩ := orphan
    obtain ⟨j, arg, used, -⟩ := accounted.handed 2 pcb there errf
    exact unused j arg used
  · exact absurd (accounted.counted 0 (by decide +kernel)) (by decide +kernel)

end PosFirmware.IpStack
