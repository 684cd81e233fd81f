import Mathlib.Tactic
import PosFirmware.Comm.TransmitRing
import PosFirmware.Foundation.Run

/-!
# What reaches the wire

The bytes of a UART are those of the calls that moved its `so_write`, in the order in which
they moved it, as long as a call looks at the buffer only while no other call is between its
look and its update, and `PortTx`, which does not look for room, finds some
(`transmit_keeps_stream`).
-/

namespace PosFirmware.Comm

open PosFirmware.Foundation

/-- The call moved `so_write`: it returned 0, or has only `uart_phy_sends` before it. -/
def Writer.Done (writer : Writer) : Prop :=
  writer.phase = .sends ∨ writer.phase = .returned 0

/-- What was written to each UART and waits for it are the strings of the calls that returned 0,
each once and in call order; other calls have no part in it. -/
structure StreamKept (s : TxState) : Prop where
  /-- The bytes on the line and in the buffer are the strings of the calls in order. -/
  stream : ∀ port, s.line port ++ (s.rings port).contents =
    (s.order port).flatMap fun w => (s.writers w).str
  /-- The calls in order are those on the UART that returned 0 or are about to. -/
  members : ∀ port w, w ∈ s.order port ↔ (s.writers w).port = port ∧ (s.writers w).Done
  /-- Each of them once. -/
  once : ∀ port, (s.order port).Nodup
  /-- A call that had returned when another one began is before it. -/
  callOrder : ∀ port, (s.order port).Pairwise fun first second =>
    (s.writers second).phase = .returned 0 →
      (s.writers first).calledAt ≤ (s.writers second).returnedAt

/-- The phases between the first use of `so_write` and its update. -/
def Phase.inside : Phase → Bool
  | .looked _ | .copies _ _ | .stores _ | .updates | .publishes _ => true
  | _ => false

/-- A call is between its first use of the `so_write` of a UART and its update. -/
def Writer.Inside (port : Nat) (writer : Writer) : Prop :=
  writer.port = port ∧ writer.phase.inside = true

/-- The buffer has no room for another byte. -/
def NoRoom (ring : RingBuffer Byte) : Prop := ring.tail = (ring.head + 1) % SIO_SIZE

/-- The next step of a call comes to a phase between the first use of `so_write` and its update. -/
def Phase.Enters (ring : RingBuffer Byte) : Phase → Prop
  | .looks | .tx _ => True
  | .waits _ => ¬ NoRoom ring
  | _ => False

/-- A call comes to its first use of `so_write` only while no other call is between that and its
update, and `PortTx` only while there is room. -/
def TakesTurns (s : TxState) : TxEvent → Prop
  | .run w _ _ =>
    let writer := s.writers w
    let ring := s.rings writer.port
    writer.phase.Enters ring →
      (∀ v, ¬ (s.writers v).Inside writer.port) ∧ ∀ ch, writer.phase = .tx ch → ¬ NoRoom ring
  | _ => True

/-! ## The invariant -/

/-- What a call relies on between its steps. -/
def Writer.Relies (ring : RingBuffer Byte) (writer : Writer) : Prop :=
  match writer.phase with
  | .looked oWrite => oWrite = ring.head
  | .copies oWrite copied => oWrite = ring.head ∧ ring.Staged writer.str copied
  | .waits ch | .tx ch => writer.str = [ch]
  | .stores ch => writer.str = [ch] ∧ ring.Staged writer.str 0
  | .updates => ring.Staged writer.str writer.str.length
  | .publishes soWrite => soWrite = ring.head ∧ ring.Staged writer.str writer.str.length
  | _ => True

/-- The invariant of the buffers and the calls. -/
structure TxKept (s : TxState) : Prop where
  size : ∀ port, (s.rings port).size = SIO_SIZE
  relies : ∀ w, (s.writers w).Relies (s.rings (s.writers w).port)
  alone : ∀ port v w, (s.writers v).Inside port → (s.writers w).Inside port → v = w
  called : ∀ w, (s.writers w).calledAt ≤ s.now
  kept : StreamKept s

theorem noRoom_iff {ring : RingBuffer Byte} (size : ring.size = SIO_SIZE) :
    NoRoom ring ↔ ring.Full := by
  rw [NoRoom, RingBuffer.Full, size]
  exact eq_comm

theorem Writer.Relies.outside {ring other : RingBuffer Byte} {writer : Writer}
    (outside : writer.phase.inside = false) (relies : writer.Relies ring) :
    writer.Relies other := by
  unfold Writer.Relies at relies ⊢
  cases phase : writer.phase <;> simp only [phase] at relies outside ⊢ <;>
    first | exact relies | exact absurd outside (by simp [Phase.inside])

theorem Writer.Relies.drop {ring : RingBuffer Byte} {writer : Writer} (some : ring.count ≠ 0)
    (relies : writer.Relies ring) : writer.Relies ring.drop := by
  unfold Writer.Relies at relies ⊢
  cases phase : writer.phase <;> simp only [phase] at relies ⊢
  case looked => exact relies
  case copies => exact ⟨relies.1, relies.2.drop some⟩
  case waits => exact relies
  case stores => exact ⟨relies.1, relies.2.drop some⟩
  case tx => exact relies
  case updates => exact relies.drop some
  case publishes => exact ⟨relies.1, relies.2.drop some⟩

theorem Writer.Done.not_inside {writer : Writer} (done : writer.Done) :
    writer.phase.inside = false := by
  obtain sends | returned := done
  · rw [sends]
    rfl
  · rw [returned]
    rfl

section Steps

variable {s : TxState}

theorem TxKept.tick (kept : TxKept s) : TxKept { s with now := s.now + 1 } where
  size := kept.size
  relies := kept.relies
  alone := kept.alone
  called := fun w => (kept.called w).trans (Nat.le_succ _)
  kept := ⟨kept.kept.stream, kept.kept.members, kept.kept.once, kept.kept.callOrder⟩

theorem TxState.setRing_self (port : Nat) : s.setRing port (s.rings port) = s := by
  unfold TxState.setRing
  rw [Function.update_eq_self]

/-- A call changes, and with it the buffer and the order of its UART; what was promised of the
stream is kept. -/
theorem TxKept.replace (kept : TxKept s) {w : Nat} {writer : Writer} {ring : RingBuffer Byte}
    {order : Nat → List Nat} (called : writer.calledAt ≤ s.now) (size : ring.size = SIO_SIZE)
    (relies : writer.Relies ring)
    (apart : writer.phase.inside = true → ∀ v, v ≠ w → ¬ (s.writers v).Inside writer.port)
    (either : ring = s.rings writer.port ∨ ∀ v, v ≠ w → ¬ (s.writers v).Inside writer.port)
    (stream : StreamKept { (s.setRing writer.port ring).setWriter w writer with order := order }) :
    TxKept { (s.setRing writer.port ring).setWriter w writer with order := order } where
  size := fun port => by
    simp only [TxState.setWriter, TxState.setRing, Function.update_apply]
    split
    · exact size
    · exact kept.size port
  relies := fun v => by
    simp only [TxState.setWriter, TxState.setRing, Function.update_apply]
    by_cases own : v = w
    · rw [if_pos own, if_pos rfl]
      exact relies
    · rw [if_neg own]
      split
      · next same =>
        obtain unchanged | others := either
        · rw [unchanged, ← same]
          exact kept.relies v
        · refine (kept.relies v).outside ?_
          by_contra within
          exact others v own ⟨same, by simpa using within⟩
      · exact kept.relies v
  alone := fun port v u first second => by
    simp only [TxState.setWriter, TxState.setRing, Function.update_apply] at first second
    split at first
    · next own =>
      split at second
      · next own' => rw [own, own']
      · next other => exact absurd (first.1 ▸ second) (apart first.2 u other)
    · next other =>
      split at second
      · exact absurd (second.1 ▸ first) (apart second.2 v other)
      · exact kept.alone port v u first second
  called := fun v => by
    simp only [TxState.setWriter, TxState.setRing, Function.update_apply]
    split
    · exact called
    · exact kept.called v
  kept := stream

theorem StreamKept.absent (stream : StreamKept s) {w : Nat} (before : ¬ (s.writers w).Done)
    (port : Nat) : w ∉ s.order port :=
  fun member => before ((stream.members port w).mp member).2

theorem StreamKept.other (stream : StreamKept s) {w : Nat} (before : ¬ (s.writers w).Done)
    (writer : Writer) {port v : Nat} (member : v ∈ s.order port) :
    Function.update s.writers w writer v = s.writers v :=
  Function.update_of_ne (fun own : v = w => stream.absent before port (own ▸ member)) _ _

/-- A call that is not done changes, and with it the part of the buffer that is not
published. -/
theorem TxKept.work (kept : TxKept s) {w : Nat} {writer : Writer} {ring : RingBuffer Byte}
    (before : ¬ (s.writers w).Done) (after : ¬ writer.Done) (called : writer.calledAt ≤ s.now)
    (size : ring.size = SIO_SIZE) (contents : ring.contents = (s.rings writer.port).contents)
    (relies : writer.Relies ring)
    (apart : writer.phase.inside = true → ∀ v, v ≠ w → ¬ (s.writers v).Inside writer.port)
    (either : ring = s.rings writer.port ∨ writer.phase.inside = true) :
    TxKept ((s.setRing writer.port ring).setWriter w writer) := by
  have stream : StreamKept ((s.setRing writer.port ring).setWriter w writer) := by
    refine ⟨fun port => ?_, fun port v => ?_, kept.kept.once, fun port => ?_⟩
    · have same : (Function.update s.rings writer.port ring port).contents =
          (s.rings port).contents := by
        rw [Function.update_apply]
        split
        · next at_port => rw [contents, at_port]
        · rfl
      show s.line port ++ (Function.update s.rings writer.port ring port).contents =
        (s.order port).flatMap fun v => (Function.update s.writers w writer v).str
      rw [same, kept.kept.stream port]
      exact List.flatMap_congr fun v member => by rw [kept.kept.other before writer member]
    · show v ∈ s.order port ↔ (Function.update s.writers w writer v).port = port ∧
        (Function.update s.writers w writer v).Done
      rw [Function.update_apply]
      split
      · next own =>
        rw [own]
        exact ⟨fun member => absurd member (kept.kept.absent before port),
          fun done => absurd done.2 after⟩
      · exact kept.kept.members port v
    · refine (kept.kept.callOrder port).imp_of_mem fun {a b} memberA memberB ordered => ?_
      show (Function.update s.writers w writer b).phase = .returned 0 →
        (Function.update s.writers w writer a).calledAt ≤
          (Function.update s.writers w writer b).returnedAt
      rw [kept.kept.other before writer memberA, kept.kept.other before writer memberB]
      exact ordered
  exact kept.replace called size relies apart (either.imp_right apart) stream

theorem TxKept.go (kept : TxKept s) {w : Nat} {phase : Phase} {returnedAt : Nat}
    (before : ¬ (s.writers w).Done) (after : phase ≠ .sends ∧ phase ≠ .returned 0)
    (relies : ({ s.writers w with phase := phase, returnedAt := returnedAt } : Writer).Relies
      (s.rings (s.writers w).port))
    (apart : phase.inside = true → ∀ v, v ≠ w → ¬ (s.writers v).Inside (s.writers w).port) :
    TxKept (s.setWriter w { s.writers w with phase := phase, returnedAt := returnedAt }) := by
  have worked := @TxKept.work s kept w
    { s.writers w with phase := phase, returnedAt := returnedAt } _ before (not_or.mpr after)
    (kept.called w) (kept.size (s.writers w).port) rfl relies apart (.inl rfl)
  rwa [TxState.setRing_self] at worked

theorem TxKept.apart (kept : TxKept s) {w : Nat} (inside : (s.writers w).phase.inside = true) :
    ∀ v, v ≠ w → ¬ (s.writers v).Inside (s.writers w).port :=
  fun v other within => other (kept.alone _ v w within ⟨rfl, inside⟩)

theorem TxKept.leave (kept : TxKept s) {w code : Nat} (before : ¬ (s.writers w).Done)
    (failed : code ≠ 0) : TxKept (s.leave w code) :=
  kept.go before ⟨nofun, fun same => failed (Phase.returned.inj same)⟩ trivial nofun

theorem TxKept.store (kept : TxKept s) {w n : Nat} {ch : Byte} {phase : Phase}
    (before : ¬ (s.writers w).Done)
    (staged : (s.rings (s.writers w).port).Staged (s.writers w).str n)
    (next : (s.writers w).str[n]? = some ch) (inside : phase.inside = true)
    (relies : ({ s.writers w with phase := phase } : Writer).Relies
      ((s.rings (s.writers w).port).store (((s.rings (s.writers w).port).head + n) % SIO_SIZE) ch))
    (apart : ∀ v, v ≠ w → ¬ (s.writers v).Inside (s.writers w).port) :
    TxKept ((s.setRing (s.writers w).port ((s.rings (s.writers w).port).store
      (((s.rings (s.writers w).port).head + n) % SIO_SIZE) ch)).go w phase) := by
  have size := kept.size (s.writers w).port
  have inside' : n < (s.writers w).str.length := (List.getElem?_eq_some_iff.mp next).1
  have fits := staged.fits
  have contents := @RingBuffer.contents_store _ (s.rings (s.writers w).port) n (by omega) ch
  rw [size] at contents
  have after : ¬ ({ s.writers w with phase := phase } : Writer).Done := fun done => by
    rw [show phase.inside = false from done.not_inside] at inside
    cases inside
  exact kept.work before after (kept.called w) size contents relies (fun _ => apart) (.inr inside)

/-- A call moves `so_write`. -/
theorem TxKept.publish (kept : TxKept s) {w soWrite : Nat}
    (phase : (s.writers w).phase = .publishes soWrite) (expired : Bool) (room : Nat) :
    TxKept (writerStep s w expired room) := by
  have relied := kept.relies w
  unfold Writer.Relies at relied
  simp only [phase] at relied
  obtain ⟨rfl, staged⟩ := relied
  have inside : (s.writers w).phase.inside = true := by rw [phase]; rfl
  have apart := kept.apart inside
  have before : ¬ (s.writers w).Done := fun done => by
    rw [done.not_inside] at inside
    cases inside
  have appended : ∀ port, (Function.update s.order (s.writers w).port
      (s.order (s.writers w).port ++ [w]) port) =
        s.order port ++ if port = (s.writers w).port then [w] else [] := fun port => by
    rw [Function.update_apply]
    split
    · next own => rw [own]
    · rw [List.append_nil]
  unfold writerStep
  simp only [phase]
  refine @TxKept.replace s kept w { s.writers w with phase := .sends } _ _ (kept.called w)
    (kept.size _) trivial nofun (.inr apart) ⟨fun port => ?_, fun port v => ?_, fun port => ?_,
      fun port => ?_⟩
  · show s.line port ++ (Function.update s.rings (s.writers w).port _ port).contents =
      (Function.update s.order _ _ port).flatMap fun v => (Function.update s.writers w _ v).str
    have earlier : ((s.order port).flatMap fun v =>
        (Function.update s.writers w { s.writers w with phase := .sends } v).str) =
          (s.order port).flatMap fun v => (s.writers v).str :=
      List.flatMap_congr fun v member => by rw [kept.kept.other before _ member]
    rw [appended, List.flatMap_append, earlier, ← kept.kept.stream port, List.append_assoc]
    congr 1
    rw [Function.update_apply]
    split
    · next own =>
      rw [RingBuffer.contents_publish staged, own]
      simp
    · simp
  · show v ∈ Function.update s.order _ _ port ↔ (Function.update s.writers w _ v).port = port ∧
      (Function.update s.writers w _ v).Done
    rw [appended, List.mem_append]
    by_cases own : v = w
    · rw [own, Function.update_self]
      have none := kept.kept.absent before port
      constructor
      · rintro (early | late)
        · exact absurd early none
        · split at late
          · next here => exact ⟨here.symm, .inl rfl⟩
          · exact absurd late List.not_mem_nil
      · rintro ⟨here, -⟩
        rw [if_pos here.symm]
        exact .inr (List.mem_singleton.mpr rfl)
    · rw [Function.update_of_ne own, ← kept.kept.members port v]
      constructor
      · rintro (early | late)
        · exact early
        · split at late
          · exact absurd (List.mem_singleton.mp late) own
          · exact absurd late List.not_mem_nil
      · exact .inl
  · show (Function.update s.order _ _ port).Nodup
    rw [appended]
    split
    · refine List.nodup_append.mpr ⟨kept.kept.once port, List.nodup_singleton w, ?_⟩
      intro a member b last same
      rw [List.mem_singleton.mp last] at same
      exact kept.kept.absent before port (same ▸ member)
    · rw [List.append_nil]
      exact kept.kept.once port
  · show (Function.update s.order _ _ port).Pairwise _
    rw [appended, List.pairwise_append]
    refine ⟨?_, ?_, ?_⟩
    · refine (kept.kept.callOrder port).imp_of_mem fun {a b} memberA memberB ordered => ?_
      show (Function.update s.writers w _ b).phase = .returned 0 →
        (Function.update s.writers w _ a).calledAt ≤ (Function.update s.writers w _ b).returnedAt
      rw [kept.kept.other before _ memberA, kept.kept.other before _ memberB]
      exact ordered
    · split
      · exact List.pairwise_singleton _ _
      · exact List.Pairwise.nil
    · intro a _ b last
      split at last
      · rw [List.mem_singleton.mp last]
        show (Function.update s.writers w _ w).phase = .returned 0 → _
        rw [Function.update_self]
        nofun
      · exact absurd last List.not_mem_nil

theorem TxKept.fill (kept : TxKept s) (port n : Nat) : TxKept (fillFifo port n s) := by
  induction n generalizing s with
  | zero => exact kept
  | succ n past =>
    unfold fillFifo
    dsimp only
    split
    · exact kept
    · next apart =>
      apply past
      have some : (s.rings port).count ≠ 0 := fun none =>
        apart ((RingBuffer.count_eq_zero_iff _).mp none).symm
      constructor
      case size =>
        intro other
        show (Function.update s.rings port _ other).size = _
        rw [Function.update_apply]
        split
        · exact kept.size port
        · exact kept.size other
      case relies =>
        intro w
        show (s.writers w).Relies (Function.update s.rings port _ (s.writers w).port)
        rw [Function.update_apply]
        split
        · next here => exact Writer.Relies.drop some (here ▸ kept.relies w)
        · exact kept.relies w
      case alone => exact kept.alone
      case called => exact kept.called
      case kept =>
        refine ⟨fun other => ?_, kept.kept.members, kept.kept.once, kept.kept.callOrder⟩
        show Function.update s.line port _ other ++
            (Function.update s.rings port _ other).contents =
          (s.order other).flatMap fun w => (s.writers w).str
        rw [← kept.kept.stream other, Function.update_apply, Function.update_apply]
        split
        · next here =>
          rw [here, RingBuffer.contents_drop some, List.append_assoc, List.singleton_append]
        · rfl

theorem fillFifo_writers (port n : Nat) (s : TxState) :
    (fillFifo port n s).writers = s.writers := by
  induction n generalizing s with
  | zero => rfl
  | succ n past =>
    unfold fillFifo
    dsimp only
    split
    · rfl
    · rw [past]

theorem TxKept.succeed (kept : TxKept s) {w : Nat} (phase : (s.writers w).phase = .sends) :
    TxKept (s.leave w 0) := by
  have done : (s.writers w).Done := .inl phase
  have after : ∀ v, (s.leave w 0).writers v = if v = w then
      { s.writers w with phase := .returned 0, returnedAt := s.now } else s.writers v :=
    fun v => Function.update_apply ..
  have text : ∀ v, ((s.leave w 0).writers v).str = (s.writers v).str := fun v => by
    rw [after]
    split
    · next own => rw [own]
    · rfl
  have called : ∀ v, ((s.leave w 0).writers v).calledAt = (s.writers v).calledAt := fun v => by
    rw [after]
    split
    · next own => rw [own]
    · rfl
  have stream : StreamKept (s.leave w 0) := by
    refine ⟨fun port => ?_, fun port v => ?_, kept.kept.once, fun port => ?_⟩
    · simp only [text]
      exact kept.kept.stream port
    · rw [after]
      refine (kept.kept.members port v).trans ?_
      split
      · next own =>
        rw [own]
        exact and_congr_right fun _ => ⟨fun _ => .inr rfl, fun _ => done⟩
      · rfl
    · refine (kept.kept.callOrder port).imp fun {a b} ordered => ?_
      rw [called, after]
      split
      · exact fun _ => kept.called a
      · exact ordered
  have left := @TxKept.replace s kept w
    { s.writers w with phase := .returned 0, returnedAt := s.now } (s.rings (s.writers w).port)
    s.order (kept.called w) (kept.size _) trivial nofun (.inl rfl)
    (by rw [TxState.setRing_self]; exact stream)
  rwa [TxState.setRing_self] at left

theorem xlen_eq {ring : RingBuffer Byte} (size : ring.size = SIO_SIZE) :
    xlen ring.head ring.tail = ring.count := by
  have tail := ring.tail_lt
  rw [xlen, RingBuffer.count_eq, size]
  split
  · rfl
  · omega

theorem copyPlace_eq {oWrite strLen i : Nat} (inside : oWrite < SIO_SIZE)
    (short : i < strLen) (fits : strLen < SIO_SIZE) :
    copyPlace oWrite strLen i = (oWrite + i) % SIO_SIZE := by
  unfold copyPlace
  split
  · exact (Nat.mod_eq_of_lt (by omega)).symm
  · dsimp only
    split
    · exact (Nat.mod_eq_of_lt (by omega)).symm
    · rw [Nat.mod_eq_sub_mod (by omega), Nat.mod_eq_of_lt (by omega)]
      omega

theorem TxKept.roomForOne (kept : TxKept s) {w : Nat} {ch : Byte} (one : (s.writers w).str = [ch])
    (room : ¬ NoRoom (s.rings (s.writers w).port)) :
    (s.rings (s.writers w).port).Staged (s.writers w).str 0 := by
  rw [noRoom_iff (kept.size _), RingBuffer.full_iff] at room
  have small := (s.rings (s.writers w).port).count_lt
  refine RingBuffer.staged_zero ?_
  rw [one, List.length_singleton]
  omega

theorem TxKept.storeOne (kept : TxKept s) {w : Nat} {ch : Byte} (before : ¬ (s.writers w).Done)
    (one : (s.writers w).str = [ch])
    (staged : (s.rings (s.writers w).port).Staged (s.writers w).str 0)
    (apart : ∀ v, v ≠ w → ¬ (s.writers v).Inside (s.writers w).port) :
    TxKept ((s.setRing (s.writers w).port ((s.rings (s.writers w).port).store
      (s.rings (s.writers w).port).head ch)).go w .updates) := by
  have size := kept.size (s.writers w).port
  have next : (s.writers w).str[0]? = some ch := by rw [one]; rfl
  have head : ((s.rings (s.writers w).port).head + 0) % SIO_SIZE =
      (s.rings (s.writers w).port).head := by
    rw [Nat.add_zero, ← size, Nat.mod_eq_of_lt (s.rings (s.writers w).port).head_lt]
  have stored := staged.store next
  rw [size, head] at stored
  have worked := @TxKept.store s kept w 0 ch .updates before staged next rfl
  rw [head] at worked
  refine worked ?_ apart
  show RingBuffer.Staged _ (s.writers w).str (s.writers w).str.length
  rw [one] at stored ⊢
  exact stored

/-- **One step of a call** keeps the invariant, if the call takes its turn. -/
theorem TxKept.writerStep (kept : TxKept s) {w : Nat} (expired : Bool) (room : Nat)
    (turn : TakesTurns s (.run w expired room)) : TxKept (writerStep s w expired room) := by
  have relied := kept.relies w
  have size := kept.size (s.writers w).port
  unfold Writer.Relies at relied
  have going : ∀ phase, (s.writers w).phase = phase → phase ≠ .sends → phase ≠ .returned 0 →
      ¬ (s.writers w).Done := fun phase at_phase first second done =>
    done.elim (fun same => first (at_phase ▸ same)) fun same => second (at_phase ▸ same)
  have entered : (s.writers w).phase.Enters (s.rings (s.writers w).port) →
      ∀ v, v ≠ w → ¬ (s.writers v).Inside (s.writers w).port :=
    fun enters v _ => (turn enters).1 v
  cases phase : (s.writers w).phase with
  | publishes soWrite => exact kept.publish phase expired room
  | unborn | returned code | handed code =>
    unfold Comm.writerStep
    simpa only [phase] using kept
  | looks =>
    unfold Comm.writerStep
    simp only [phase]
    exact kept.go (going _ phase nofun nofun) ⟨nofun, nofun⟩ rfl fun _ =>
      entered (by rw [phase]; trivial)
  | looked oWrite =>
    simp only [phase] at relied
    have before := going _ phase nofun nofun
    unfold Comm.writerStep
    simp only [phase]
    split
    · exact kept.leave before (by decide)
    · next fits =>
      rw [relied, xlen_eq size, not_le] at fits
      have staged := RingBuffer.staged_zero (by rw [size, Nat.add_comm]; exact fits)
      exact kept.go before ⟨nofun, nofun⟩ ⟨relied, staged⟩ fun _ => kept.apart (by rw [phase]; rfl)
  | copies oWrite copied =>
    simp only [phase] at relied
    obtain ⟨rfl, staged⟩ := relied
    have before := going _ phase nofun nofun
    have apart := kept.apart (w := w) (by rw [phase]; rfl)
    have fits := staged.fits
    unfold Comm.writerStep
    simp only [phase]
    cases next : (s.writers w).str[copied]? with
    | some ch =>
      have short := (List.getElem?_eq_some_iff.mp next).1
      have inside := (s.rings (s.writers w).port).head_lt
      have stored := staged.store next
      rw [size] at stored fits inside
      simp only [copyPlace_eq inside short (by omega)]
      exact @TxKept.store s kept w copied ch (.copies _ (copied + 1)) before staged next rfl
        ⟨rfl, stored⟩ apart
    | none =>
      have all := List.getElem?_eq_none_iff.mp next
      have whole := fun j early => staged.stored j (Nat.lt_of_lt_of_le early all)
      exact kept.go before ⟨nofun, nofun⟩ ⟨fits, whole⟩ fun _ => apart
  | waits ch =>
    simp only [phase] at relied
    have before := going _ phase nofun nofun
    unfold Comm.writerStep
    simp only [phase]
    split
    · split
      · exact kept.leave before (by decide)
      · exact kept
    · next room =>
      exact kept.go before ⟨nofun, nofun⟩ ⟨relied, kept.roomForOne relied room⟩ fun _ =>
        entered (by rw [phase]; exact room)
  | stores ch =>
    simp only [phase] at relied
    unfold Comm.writerStep
    simp only [phase]
    exact kept.storeOne (going _ phase nofun nofun) relied.1 relied.2
      (kept.apart (by rw [phase]; rfl))
  | tx ch =>
    simp only [phase] at relied
    have enters : (s.writers w).phase.Enters (s.rings (s.writers w).port) := by
      rw [phase]
      trivial
    unfold Comm.writerStep
    simp only [phase]
    exact kept.storeOne (going _ phase nofun nofun) relied
      (kept.roomForOne relied ((turn enters).2 ch phase)) (entered enters)
  | updates =>
    simp only [phase] at relied
    unfold Comm.writerStep
    simp only [phase]
    exact kept.go (going _ phase nofun nofun) ⟨nofun, nofun⟩ ⟨rfl, relied⟩ fun _ =>
      kept.apart (by rw [phase]; rfl)
  | sends =>
    unfold Comm.writerStep
    simp only [phase]
    have filled := kept.fill (s.writers w).port (min FIFO_TURNS room)
    exact filled.succeed (by rw [fillFifo_writers]; exact phase)

end Steps

/-! ## The beginning of a call -/

/-- A call that neither uses the buffer yet nor has returned 0. -/
structure Writer.Fresh (now : Nat) (ring : RingBuffer Byte) (writer : Writer) : Prop where
  relies : writer.Relies ring
  outside : writer.phase.inside = false
  undone : ¬ writer.Done
  called : writer.calledAt = now

theorem checkChannel_refused {m : Machine} {ports : CommState} {sit : Situation} {port : PortNo}
    {code : Nat} (refused : checkChannel m ports sit port = .refused code) : code ≠ 0 := by
  cases port with
  | driver => cases refused
  | invalid => cases refused; decide
  | uart channel =>
    unfold checkChannel at refused
    dsimp only at refused
    split at refused
    · cases refused; decide
    · split at refused
      · cases refused; decide
      · split at refused
        · cases refused; decide
        · split at refused <;> cases refused
          decide

theorem Writer.fresh_failed {port now code : Nat} {str : List Byte} {ring : RingBuffer Byte}
    (failed : code ≠ 0) : (⟨.returned code, port, str, now, now⟩ : Writer).Fresh now ring :=
  ⟨trivial, rfl, fun done => done.elim nofun fun same => failed (Phase.returned.inj same), rfl⟩

theorem Admission.enter_fresh {now : Nat} {str : List Byte} {first : Phase} {ring : RingBuffer Byte}
    {admission : Admission} (failed : ∀ code, admission = .refused code → code ≠ 0)
    (fresh : ∀ port, (⟨first, port, str, now, now⟩ : Writer).Fresh now ring) :
    (admission.enter now str first).Fresh now ring := by
  cases admission with
  | handed code => exact ⟨trivial, rfl, fun done => done.elim nofun nofun, rfl⟩
  | refused code => exact Writer.fresh_failed (failed code rfl)
  | admitted port => exact fresh port

theorem TxCall.begin_fresh (m : Machine) (ports : CommState) (now : Nat) (call : TxCall)
    (ring : RingBuffer Byte) : (call.begin m ports now).Fresh now ring := by
  have looks : ∀ port str, (⟨.looks, port, str, now, now⟩ : Writer).Fresh now ring :=
    fun port str => ⟨trivial, rfl, fun done => done.elim nofun nofun, rfl⟩
  cases call with
  | sendsStd sit port str =>
    apply Admission.enter_fresh fun code => checkChannel_refused
    intro curPort
    split
    · exact Writer.fresh_failed (by decide)
    · exact looks curPort str
  | sendStd sit port ch =>
    apply Admission.enter_fresh fun code => checkChannel_refused
    exact fun curPort => ⟨rfl, rfl, fun done => done.elim nofun nofun, rfl⟩
  | txs channel str =>
    show (portTxs ports now channel str).Fresh now ring
    unfold portTxs
    dsimp only
    split
    · exact Writer.fresh_failed (by decide)
    · exact looks _ str
  | tx channel ch =>
    show (portTx ports now channel ch).Fresh now ring
    unfold portTx
    dsimp only
    split
    · exact Writer.fresh_failed (by decide)
    · exact ⟨rfl, rfl, fun done => done.elim nofun nofun, rfl⟩

/-- **Every event** keeps the invariant, if the call that goes on takes its turn. -/
theorem txStep_keeps (m : Machine) (ports : CommState) (s : TxState) (event : TxEvent)
    (kept : TxKept s) (turn : TakesTurns s event) : TxKept (txStep m ports s event) := by
  have later := kept.tick
  cases event with
  | call w call =>
    unfold txStep
    dsimp only
    split
    · next fresh =>
      obtain ⟨relies, outside, undone, called⟩ := call.begin_fresh m ports (s.now + 1)
        (s.rings (call.begin m ports (s.now + 1)).port)
      have before : ¬ (s.writers w).Done := by
        rintro (same | same) <;> exact nomatch fresh.symm.trans same
      have worked := later.work before undone called.le (later.size _) rfl relies
        (fun inside => nomatch outside.symm.trans inside) (.inl rfl)
      rwa [TxState.setRing_self] at worked
    · exact later
  | run w expired room => exact later.writerStep expired room turn
  | interrupt port room => exact later.fill port _

theorem txStart_kept (soPool : Nat → Byte) : TxKept (txStart soPool) where
  size := fun _ => rfl
  relies := fun _ => trivial
  alone := fun port v w inside => nomatch inside.2
  called := fun _ => le_rfl
  kept := by
    refine ⟨fun port => ?_, fun port w => ?_, fun _ => List.nodup_nil, fun _ => List.Pairwise.nil⟩
    · have none : ((txStart soPool).rings port).contents = [] := by
        unfold txStart
        rw [RingBuffer.contents_empty]
      rw [none]
      rfl
    · exact ⟨nofun, fun done => done.2.elim nofun nofun⟩

/-- **The transmit buffers keep the stream**: in every state of a run in which every call takes its
turn, what was written to a UART and waits for it are the strings of the calls that returned 0, in
call order, and a call that returned anything else has added nothing. -/
theorem transmit_keeps_stream (m : Machine) (ports : CommState) (soPool : Nat → Byte)
    {events : List TxEvent}
    (turns : Meets (txStep m ports) TakesTurns (txStart soPool) events) :
    StreamKept (runEvents (txStep m ports) (txStart soPool) events) :=
  (runEvents_keeps (txStep_keeps m ports) (txStart_kept soPool) turns).kept

/-- A machine of type S80. -/
def modemMachine : Machine := ⟨.s80, false, false, false, false, false⟩

/-- Two bytes on RS232A, with one turn to take. -/
def shortSend : List TxEvent :=
  [.call 0 (.txs .rs232a [0x41, 0x42]), .run 0 false 0, .run 0 false 0, .run 0 false 0,
    .run 0 false 0, .run 0 false 0, .run 0 false 0, .run 0 false 0, .run 0 false 1,
    .interrupt 2 16]

theorem transmit_keeps_stream_short :
    StreamKept (runEvents (txStep modemMachine (sCommInit modemMachine)) (txStart fun _ => 0)
      shortSend) ∧
    (runEvents (txStep modemMachine (sCommInit modemMachine)) (txStart fun _ => 0)
      shortSend).line 2 = [0x41, 0x42] := by
  have alone : ∀ v, ¬ ((txStep modemMachine (sCommInit modemMachine) (txStart fun _ => 0)
      (.call 0 (.txs .rs232a [0x41, 0x42]))).writers v).Inside 2 := by
    intro v inside
    cases v with
    | zero => exact nomatch inside.2
    | succ v => exact nomatch inside.2
  exact ⟨transmit_keeps_stream _ _ _ ⟨trivial, fun _ => ⟨alone, nofun⟩, False.elim, False.elim,
    False.elim, False.elim, False.elim, False.elim, False.elim, trivial, trivial⟩, by decide⟩

/-! ## PPP over a modem -/

theorem portTx_runs (m : Machine) (ports : CommState) (s : TxState) {w : Nat}
    (fresh : (s.writers w).phase = .unborn) {channel : Channel}
    (mapped : ports.xtab channel < PHY_UART) (ch : Byte) (room : Nat) :
    runEvents (txStep m ports) s (portTxEvents w channel ch room) =
      (uartPhySends (ports.xtab channel) room
        { rings := Function.update s.rings (ports.xtab channel)
            (((s.rings (ports.xtab channel)).store (s.rings (ports.xtab channel)).head ch).publish
              (s.rings (ports.xtab channel)).head 1)
          line := s.line
          order := Function.update s.order (ports.xtab channel)
            (s.order (ports.xtab channel) ++ [w])
          writers := Function.update s.writers w
            ⟨.sends, ports.xtab channel, [ch], s.now + 1, s.now + 1⟩
          now := s.now + 5 }).leave w 0 := by
  have begun : txStep m ports s (.call w (.tx channel ch)) =
      { s.setWriter w ⟨.tx ch, ports.xtab channel, [ch], s.now + 1, s.now + 1⟩ with
        now := s.now + 1 } := by
    unfold txStep
    dsimp only
    rw [if_pos fresh]
    simp only [TxCall.begin, portTx, if_neg (not_le.mpr mapped)]
    rfl
  unfold runEvents portTxEvents
  simp only [List.foldl_cons, List.foldl_nil, begun]
  simp only [txStep, writerStep, TxState.setWriter, TxState.setRing, TxState.go,
    Function.update_self, Function.update_idem]
  rfl

/-- What the loop of PPP has brought about on UART 0 before call `w`. -/
structure Filling (w sent onLine waiting : Nat) (s : TxState) : Prop where
  fresh : ∀ v, w ≤ v → (s.writers v).phase = .unborn
  earlier : ∀ v ∈ s.order 0, v < w
  size : (s.rings 0).size = SIO_SIZE
  sent : ((s.order 0).flatMap fun v => (s.writers v).str).length = sent
  line : (s.line 0).length = onLine
  waiting : (s.rings 0).count = waiting

theorem Filling.leave {s : TxState} {w sent onLine waiting v code : Nat}
    (filling : Filling w sent onLine waiting s) (early : v < w) :
    Filling w sent onLine waiting (s.leave v code) := by
  have text : ∀ u, ((s.leave v code).writers u).str = (s.writers u).str := fun u => by
    show (Function.update s.writers v _ u).str = _
    rw [Function.update_apply]
    split
    · next own => rw [own]
    · rfl
  refine ⟨fun u late => ?_, filling.earlier, filling.size, ?_, filling.line, filling.waiting⟩
  · show (Function.update s.writers v _ u).phase = _
    rw [Function.update_of_ne (by omega)]
    exact filling.fresh u late
  · simp only [text]
    exact filling.sent

theorem Filling.take {s : TxState} {w sent onLine : Nat} (filling : Filling w sent onLine 1 s) :
    Filling w sent (onLine + 1) 0 (fillFifo 0 1 s) := by
  have apart : (s.rings 0).tail ≠ (s.rings 0).head := fun same => by
    have none := ((s.rings 0).count_eq_zero_iff).mpr same.symm
    rw [filling.waiting] at none
    cases none
  have fewer := RingBuffer.count_drop (r := s.rings 0) (by rw [filling.waiting]; decide)
  rw [filling.waiting] at fewer
  simp only [fillFifo, if_neg apart]
  refine ⟨filling.fresh, filling.earlier, ?_, filling.sent, ?_, ?_⟩
  · simp only [Function.update_self, RingBuffer.drop_size, filling.size]
  · simp only [Function.update_self, List.length_append, filling.line, List.length_singleton]
  · simp only [Function.update_self]
    omega

/-- How one byte changes the bytes on the line and those that wait: the FIFO is full, or takes the
only byte. -/
def Fills (room : Nat) (before after : Nat × Nat) : Prop :=
  room = 0 ∧ after = (before.1, if before.2 + 1 = SIO_SIZE then 0 else before.2 + 1) ∨
    room = 1 ∧ before.2 = 0 ∧ after = (before.1 + 1, 0)

theorem Filling.portTx {m : Machine} {ports : CommState} {s : TxState} {w sent room : Nat}
    {level next : Nat × Nat} (mapped : ports.xtab .modem = 0) (ch : Byte)
    (filling : Filling w sent level.1 level.2 s) (fills : Fills room level next) :
    Filling (w + 2) (sent + 1) next.1 next.2
      (runEvents (txStep m ports) s (portTxEvents (w + 1) .modem ch room)) := by
  have pushed : ((s.rings 0).push ch).count =
      if level.2 + 1 = SIO_SIZE then 0 else level.2 + 1 := by
    have full := (s.rings 0).full_iff
    rw [filling.waiting, filling.size] at full
    split
    · next last => exact RingBuffer.count_push_full (full.mpr last) ch
    · next room => rw [RingBuffer.count_push (full.not.mpr room), filling.waiting]
  rw [portTx_runs m ports s (filling.fresh _ (Nat.le_succ w)) (by rw [mapped]; decide) ch room,
    mapped]
  refine Filling.leave ?_ (Nat.lt_succ_self _)
  have begun : Filling (w + 2) (sent + 1) level.1
      (if level.2 + 1 = SIO_SIZE then 0 else level.2 + 1)
      ⟨Function.update s.rings 0
        (((s.rings 0).store (s.rings 0).head ch).publish (s.rings 0).head 1), s.line,
        Function.update s.order 0 (s.order 0 ++ [w + 1]),
        Function.update s.writers (w + 1) ⟨.sends, 0, [ch], s.now + 1, s.now + 1⟩, s.now + 5⟩ := by
    have earlier : ∀ v ∈ s.order 0,
        Function.update s.writers (w + 1) ⟨.sends, 0, [ch], s.now + 1, s.now + 1⟩ v = s.writers v :=
      fun v member => Function.update_of_ne (by have := filling.earlier v member; omega) _ _
    constructor
    case fresh =>
      intro v late
      show (Function.update s.writers (w + 1) _ v).phase = _
      rw [Function.update_of_ne (by omega)]
      exact filling.fresh v (by omega)
    case earlier =>
      intro v member
      simp only [Function.update_self, List.mem_append, List.mem_singleton] at member
      obtain member | rfl := member
      · have := filling.earlier v member
        omega
      · omega
    case size =>
      simp only [Function.update_self]
      exact filling.size
    case sent =>
      simp only [Function.update_self, List.flatMap_append, List.length_append,
        List.flatMap_singleton, List.length_singleton]
      rw [List.flatMap_congr fun v member => by rw [earlier v member], filling.sent]
    case line => exact filling.line
    case waiting =>
      simp only [Function.update_self]
      exact pushed
  obtain ⟨rfl, rfl⟩ | ⟨rfl, none, rfl⟩ := fills
  · exact begun
  · rw [none] at begun
    exact begun.take

theorem Filling.loop {m : Machine} {ports : CommState} (modem : ports.xtab .modem = 0)
    (wnet : ports.xtab .wnet ≠ 0) (ch : Byte) (room : Nat) (rest : List (Byte × Nat)) :
    ∀ (n : Nat) (level : Nat → Nat × Nat) {s : TxState} {w sent : Nat},
      (∀ k < n, Fills room (level k) (level (k + 1))) →
      Filling w sent (level 0).1 (level 0).2 s →
      ∃ t w', Filling w' (sent + n) (level n).1 (level n).2 t ∧
        runEvents (txStep m ports) s (pppComIrqTx ports 0 w (List.replicate n (ch, room) ++ rest)) =
          runEvents (txStep m ports) t (pppComIrqTx ports 0 w' rest)
  | 0, _, s, w, _, _, filling => ⟨s, w, filling, rfl⟩
  | n + 1, level, s, w, sent, fills, filling => by
    have next := filling.portTx (m := m) modem ch (fills 0 (Nat.succ_pos n))
    obtain ⟨t, w', later, same⟩ := Filling.loop modem wnet ch room rest n (fun k => level (k + 1))
      (fun k early => fills (k + 1) (Nat.succ_lt_succ early)) next
    refine ⟨t, w', ?_, ?_⟩
    · rwa [Nat.add_assoc, Nat.add_comm 1 n] at later
    · rw [List.replicate_succ, List.cons_append, pppComIrqTx, if_neg wnet.symm, if_pos modem.symm,
        List.nil_append, runEvents, List.foldl_append]
      exact same

/-- PPP over the modem gives `ppp_com_irq_tx` 8225 characters while the line takes 32 of them. -/
def pppOverrun : List TxEvent :=
  pppComIrqTx (sCommInit modemMachine) 0 0
    (List.replicate 32 (0x7e, 1) ++ (List.replicate 8193 (0x7e, 0) ++ []))

/-- **PPP overruns the buffer of the modem**: `PortTx` makes a full buffer an empty one and returns
0, so that 8193 bytes are lost. -/
theorem pppComIrqTx_overruns : ¬ StreamKept
    (runEvents (txStep modemMachine (sCommInit modemMachine)) (txStart fun _ => 0) pppOverrun) := by
  intro kept
  have start : Filling 0 0 0 0 (txStart fun _ => 0) := by
    refine ⟨fun _ _ => rfl, ?_, rfl, rfl, rfl, ?_⟩
    · nofun
    · rw [RingBuffer.count_eq_zero_iff]
      rfl
  obtain ⟨s, w, first, run⟩ := @Filling.loop modemMachine (sCommInit modemMachine)
    rfl (by decide) 0x7e 1 (List.replicate 8193 (0x7e, 0) ++ []) 32 (fun k => (k, 0)) _ _ _
    (fun k _ => .inr ⟨rfl, rfl, rfl⟩) start
  obtain ⟨t, w', second, run'⟩ := @Filling.loop modemMachine (sCommInit modemMachine)
    rfl (by decide) 0x7e 0 [] 8193 (fun k => (32, k % 8193)) _ _ _
    (fun k early => .inl ⟨rfl, by
      rw [Nat.mod_eq_of_lt early, RingBuffer.next_eq early]
      rfl⟩) first
  rw [pppOverrun, run, run'] at kept
  have lengths := congrArg List.length (kept.stream 0)
  simp only [pppComIrqTx, runEvents, List.foldl_nil, List.length_append, second.line,
    RingBuffer.length_contents, second.waiting, second.sent] at lengths
  omega

end PosFirmware.Comm
