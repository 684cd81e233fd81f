import Mathlib.Data.Nat.ModEq
import PosFirmware.Bluetooth.QueueSteps

/-! # The queue is a bounded FIFO

An invariant of every read and write of both tasks (`Invariant`), and what follows for a run
(`queue_fifo`): as long as the queue is not emptied between the two reads of `tail` in `QuePuts`,
the bytes taken are the first of those stored, and each call returns how many it moved.
-/

namespace PosFirmware.Bluetooth.Concurrent

open PosFirmware.Foundation

variable {size : Nat} {s : State}

/-! ## Places -/

theorem intAdd_eq {a b : Int} (low : -(2 ^ 31) ≤ a + b) (high : a + b < 2 ^ 31) : intAdd a b = a + b :=
  Int.bmod_eq_of_le (by omega) (by omega)

theorem distance_eq (small : size ≤ 2 ^ 30) {low high : Nat} (order : low ≤ high)
    (near : high < low + size) : distance size (low % size) (high % size) = high - low := by
  have some_ : 0 < size := by omega
  have lowIn := Nat.mod_lt low some_
  have highIn := Nat.mod_lt high some_
  have inner : intAdd (high % size : Nat) size = (high % size : Nat) + size :=
    intAdd_eq (by omega) (by omega)
  have outer : intAdd ((high % size : Nat) + size) (-(low % size : Nat)) =
      ((high % size + size - low % size : Nat) : Int) := by
    rw [intAdd_eq (by omega) (by omega)]
    omega
  have rest : (high % size + size - low % size) % size = high - low := by
    obtain ⟨d, rfl⟩ : ∃ d, high = low + d := ⟨high - low, by omega⟩
    have same : (low + d) % size = (low % size + d) % size := (Nat.mod_add_mod low size d).symm
    by_cases wraps : low % size + d < size
    · rw [same, Nat.mod_eq_of_lt wraps,
        show low % size + d + size - low % size = d + size by omega, Nat.add_mod_right,
        Nat.mod_eq_of_lt (by omega)]
      omega
    · have wrapped : (low + d) % size = low % size + d - size := by
        rw [same, Nat.mod_eq_sub_mod (by omega), Nat.mod_eq_of_lt (by omega)]
      rw [wrapped, show low % size + d - size + size - low % size = d by omega,
        Nat.mod_eq_of_lt (by omega)]
      omega
  rw [distance, inner, outer, ← Int.ofNat_tmod, rest, Int.natCast_sub order]

theorem mod_ne {low high : Nat} (order : low < high) (near : high < low + size) :
    low % size ≠ high % size := by
  intro same
  have divides := (Nat.modEq_iff_dvd' (Nat.le_of_lt order)).mp same
  have := Nat.le_of_dvd (by omega) divides
  omega

theorem mod_succ (n : Nat) : (n % size + 1) % size = (n + 1) % size := Nat.mod_add_mod n size 1

/-! ## The invariant -/

/-- What a producer relies on: what it has read of `head` is still so, and what it has read of
`tail` says that there is room for what it will store. -/
def ProducerOk (size stored taken : Nat) (buf : Nat → Byte) : Producer → Prop
  | .idle | .putsHead _ | .putsTailAgain _ | .putcHead _ => True
  | .putsTail _ head | .putcTail _ head => head = stored % size
  | .putsHeadAgain _ tail =>
      ∃ taken' ≤ taken, tail = taken' % size ∧ taken' < stored ∧ stored < taken' + size
  | .place iLen moved _ rest =>
      iLen = moved + (rest.length + 1) ∧ stored + (rest.length + 1) < taken + size
  | .store iLen moved _ rest head => iLen = moved + (rest.length + 1) ∧
      stored + (rest.length + 1) < taken + size ∧ head = stored % size
  | .next iLen moved ch rest => iLen = moved + (rest.length + 1) ∧
      stored + (rest.length + 1) < taken + size ∧ buf (stored % size) = ch
  | .publish iLen moved ch rest head => iLen = moved + (rest.length + 1) ∧
      stored + (rest.length + 1) < taken + size ∧ buf (stored % size) = ch ∧ head = stored % size

/-- What a consumer relies on: what it has read of `tail` is still so, and what it has read of
`head` says that what it will take is there. -/
def ConsumerOk (size : Nat) (produced : List Byte) (taken : Nat) : Consumer → Prop
  | .idle | .getsHead _ | .getcHead | .peekTail _ => True
  | .getsTail _ head | .getcTail head =>
      ∃ stored', taken ≤ stored' ∧ stored' ≤ produced.length ∧ stored' < taken + size ∧
        head = stored' % size
  | .place iLen moved left =>
      iLen = moved + (left + 1) ∧ taken + (left + 1) ≤ produced.length
  | .load iLen moved left tail => iLen = moved + (left + 1) ∧
      taken + (left + 1) ≤ produced.length ∧ tail = taken % size
  | .next iLen moved left ch => iLen = moved + (left + 1) ∧
      taken + (left + 1) ≤ produced.length ∧ produced[taken]? = some ch
  | .publish iLen moved left ch tail => iLen = moved + (left + 1) ∧
      taken + (left + 1) ≤ produced.length ∧ produced[taken]? = some ch ∧ tail = taken % size
  | .peekHead _ tail => tail = taken % size
  | .peek iLen seen left tail => iLen = seen.length + (left + 1) ∧
      taken + (seen.length + (left + 1)) ≤ produced.length ∧ tail = (taken + seen.length) % size ∧
        seen = (produced.drop taken).take seen.length

/-- The bytes that a call to peek stored are those that were to be taken next. -/
def Peeked.Right (produced : List Byte) (peeked : Peeked) : Prop :=
  peeked.iLen = peeked.seen.length ∧ peeked.before + peeked.seen.length ≤ produced.length ∧
    peeked.seen = (produced.drop peeked.before).take peeked.seen.length

/-- What holds of the queue, whatever the tasks are doing. -/
structure Sound (size : Nat) (s : State) : Prop where
  head_eq : s.head = s.produced.length % size
  tail_eq : s.tail = s.consumed.length % size
  order : s.consumed.length ≤ s.produced.length
  room : s.produced.length < s.consumed.length + size
  slots : ∀ k, s.consumed.length ≤ k → k < s.produced.length →
    s.produced[k]? = some (s.buf (k % size))
  fifo : s.consumed = s.produced.take s.consumed.length
  returns : ∀ call ∈ s.returned, call.1 = call.2
  peeks : ∀ peeked ∈ s.peeked, peeked.Right s.produced

structure Invariant (size : Nat) (s : State) : Prop where
  sound : Sound size s
  producer : ProducerOk size s.produced.length s.consumed.length s.buf s.producer
  consumer : ConsumerOk size s.produced s.consumed.length s.consumer

theorem invariant_init (two : 2 ≤ size) (buf : Nat → Byte) : Invariant size (queInit buf) := by
  refine ⟨⟨(Nat.zero_mod size).symm, (Nat.zero_mod size).symm, Nat.le_refl 0, ?_, ?_, rfl, ?_, ?_⟩,
    trivial, trivial⟩
  · change 0 < 0 + size
    omega
  · intro k _ below
    exact absurd below (Nat.not_lt_zero k)
  · exact fun call member => absurd member List.not_mem_nil
  · exact fun peeked member => absurd member List.not_mem_nil

/-! ### What the other task leaves -/

theorem ProducerOk.taken {stored taken taken' : Nat} {buf : Nat → Byte} {producer : Producer}
    (more : taken ≤ taken') (ok : ProducerOk size stored taken buf producer) :
    ProducerOk size stored taken' buf producer := by
  cases producer with
  | idle => trivial
  | putsHead => trivial
  | putsTailAgain => trivial
  | putcHead => trivial
  | putsTail => exact ok
  | putcTail => exact ok
  | putsHeadAgain data tail =>
      obtain ⟨seen, before, rest⟩ := ok
      exact ⟨seen, Nat.le_trans before more, rest⟩
  | place iLen moved ch rest => exact ⟨ok.1, by have := ok.2; omega⟩
  | store iLen moved ch rest head => exact ⟨ok.1, by have := ok.2.1; omega, ok.2.2⟩
  | next iLen moved ch rest => exact ⟨ok.1, by have := ok.2.1; omega, ok.2.2⟩
  | publish iLen moved ch rest head => exact ⟨ok.1, by have := ok.2.1; omega, ok.2.2⟩

theorem take_drop_append {produced : List Byte} {ch : Byte} {before count : Nat}
    (inside : before + count ≤ produced.length) :
    ((produced ++ [ch]).drop before).take count = (produced.drop before).take count := by
  rw [List.drop_append_of_le_length (by omega), List.take_append_of_le_length]
  rw [List.length_drop]
  omega

theorem ConsumerOk.stored {produced : List Byte} {taken : Nat} {consumer : Consumer} (ch : Byte)
    (ok : ConsumerOk size produced taken consumer) :
    ConsumerOk size (produced ++ [ch]) taken consumer := by
  have longer : (produced ++ [ch]).length = produced.length + 1 := List.length_append
  have same {k : Nat} {b : Byte} (there : produced[k]? = some b) : (produced ++ [ch])[k]? = some b := by
    rw [List.getElem?_append_left (List.getElem?_eq_some_iff.mp there).1, there]
  cases consumer with
  | idle => trivial
  | getsHead => trivial
  | getcHead => trivial
  | peekTail => trivial
  | getsTail count head =>
      obtain ⟨seen, above, below, near, rfl⟩ := ok
      exact ⟨seen, above, by omega, near, rfl⟩
  | getcTail head =>
      obtain ⟨seen, above, below, near, rfl⟩ := ok
      exact ⟨seen, above, by omega, near, rfl⟩
  | place iLen moved left => exact ⟨ok.1, by have := ok.2; omega⟩
  | load iLen moved left tail => exact ⟨ok.1, by have := ok.2.1; omega, ok.2.2⟩
  | next iLen moved left b => exact ⟨ok.1, by have := ok.2.1; omega, same ok.2.2⟩
  | publish iLen moved left b tail =>
      exact ⟨ok.1, by have := ok.2.1; omega, same ok.2.2.1, ok.2.2.2⟩
  | peekHead => exact ok
  | peek iLen seen left tail =>
      obtain ⟨total, there, place, seen_eq⟩ := ok
      refine ⟨total, by omega, place, ?_⟩
      rw [take_drop_append (by omega)]
      exact seen_eq

/-! ### A step of the producer -/

theorem Sound.putsLoop (sound : Sound size s)
    (consumer : ConsumerOk size s.produced s.consumed.length s.consumer) {iLen : Int} {moved : Nat}
    {rest : List Byte} (total : iLen = moved + rest.length)
    (room : s.produced.length + rest.length < s.consumed.length + size) :
    Invariant size (s.putsLoop iLen moved rest) := by
  cases rest with
  | nil =>
      refine ⟨⟨sound.head_eq, sound.tail_eq, sound.order, sound.room, sound.slots, sound.fifo, ?_,
        sound.peeks⟩, trivial, consumer⟩
      intro call member
      rcases List.mem_append.mp member with before | last
      · exact sound.returns call before
      · rw [List.mem_singleton.mp last]
        exact total
  | cons ch rest =>
      exact ⟨⟨sound.head_eq, sound.tail_eq, sound.order, sound.room, sound.slots, sound.fifo,
        sound.returns, sound.peeks⟩, ⟨total, room⟩, consumer⟩

theorem Sound.putsLen (sound : Sound size s)
    (consumer : ConsumerOk size s.produced s.consumed.length s.consumer) (data : List Byte)
    {free : Nat} (room : s.produced.length + free < s.consumed.length + size) :
    Invariant size (s.putsLen data free) := by
  unfold State.putsLen
  split
  · refine sound.putsLoop consumer ?_ (by omega)
    omega
  · have cut : (data.take (free : Int).toNat).length = free := by
      rw [List.length_take]
      omega
    refine sound.putsLoop consumer ?_ (by rwa [cut])
    rw [cut]
    omega

/-- The producer is about to read `tail` a second time. -/
def Producer.readsTailAgain : Producer → Bool
  | .putsTailAgain _ => true
  | _ => false

/-- The second read of `tail` in `QuePuts` finds bytes in the queue. -/
def KeepsBytes (s : State) : Event → Prop
  | .produce => s.producer.readsTailAgain = true → s.tail ≠ s.head
  | _ => True

instance KeepsBytes.decidable (s : State) : (event : Event) → Decidable (KeepsBytes s event)
  | .produce => inferInstanceAs (Decidable (_ → _))
  | .puts _ | .putc _ | .gets _ | .getc | .getsWithoutDelete _ | .consume => isTrue trivial

theorem Invariant.produce (small : size ≤ 2 ^ 30) (invariant : Invariant size s)
    (keeps : KeepsBytes s .produce) : Invariant size (producerStep size s) := by
  obtain ⟨sound, producer, consumer⟩ := invariant
  have fields := sound
  obtain ⟨head_eq, tail_eq, order, room, slots, fifo, returns, peeks⟩ := fields
  have some_ : 0 < size := by omega
  unfold producerStep
  unfold KeepsBytes at keeps
  cases at_ : s.producer with
  | idle => exact ⟨sound, by rw [at_]; trivial, consumer⟩
  | putsHead data =>
      exact ⟨⟨head_eq, tail_eq, order, room, slots, fifo, returns, peeks⟩, head_eq, consumer⟩
  | putsTail data head =>
      rw [at_] at producer
      dsimp only
      split
      · rename_i same
        -- the queue is empty
        have empty : s.produced.length = s.consumed.length := by
          by_contra some_
          refine @mod_ne size _ _ (Nat.lt_of_le_of_ne order (Ne.symm some_)) room ?_
          rw [← tail_eq, ← same]
          exact producer
        have free : ((size : Int) - 1) = (size - 1 : Nat) := by omega
        rw [free]
        exact sound.putsLen consumer data (by omega)
      · exact ⟨⟨head_eq, tail_eq, order, room, slots, fifo, returns, peeks⟩, trivial, consumer⟩
  | putsTailAgain data =>
      rw [at_] at keeps
      refine ⟨⟨head_eq, tail_eq, order, room, slots, fifo, returns, peeks⟩,
        ⟨s.consumed.length, Nat.le_refl _, tail_eq, Nat.lt_of_le_of_ne order ?_, room⟩, consumer⟩
      intro same
      exact keeps rfl (by rw [head_eq, tail_eq, same])
  | putsHeadAgain data tail =>
      rw [at_] at producer
      obtain ⟨taken', before, rfl, some_, near⟩ := producer
      have free : distance size s.head (taken' % size) - 1 =
          (taken' + size - 1 - s.produced.length : Nat) := by
        rw [head_eq, ← Nat.add_mod_right taken', distance_eq small (by omega) (by omega)]
        omega
      dsimp only
      rw [free]
      exact sound.putsLen consumer data (by omega)
  | putcHead ch =>
      exact ⟨⟨head_eq, tail_eq, order, room, slots, fifo, returns, peeks⟩, head_eq, consumer⟩
  | putcTail ch head =>
      rw [at_] at producer
      dsimp only
      split
      · refine ⟨⟨head_eq, tail_eq, order, room, slots, fifo, ?_, peeks⟩, trivial, consumer⟩
        intro call member
        rcases List.mem_append.mp member with before | last
        · exact returns call before
        · rw [List.mem_singleton.mp last]
          rfl
      · rename_i different
        refine sound.putsLoop consumer rfl ?_
        by_contra full
        refine different ?_
        have same : s.produced.length + 1 = s.consumed.length + size := by
          rw [List.length_singleton] at full
          omega
        rw [show head = s.produced.length % size from producer, mod_succ, same, Nat.add_mod_right, tail_eq]
  | place iLen moved ch rest =>
      rw [at_] at producer
      exact ⟨⟨head_eq, tail_eq, order, room, slots, fifo, returns, peeks⟩,
        ⟨producer.1, producer.2, head_eq⟩, consumer⟩
  | store iLen moved ch rest head =>
      rw [at_] at producer
      obtain ⟨total, fits, rfl⟩ := producer
      have others (k : Nat) (above : s.consumed.length ≤ k) (below : k < s.produced.length) :
          s.produced[k]? = some (if k % size = s.produced.length % size then ch
            else s.buf (k % size)) := by
        rw [slots k above below, if_neg (mod_ne below (by omega))]
      exact ⟨⟨head_eq, tail_eq, order, room, others, fifo, returns, peeks⟩,
        ⟨total, fits, if_pos rfl⟩, consumer⟩
  | next iLen moved ch rest =>
      rw [at_] at producer
      exact ⟨⟨head_eq, tail_eq, order, room, slots, fifo, returns, peeks⟩,
        ⟨producer.1, producer.2.1, producer.2.2, head_eq⟩, consumer⟩
  | publish iLen moved ch rest head =>
      rw [at_] at producer
      obtain ⟨total, fits, there, rfl⟩ := producer
      have longer : (s.produced ++ [ch]).length = s.produced.length + 1 := List.length_append
      have stored (k : Nat) (above : s.consumed.length ≤ k) (below : k < (s.produced ++ [ch]).length) :
          (s.produced ++ [ch])[k]? = some (s.buf (k % size)) := by
        by_cases last : k = s.produced.length
        · rw [last, List.getElem?_append_right (Nat.le_refl _), Nat.sub_self, there]
          rfl
        · rw [List.getElem?_append_left (by omega)]
          exact slots k above (by omega)
      have seen (peeked : Peeked) (member : peeked ∈ s.peeked) : peeked.Right (s.produced ++ [ch]) := by
        obtain ⟨count, inside, seen⟩ := peeks peeked member
        refine ⟨count, by omega, ?_⟩
        rw [take_drop_append inside]
        exact seen
      have advanced : Sound size
          { s with head := (s.produced.length % size + 1) % size, produced := s.produced ++ [ch] } := by
        refine ⟨?_, tail_eq, ?_, ?_, stored, ?_, returns, seen⟩
        · change (s.produced.length % size + 1) % size = (s.produced ++ [ch]).length % size
          rw [mod_succ, longer]
        · change s.consumed.length ≤ (s.produced ++ [ch]).length
          omega
        · change (s.produced ++ [ch]).length < s.consumed.length + size
          omega
        · change s.consumed = (s.produced ++ [ch]).take s.consumed.length
          rw [List.take_append_of_le_length order]
          exact fifo
      refine advanced.putsLoop (consumer.stored ch) (by omega) ?_
      change (s.produced ++ [ch]).length + rest.length < s.consumed.length + size
      omega

/-! ### A step of the consumer -/

theorem Sound.getsLoop (sound : Sound size s)
    (producer : ProducerOk size s.produced.length s.consumed.length s.buf s.producer) {iLen : Int}
    {moved left : Nat} (total : iLen = moved + left)
    (there : s.consumed.length + left ≤ s.produced.length) :
    Invariant size (s.getsLoop iLen moved left) := by
  cases left with
  | zero =>
      refine ⟨⟨sound.head_eq, sound.tail_eq, sound.order, sound.room, sound.slots, sound.fifo, ?_,
        sound.peeks⟩, producer, trivial⟩
      intro call member
      rcases List.mem_append.mp member with before | last
      · exact sound.returns call before
      · rw [List.mem_singleton.mp last]
        exact total
  | succ left =>
      exact ⟨⟨sound.head_eq, sound.tail_eq, sound.order, sound.room, sound.slots, sound.fifo,
        sound.returns, sound.peeks⟩, producer, ⟨total, there⟩⟩

theorem Sound.peekLoop (sound : Sound size s)
    (producer : ProducerOk size s.produced.length s.consumed.length s.buf s.producer) {iLen : Int}
    {seen : List Byte} {left tail : Nat} (total : iLen = seen.length + left)
    (there : s.consumed.length + (seen.length + left) ≤ s.produced.length)
    (place : tail = (s.consumed.length + seen.length) % size)
    (right : seen = (s.produced.drop s.consumed.length).take seen.length) :
    Invariant size (s.peekLoop iLen seen tail left) := by
  cases left with
  | zero =>
      refine ⟨⟨sound.head_eq, sound.tail_eq, sound.order, sound.room, sound.slots, sound.fifo,
        sound.returns, ?_⟩, producer, trivial⟩
      intro peeked member
      rcases List.mem_append.mp member with before | last
      · exact sound.peeks peeked before
      · rw [List.mem_singleton.mp last]
        exact ⟨total, there, right⟩
  | succ left =>
      exact ⟨⟨sound.head_eq, sound.tail_eq, sound.order, sound.room, sound.slots, sound.fifo,
        sound.returns, sound.peeks⟩, producer, ⟨total, there, place, right⟩⟩

theorem atMost_eq (count n : Nat) : atMost count n = (min count n : Nat) := by
  unfold atMost
  split <;> omega

theorem Invariant.consume (small : size ≤ 2 ^ 30) (invariant : Invariant size s) :
    Invariant size (consumerStep size s) := by
  obtain ⟨sound, producer, consumer⟩ := invariant
  have fields := sound
  obtain ⟨head_eq, tail_eq, order, room, slots, fifo, returns, peeks⟩ := fields
  unfold consumerStep
  cases at_ : s.consumer with
  | idle => exact ⟨sound, producer, by rw [at_]; trivial⟩
  | getsHead count =>
      exact ⟨⟨head_eq, tail_eq, order, room, slots, fifo, returns, peeks⟩, producer,
        ⟨s.produced.length, order, Nat.le_refl _, room, head_eq⟩⟩
  | getsTail count head =>
      rw [at_] at consumer
      obtain ⟨stored', above, below, near, rfl⟩ := consumer
      have iLen : atMost count (distance size s.tail (stored' % size)) =
          (min count (stored' - s.consumed.length) : Nat) := by
        rw [tail_eq, distance_eq small above near, ← Int.natCast_sub above, atMost_eq]
      dsimp only
      rw [iLen, Int.toNat_natCast]
      exact sound.getsLoop producer (by omega) (by omega)
  | getcHead =>
      exact ⟨⟨head_eq, tail_eq, order, room, slots, fifo, returns, peeks⟩, producer,
        ⟨s.produced.length, order, Nat.le_refl _, room, head_eq⟩⟩
  | getcTail head =>
      rw [at_] at consumer
      obtain ⟨stored', above, below, near, rfl⟩ := consumer
      dsimp only
      split
      · refine ⟨⟨head_eq, tail_eq, order, room, slots, fifo, ?_, peeks⟩, producer, trivial⟩
        intro call member
        rcases List.mem_append.mp member with before | last
        · exact returns call before
        · rw [List.mem_singleton.mp last]
          rfl
      · rename_i different
        have some_ : s.consumed.length ≠ stored' := by
          rintro rfl
          exact different tail_eq.symm
        exact sound.getsLoop producer rfl (by omega)
  | place iLen moved left =>
      rw [at_] at consumer
      exact ⟨⟨head_eq, tail_eq, order, room, slots, fifo, returns, peeks⟩, producer,
        ⟨consumer.1, consumer.2, tail_eq⟩⟩
  | load iLen moved left tail =>
      rw [at_] at consumer
      obtain ⟨total, there, rfl⟩ := consumer
      have here := slots s.consumed.length (Nat.le_refl _) (by omega)
      exact ⟨⟨head_eq, tail_eq, order, room, slots, fifo, returns, peeks⟩, producer,
        ⟨total, there, here⟩⟩
  | next iLen moved left ch =>
      rw [at_] at consumer
      exact ⟨⟨head_eq, tail_eq, order, room, slots, fifo, returns, peeks⟩, producer,
        ⟨consumer.1, consumer.2.1, consumer.2.2, tail_eq⟩⟩
  | publish iLen moved left ch tail =>
      rw [at_] at consumer
      obtain ⟨total, there, here, rfl⟩ := consumer
      have longer : (s.consumed ++ [ch]).length = s.consumed.length + 1 := List.length_append
      have advanced : Sound size
          { s with tail := (s.consumed.length % size + 1) % size, consumed := s.consumed ++ [ch] } := by
        refine ⟨head_eq, ?_, ?_, ?_, fun k above below => slots k ?_ below, ?_, returns, peeks⟩
        · change (s.consumed.length % size + 1) % size = (s.consumed ++ [ch]).length % size
          rw [mod_succ, longer]
        · change (s.consumed ++ [ch]).length ≤ s.produced.length
          omega
        · change s.produced.length < (s.consumed ++ [ch]).length + size
          omega
        · have above' : (s.consumed ++ [ch]).length ≤ k := above
          omega
        · change s.consumed ++ [ch] = s.produced.take (s.consumed ++ [ch]).length
          rw [longer, List.take_add_one, here, ← fifo]
          rfl
      refine advanced.getsLoop ?_ (by omega) ?_
      · exact producer.taken (show s.consumed.length ≤ (s.consumed ++ [ch]).length by omega)
      · change (s.consumed ++ [ch]).length + left ≤ s.produced.length
        omega
  | peekTail count =>
      exact ⟨⟨head_eq, tail_eq, order, room, slots, fifo, returns, peeks⟩, producer, tail_eq⟩
  | peekHead count tail =>
      rw [at_] at consumer
      have iLen : atMost count (distance size tail s.head) =
          (min count (s.produced.length - s.consumed.length) : Nat) := by
        rw [show tail = s.consumed.length % size from consumer, head_eq, distance_eq small order room,
          ← Int.natCast_sub order, atMost_eq]
      dsimp only
      rw [iLen, Int.toNat_natCast]
      refine sound.peekLoop producer ?_ ?_ consumer rfl
      · rw [List.length_nil]
        omega
      · rw [List.length_nil]
        omega
  | peek iLen seen left tail =>
      rw [at_] at consumer
      obtain ⟨total, there, rfl, right⟩ := consumer
      have longer (ch : Byte) : (seen ++ [ch]).length = seen.length + 1 := List.length_append
      refine sound.peekLoop producer ?_ ?_ ?_ ?_
      · rw [longer]
        omega
      · rw [longer]
        omega
      · rw [mod_succ, longer, Nat.add_assoc]
      · rw [longer, List.take_add_one, List.getElem?_drop, slots _ (by omega) (by omega), ← right]
        rfl

/-! ## Runs -/

theorem Invariant.step (small : size ≤ 2 ^ 30) (invariant : Invariant size s) (event : Event)
    (keeps : KeepsBytes s event) : Invariant size (Concurrent.step size s event) := by
  obtain ⟨sound, producer, consumer⟩ := invariant
  have putBegins {next : Producer}
      (ok : ProducerOk size s.produced.length s.consumed.length s.buf next) :
      Invariant size (s.beginPut next) := by
    unfold State.beginPut
    split
    · exact ⟨⟨sound.head_eq, sound.tail_eq, sound.order, sound.room, sound.slots, sound.fifo,
        sound.returns, sound.peeks⟩, ok, consumer⟩
    · exact ⟨sound, producer, consumer⟩
  have getBegins {next : Consumer} (ok : ConsumerOk size s.produced s.consumed.length next) :
      Invariant size (s.beginGet next) := by
    unfold State.beginGet
    split
    · exact ⟨⟨sound.head_eq, sound.tail_eq, sound.order, sound.room, sound.slots, sound.fifo,
        sound.returns, sound.peeks⟩, producer, ok⟩
    · exact ⟨sound, producer, consumer⟩
  cases event with
  | puts data => exact putBegins trivial
  | putc ch => exact putBegins trivial
  | produce => exact Invariant.produce small ⟨sound, producer, consumer⟩ keeps
  | gets count => exact getBegins trivial
  | getc => exact getBegins trivial
  | getsWithoutDelete count => exact getBegins trivial
  | consume => exact Invariant.consume small ⟨sound, producer, consumer⟩

/-! ## A call alone -/

/-- Some steps of the producer alone. -/
def Alone (size : Nat) (s s' : State) : Prop :=
  ∃ k, runEvents (step size) s (List.replicate k .produce) = s'

theorem Alone.cons {s' : State} (alone : Alone size (producerStep size s) s') : Alone size s s' := by
  obtain ⟨k, runs⟩ := alone
  exact ⟨k + 1, runs⟩

theorem putsLoop_alone (iLen : Int) (moved : Nat) (rest : List Byte) : ∃ s',
    Alone size (s.putsLoop iLen moved rest) s' ∧ s'.producer = .idle ∧
      s'.returned = s.returned ++ [(iLen, moved + rest.length)] ∧
      s'.produced = s.produced ++ rest := by
  induction rest generalizing s moved with
  | nil => exact ⟨s.putsReturn iLen moved, ⟨0, rfl⟩, rfl, rfl, (List.append_nil _).symm⟩
  | cons ch rest ih =>
      let stored : State := { s with
        head := (s.head + 1) % size
        buf := fun i => if i = s.head then ch else s.buf i
        producer := .publish iLen moved ch rest s.head
        produced := s.produced ++ [ch] }
      obtain ⟨s', alone, idle, returned, produced⟩ := @ih stored (moved + 1)
      refine ⟨s', alone.cons.cons.cons.cons, idle, ?_, ?_⟩
      · rw [returned, List.length_cons, Nat.add_right_comm, Nat.add_assoc]
      · rw [produced]
        exact List.append_assoc _ _ _

/-- What a call to store bytes leaves. -/
structure Accepted (s s' : State) (data : List Byte) (count : Nat) : Prop where
  idle : s'.producer = .idle
  returned : s'.returned = s.returned ++ [((count : Int), count)]
  produced : s'.produced = s.produced ++ data.take count

theorem putsLen_alone (data : List Byte) (free : Nat) : ∃ s',
    Alone size (s.putsLen data free) s' ∧ Accepted s s' data (min data.length free) := by
  unfold State.putsLen
  split
  · obtain ⟨s', alone, idle, returned, produced⟩ := @putsLoop_alone size s data.length 0 data
    have all : min data.length free = data.length := by omega
    refine ⟨s', alone, idle, ?_, ?_⟩
    · rw [returned, all, Nat.zero_add]
    · rw [produced, all, List.take_length]
  · obtain ⟨s', alone, idle, returned, produced⟩ :=
      @putsLoop_alone size s free 0 (data.take (free : Int).toNat)
    have part : min data.length free = free := by omega
    refine ⟨s', alone, idle, ?_, ?_⟩
    · rw [returned, part, Int.toNat_natCast, List.length_take, Nat.zero_add, Nat.min_comm, part]
    · rw [produced, part, Int.toNat_natCast]

theorem putsLen_producer (producer : Producer) (data : List Byte) (iLen : Int) :
    { s with producer := producer }.putsLen data iLen = s.putsLen data iLen := by
  have loop (iLen : Int) (rest : List Byte) :
      { s with producer := producer }.putsLoop iLen 0 rest = s.putsLoop iLen 0 rest := by
    cases rest <;> rfl
  unfold State.putsLen
  rw [loop, loop]

theorem capability_eq (small : size ≤ 2 ^ 30) (sound : Sound size s) : queCheckCapability size s =
    (size - 1 - (s.produced.length - s.consumed.length) : Nat) := by
  have order := sound.order
  have room := sound.room
  unfold queCheckCapability
  by_cases empty : s.produced.length = s.consumed.length
  · rw [if_pos (by rw [sound.head_eq, sound.tail_eq, empty])]
    omega
  · have different : s.head ≠ s.tail := by
      rw [sound.head_eq, sound.tail_eq]
      exact (mod_ne (by omega) room).symm
    rw [if_neg different, sound.head_eq, sound.tail_eq, ← Nat.add_mod_right s.consumed.length,
      distance_eq small (by omega) (by omega)]
    omega

/-- While no task is in a call, the next `QuePuts` alone accepts as many bytes as
`QueCheckCapability` says. -/
theorem Invariant.puts_alone (small : size ≤ 2 ^ 30) (invariant : Invariant size s)
    (idle : s.producer = .idle) (data : List Byte) : ∃ s' count,
    Alone size (Concurrent.step size s (.puts data)) s' ∧ Accepted s s' data count ∧
      (count : Int) = min (data.length : Int) (queCheckCapability size s) := by
  have cap := capability_eq small invariant.sound
  have counts : ((min data.length (size - 1 - (s.produced.length - s.consumed.length)) : Nat) : Int) =
      min (data.length : Int) (queCheckCapability size s) := by
    rw [cap]
    omega
  have begins : Concurrent.step size s (.puts data) = { s with producer := .putsHead data } := by
    simp only [Concurrent.step, State.beginPut, idle]
  obtain ⟨s', alone, accepted⟩ := @putsLen_alone size s data
    (size - 1 - (s.produced.length - s.consumed.length))
  refine ⟨s', _, ?_, accepted, counts⟩
  rw [← cap, ← putsLen_producer (.putsTail data s.head)] at alone
  rw [begins]
  refine Alone.cons (Alone.cons ?_)
  unfold queCheckCapability at alone
  by_cases empty : s.head = s.tail
  · rw [if_pos empty] at alone
    have reads : producerStep size (producerStep size { s with producer := .putsHead data }) =
        { s with producer := .putsTail data s.head }.putsLen data (size - 1) := if_pos empty
    rwa [reads]
  · rw [if_neg empty, putsLen_producer] at alone
    have reads : producerStep size (producerStep size { s with producer := .putsHead data }) =
        { s with producer := .putsTailAgain data } := if_neg empty
    rw [reads]
    refine Alone.cons (Alone.cons ?_)
    rw [← putsLen_producer (.putsHeadAgain data s.tail)] at alone
    exact alone

/-- **The queue is a bounded FIFO.** For every size and every interleaving of the reads and writes
of a producer and a consumer in which no `QuePuts` finds the queue emptied at its second read of
`tail`: the bytes taken are the first of the bytes stored, in order, at most `size - 1` are in the
queue, every call returns how many bytes it moved, a peek stores what is to be taken next, and
between calls `QueCheckCapability` is what the next `QuePuts` accepts. -/
theorem queue_fifo (two : 2 ≤ size) (small : size ≤ 2 ^ 30) (buf : Nat → Byte) (events : List Event)
    (keeps : Meets (step size) KeepsBytes (queInit buf) events) :
    let s := runEvents (step size) (queInit buf) events
    s.consumed <+: s.produced ∧ s.produced.length - s.consumed.length ≤ size - 1 ∧
      (∀ call ∈ s.returned, call.1 = call.2) ∧ (∀ peeked ∈ s.peeked, peeked.Right s.produced) ∧
      (s.producer = .idle → s.consumer = .idle → ∀ data, ∃ s' count,
        Alone size (step size s (.puts data)) s' ∧ Accepted s s' data count ∧
          (count : Int) = min (data.length : Int) (queCheckCapability size s)) := by
  intro s
  have invariant : Invariant size s :=
    runEvents_keeps (fun _ event invariant keeps => invariant.step small event keeps)
      (invariant_init two buf) keeps
  refine ⟨?_, ?_, invariant.sound.returns, invariant.sound.peeks, fun idle _ data =>
    invariant.puts_alone small idle data⟩
  · rw [invariant.sound.fifo]
    exact List.take_prefix _ _
  · have room := invariant.sound.room
    omega

/-- A byte that is stored, looked at and taken. -/
def oneByte : List Event :=
  .puts [7] :: List.replicate 6 .produce ++ .getsWithoutDelete 1 :: List.replicate 3 .consume ++
    .gets 5 :: List.replicate 6 .consume

theorem queue_fifo_byte : let s := runEvents (step 2) (queInit fun _ => 0) oneByte
    s.consumed <+: s.produced ∧ s.produced.length - s.consumed.length ≤ 2 - 1 ∧
      (∀ call ∈ s.returned, call.1 = call.2) ∧ (∀ peeked ∈ s.peeked, peeked.Right s.produced) ∧
      (s.producer = .idle → s.consumer = .idle → ∀ data, ∃ s' count,
        Alone 2 (step 2 s (.puts data)) s' ∧ Accepted s s' data count ∧
          (count : Int) = min (data.length : Int) (queCheckCapability 2 s)) :=
  queue_fifo (Nat.le_refl 2) (by decide) _ oneByte (by decide)

/-- A call to store a byte while the other task empties the queue. -/
def emptiedMeanwhile : List Event :=
  .puts [7] :: List.replicate 6 .produce ++ .puts [8] :: .produce :: .produce :: .getc ::
    List.replicate 6 .consume ++ List.replicate 2 .produce

/-- The call returns -1, and stores nothing. -/
theorem puts_returns_minus_one :
    (runEvents (step 2) (queInit fun _ => 0) emptiedMeanwhile).returned =
      [(1, 1), (1, 1), (-1, 0)] := by
  decide

end PosFirmware.Bluetooth.Concurrent
