import PosFirmware.Decompress.Decoder

/-! # The interval of the arithmetic code

The value stays inside the interval of the arithmetic code (`Coder.Holds`), so that every place
looked up has a share and the inner loop ends. `Exact` is what a step of the decoder computes when
its words are the numbers that they stand for, as those of every symbol (`decodeSym_exact`) and of
every position are (`decodePos_exact`).
-/

namespace PosFirmware.Decompress

open PosFirmware.Foundation

variable {source : Source} {c : Coder}

/-! ## The interval -/

/-- The value lies in the interval, and the interval in seventeen bits. -/
structure Coder.Holds (c : Coder) : Prop where
  above : c.low ≤ c.value
  below : c.value < c.high
  small : c.high ≤ 0x20000

theorem Coder.load_kept (c : Coder) : (c.load source).low = c.low ∧
    (c.load source).high = c.high ∧ (c.load source).value = c.value := by
  unfold Coder.load
  split_ifs <;> exact ⟨rfl, rfl, rfl⟩

theorem Coder.readBit_spec (small : c.value < 2 ^ 31) :
    (c.readBit source).low = c.low ∧ (c.readBit source).high = c.high ∧
      2 * c.value ≤ (c.readBit source).value ∧ (c.readBit source).value ≤ 2 * c.value + 1 := by
  have twice : wmul c.value 2 = c.value * 2 := wmul_eq (by omega)
  obtain ⟨low, high, value⟩ := (@Coder.load_kept source) { c with value := wmul c.value 2 }
  refine ⟨low, high, ?_⟩
  rw [twice] at value
  dsimp only at value
  rw [Coder.readBit, twice]
  dsimp only
  rw [value]
  split
  · rw [wadd_eq (by omega)]
    omega
  · rw [wadd_eq (by omega)]
    omega

theorem Coder.fill_spec (left : Nat) (small : (c.value + 1) * 2 ^ left ≤ 2 ^ 31) :
    (Coder.fill source left c).low = c.low ∧ (Coder.fill source left c).high = c.high ∧
      (Coder.fill source left c).value < (c.value + 1) * 2 ^ left := by
  induction left generalizing c with
  | zero => exact ⟨rfl, rfl, by simp [Coder.fill]⟩
  | succ left past =>
    have one : 1 ≤ 2 ^ left := Nat.one_le_two_pow
    have double : (c.value + 1) * 2 ^ (left + 1) = (2 * c.value + 2) * 2 ^ left := by ring
    have most : c.value + 1 ≤ (c.value + 1) * 2 ^ (left + 1) :=
      Nat.le_mul_of_pos_right _ (Nat.two_pow_pos _)
    obtain ⟨low, high, -, bit⟩ := (@Coder.readBit_spec source c) (by omega)
    have next : ((c.readBit source).value + 1) * 2 ^ left ≤ (2 * c.value + 2) * 2 ^ left :=
      Nat.mul_le_mul_right _ (by omega)
    obtain ⟨low', high', value⟩ := (@past (c.readBit source)) (by omega)
    rw [Coder.fill]
    exact ⟨low'.trans low, high'.trans high, by omega⟩

theorem initCoder_holds (source : Source) : (initCoder source).Holds := by
  obtain ⟨low, high, value⟩ :=
    (@Coder.fill_spec source ⟨0, 0x20000, 0, 0, 0, 4⟩ 17) (by decide)
  refine ⟨?_, ?_, ?_⟩
  · rw [initCoder, low]
    exact Nat.zero_le _
  · rw [initCoder, high]
    exact value
  · rw [initCoder, high]

/-- Doubling an interval of at most sixteen bits keeps the value inside and doubles the
distance of its ends. -/
theorem Coder.double_holds (above : c.low ≤ c.value) (below : c.value < c.high)
    (small : c.high ≤ 0x10000) :
    (c.double source).Holds ∧
      (c.double source).high - (c.double source).low = 2 * (c.high - c.low) := by
  have low : wadd c.low c.low = c.low + c.low := wadd_eq (by omega)
  have high : wadd c.high c.high = c.high + c.high := wadd_eq (by omega)
  obtain ⟨low', high', least, most⟩ := (@Coder.readBit_spec source
    { c with low := wadd c.low c.low, high := wadd c.high c.high }) (by
      show c.value < 2 ^ 31
      omega)
  have low : (c.double source).low = c.low + c.low := low'.trans low
  have high : (c.double source).high = c.high + c.high := high'.trans high
  have value : 2 * c.value ≤ (c.double source).value ∧
      (c.double source).value ≤ 2 * c.value + 1 := ⟨least, most⟩
  exact ⟨⟨by omega, by omega, by omega⟩, by omega⟩

theorem Coder.Holds.lower_double (holds : c.Holds) {distance : Nat} (order : distance ≤ c.low)
    (small : c.high ≤ 0x10000 + distance) :
    ((c.lower distance).double source).Holds ∧
      ((c.lower distance).double source).high - ((c.lower distance).double source).low =
        2 * (c.high - c.low) := by
  obtain ⟨above, below, inside⟩ := holds
  have low : (c.lower distance).low = c.low - distance := wsub_eq order (by omega)
  have high : (c.lower distance).high = c.high - distance := wsub_eq (by omega) (by omega)
  have value : (c.lower distance).value = c.value - distance := wsub_eq (by omega) (by omega)
  have doubled := (@Coder.double_holds source (c.lower distance)) (by omega) (by omega) (by omega)
  refine ⟨doubled.1, doubled.2.trans ?_⟩
  rw [low, high]
  omega

/-- The inner loop ends, since every round doubles the interval, and keeps the value
inside. -/
theorem Coder.Holds.normalise (holds : c.Holds) {rounds : Nat}
    (enough : 0x20000 < (c.high - c.low) * 2 ^ rounds) :
    ∃ c', c.normalise source rounds = some c' ∧ c'.Holds := by
  induction rounds generalizing c with
  | zero =>
    have small := holds.small
    rw [pow_zero, mul_one] at enough
    omega
  | succ rounds past =>
    have goOn {c' : Coder} (doubled : c'.Holds ∧ c'.high - c'.low = 2 * (c.high - c.low)) :
        ∃ c'', c'.normalise source rounds = some c'' ∧ c''.Holds := by
      refine past doubled.1 ?_
      have same : (c'.high - c'.low) * 2 ^ rounds = (c.high - c.low) * 2 ^ (rounds + 1) := by
        rw [doubled.2]
        ring
      rwa [same]
    have small := holds.small
    rw [Coder.normalise]
    split
    · next high => exact goOn (holds.lower_double high (by omega))
    · split
      · next middle => exact goOn (holds.lower_double middle.1 (by omega))
      · split
        · exact ⟨c, rfl, holds⟩
        · next low => exact goOn (Coder.double_holds holds.above holds.below (not_lt.mp low))

theorem Coder.normalise_narrowed {low high : Nat} (above : low ≤ c.value) (below : c.value < high)
    (small : high ≤ 0x20000) :
    ∃ c', Coder.normalise source NORMALISE_ROUNDS { c with high := high, low := low } = some c' ∧
      c'.Holds := by
  refine Coder.Holds.normalise ⟨above, below, small⟩ ?_
  show 0x20000 < (high - low) * 2 ^ 18
  omega

/-! ## Looking a place up -/

/-- The interval is longer than a quarter of seventeen bits. -/
def Coder.Wide (c : Coder) : Prop := 0x8000 < c.high - c.low

theorem Coder.wide_of_normalise {c' : Coder} {rounds : Nat}
    (ended : c.normalise source rounds = some c') : c'.Wide := by
  induction rounds generalizing c with
  | zero => exact absurd ended (by simp [Coder.normalise])
  | succ rounds past =>
    rw [Coder.normalise] at ended
    split_ifs at ended with high middle long
    · exact past ended
    · exact past ended
    · obtain rfl := Option.some.inj ended
      unfold Coder.Wide
      omega
    · exact past ended

/-- A step of the decoder whose words are the numbers that they stand for: nothing overflows, the
place found is one of the table, the value stays in its share, and the inner loop ends at a long
interval. -/
structure Exact (source : Source) (cum : Nat → Nat) (find : Nat → Option Nat)
    (upper lower : Nat → Nat) (c : Coder) (place : Nat) (c' : Coder) : Prop where
  inside : c.Holds
  range : wsub c.high c.low = c.high - c.low ∧ 0 < c.high - c.low
  scaled : (c.value - c.low + 1) * cum 0 < 2 ^ 32
  found : find (((c.value - c.low + 1) * cum 0 - 1) / (c.high - c.low)) = some place
  products : ∀ i, cum i ≤ cum 0 → (c.high - c.low) * cum i < 2 ^ 32
  entries : cum (upper place) ≤ cum 0 ∧ cum (lower place) ≤ cum 0
  reached : c.low + (c.high - c.low) * cum (lower place) / cum 0 ≤ c.value
  before : c.value < c.low + (c.high - c.low) * cum (upper place) / cum 0
  ends : Coder.normalise source NORMALISE_ROUNDS { c with
    high := c.low + (c.high - c.low) * cum (upper place) / cum 0
    low := c.low + (c.high - c.low) * cum (lower place) / cum 0 } = some c'
  holds : c'.Holds
  wide : c'.Wide

/-- A place looked up in a table with a total of at most fifteen bits, when the place
found separates the entries. -/
theorem decodePlace_exact {size : Nat} {cum : Nat → Nat} {find : Nat → Option Nat}
    {upper lower : Nat → Nat} (holds : c.Holds) (nonempty : 0 < size) (total_pos : 0 < cum 0)
    (total : cum 0 ≤ 0x7FFF)
    (finds : ∀ x < cum 0, ∃ place, find x = some place ∧ (upper place < size ∧ lower place < size) ∧
      cum (lower place) ≤ x ∧ x < cum (upper place) ∧ cum (upper place) ≤ cum 0) :
    ∃ place c' x, decodePlace source size cum find upper lower c = some (place, c') ∧
      Exact source cum find upper lower c place c' ∧ x < cum 0 ∧ find x = some place := by
  have inside_ := holds
  obtain ⟨above, below, small⟩ := holds
  have range : wsub c.high c.low = c.high - c.low := wsub_eq (by omega) (by omega)
  have offset : wadd (wsub c.value c.low) 1 = c.value - c.low + 1 := by
    rw [wsub_eq above (by omega), wadd_eq (by omega)]
  have inside : c.value - c.low < c.high - c.low := by omega
  have product {x y : Nat} (x_small : x ≤ 0x20000) (y_small : y ≤ 0x7FFF) : x * y < 2 ^ 32 :=
    lt_of_le_of_lt (Nat.mul_le_mul x_small y_small) (by omega)
  have scaled_pos : 0 < (c.value - c.low + 1) * cum 0 := Nat.mul_pos (Nat.succ_pos _) total_pos
  have target : c.target (cum 0) =
      some (((c.value - c.low + 1) * cum 0 - 1) / (c.high - c.low)) := by
    rw [Coder.target, range, if_neg (by omega), offset, wmul_eq (product (by omega) total),
      wsub_eq (by omega) (product (by omega) total)]
  have x_lt := scaled_lt inside total_pos
  obtain ⟨place, found, ⟨upper_lt, lower_lt⟩, reached, before, most⟩ := finds _ x_lt
  obtain ⟨atLeast, moreThan⟩ := share_inside (by omega) total_pos reached before
  have share : (c.high - c.low) * cum (upper place) / cum 0 ≤ c.high - c.low :=
    Nat.div_le_of_le_mul (by rw [Nat.mul_comm]; exact Nat.mul_le_mul_right _ most)
  have narrowed : c.narrow (cum 0) (cum (upper place)) (cum (lower place)) =
      some { c with
        high := c.low + (c.high - c.low) * cum (upper place) / cum 0
        low := c.low + (c.high - c.low) * cum (lower place) / cum 0 } := by
    rw [Coder.narrow, range, if_neg (by omega), wmul_eq (product (by omega) (by omega)),
      wmul_eq (product (by omega) (by omega)), wadd_eq (by omega), wadd_eq (by omega)]
  have reached' : c.low + (c.high - c.low) * cum (lower place) / cum 0 ≤ c.value := by omega
  have before' : c.value < c.low + (c.high - c.low) * cum (upper place) / cum 0 := by omega
  obtain ⟨c', normalised, holds'⟩ :=
    (@Coder.normalise_narrowed source c _ _) reached' before' (by omega)
  refine ⟨place, c', _, ?_, ?_, x_lt, found⟩
  · rw [decodePlace, readAt_inside nonempty, Option.bind_eq_bind, Option.bind_some, target,
      Option.bind_eq_bind, Option.bind_some, found, Option.bind_some, readAt_inside upper_lt,
      Option.bind_some, readAt_inside lower_lt, Option.bind_some, narrowed, Option.bind_some,
      normalised, Option.bind_some]
    rfl
  · exact ⟨inside_, ⟨range, by omega⟩, product (by omega) total, found,
      fun i under => product (by omega) (by omega), ⟨most, by omega⟩, reached', before', normalised,
      holds', Coder.wide_of_normalise normalised⟩

/-- The table of the positions. -/
structure Tables.Positioned (t : Tables) : Prop where
  cumulative : Cumulative POSITIONS posFreq t.posCum
  total : 0 < t.posCum 0 ∧ t.posCum 0 ≤ 0x7FFF

theorem decodeSym_exact {t : Tables} (wellFormed : t.WellFormed) (holds : c.Holds) :
    ∃ sym c', decodeSym source t c = some (sym, c') ∧ (1 ≤ sym ∧ sym ≤ SYMBOLS) ∧
      Exact source t.symCum (getSym t) (fun sym => wsub sym 1) (fun sym => sym) c sym c' := by
  have small : SYMBOLS < SYM_SIZE := by decide
  have total_pos : 0 < t.symCum 0 := Nat.zero_lt_of_lt (wellFormed.decreasing 0 (by decide))
  have finds : ∀ x < t.symCum 0, ∃ sym, getSym t x = some sym ∧ (1 ≤ sym ∧ sym ≤ SYMBOLS) ∧
      Place t.symCum x sym := fun x below =>
    bisect_place (by decide) small (by simp [wellFormed.cumulative.last]) below
  obtain ⟨sym, c', x, decoded, exact_, below, found⟩ := (@decodePlace_exact source c SYM_SIZE
    t.symCum (getSym t) (fun sym => wsub sym 1) fun sym => sym) holds (by decide) total_pos
    wellFormed.total (by
      intro x below
      obtain ⟨sym, found, range, place⟩ := finds x below
      have before : wsub sym 1 = sym - 1 := wsub_eq range.1 (by
        rw [SYMBOLS] at range
        omega)
      refine ⟨sym, found, ?_⟩
      rw [before]
      exact ⟨⟨by omega, by omega⟩, place.reached, place.before,
        wellFormed.cumulative.antitone (Nat.zero_le _) (by omega)⟩)
  obtain ⟨sym', found', range, -⟩ := finds x below
  obtain rfl := Option.some.inj (found.symm.trans found')
  exact ⟨sym, c', decoded, range, exact_⟩

theorem decodePos_exact {t : Tables} (positioned : t.Positioned) (holds : c.Holds) :
    ∃ i c', decodePos source t c = some (i, c') ∧ i < POSITIONS ∧
      Exact source t.posCum (getPos t) (fun i => i) (fun i => i + 1) c i c' := by
  have small : POSITIONS < POS_SIZE := by decide
  have finds : ∀ x < t.posCum 0, ∃ i, getPos t x = some i ∧ i < POSITIONS ∧
      Place t.posCum x (i + 1) := by
    intro x below
    obtain ⟨k, found, range, place⟩ : ∃ k, bisect POS_SIZE t.posCum x 1 POSITIONS = some k ∧
        (1 ≤ k ∧ k ≤ POSITIONS) ∧ Place t.posCum x k :=
      bisect_place (by decide) small (by simp [positioned.cumulative.last]) below
    have next : k - 1 + 1 = k := by omega
    refine ⟨k - 1, ?_, by omega, next.symm ▸ place⟩
    rw [getPos, found]
    rfl
  obtain ⟨i, c', x, decoded, exact_, below, found⟩ := (@decodePlace_exact source c POS_SIZE
    t.posCum (getPos t) (fun i => i) fun i => i + 1) holds (by decide) positioned.total.1
    positioned.total.2 (by
      intro x below
      obtain ⟨i, found, inside, place⟩ := finds x below
      exact ⟨i, found, ⟨by omega, by omega⟩, place.reached, place.before,
        positioned.cumulative.antitone (Nat.zero_le _) (by omega)⟩)
  obtain ⟨i', found', inside, -⟩ := finds x below
  obtain rfl := Option.some.inj (found.symm.trans found')
  exact ⟨i, c', decoded, inside, exact_⟩

end PosFirmware.Decompress
