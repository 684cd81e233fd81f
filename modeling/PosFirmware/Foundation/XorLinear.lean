import PosFirmware.Foundation.Cipher
import PosFirmware.Foundation.Bits

/-! # Functions of words that respect exclusive or

Shifts, masks, selections of bits and what is composed of them are linear over exclusive or. Two
linear functions are equal once they agree on the words of one bit (`XorLinear.eq_of_single`).
-/

namespace PosFirmware.Foundation

variable {u v w : Nat}

/-- The function of an exclusive or is the exclusive or of the functions. -/
def XorLinear (f : BitVec w → BitVec v) : Prop := ∀ a b, f (a ^^^ b) = f a ^^^ f b

namespace XorLinear

variable {f g : BitVec w → BitVec v}

theorem zero (linear : XorLinear f) : f 0#w = 0#v := by
  have twice := linear 0#w 0#w
  rwa [BitVec.xor_self, BitVec.xor_self] at twice

protected theorem id : XorLinear fun word : BitVec w => word := fun _ _ => rfl

theorem comp {h : BitVec v → BitVec u} (outer : XorLinear h) (inner : XorLinear f) :
    XorLinear fun word => h (f word) := fun a b =>
  (congrArg h (inner a b)).trans (outer (f a) (f b))

theorem xor (one : XorLinear f) (other : XorLinear g) : XorLinear fun word => f word ^^^ g word := by
  intro a b
  beta_reduce
  rw [one, other, BitVec.xor_assoc, BitVec.xor_assoc, ← BitVec.xor_assoc (f b),
    BitVec.xor_comm (f b), BitVec.xor_assoc (g a)]

theorem and_right (mask : BitVec v) (linear : XorLinear f) : XorLinear fun word => f word &&& mask := by
  intro a b
  beta_reduce
  rw [linear]
  refine BitVec.eq_of_getLsbD_eq fun i _ => ?_
  simp only [BitVec.getLsbD_and, BitVec.getLsbD_xor, Bool.and_xor_distrib_right]

theorem shiftLeft (n : Nat) (linear : XorLinear f) : XorLinear fun word => f word <<< n := by
  intro a b
  beta_reduce
  rw [linear, BitVec.shiftLeft_xor_distrib]

theorem ushiftRight (n : Nat) (linear : XorLinear f) : XorLinear fun word => f word >>> n := by
  intro a b
  beta_reduce
  rw [linear, BitVec.ushiftRight_xor_distrib]

theorem extract (start len : Nat) (linear : XorLinear f) :
    XorLinear fun word => (f word).extractLsb' start len := by
  intro a b
  beta_reduce
  rw [linear]
  refine BitVec.eq_of_getLsbD_eq fun i inside => ?_
  simp only [BitVec.getLsbD_extractLsb', BitVec.getLsbD_xor, inside, decide_true, Bool.true_and]

/-- Words that have no bit in common are joined by an exclusive or. -/
theorem or (one : XorLinear f) (other : XorLinear g) (apart : ∀ word, f word &&& g word = 0#v) :
    XorLinear fun word => f word ||| g word := by
  have joined (word : BitVec w) : f word ||| g word = f word ^^^ g word := by
    refine BitVec.eq_of_getLsbD_eq fun i _ => ?_
    have bit := congrArg (fun word => word.getLsbD i) (apart word)
    simp only [BitVec.getLsbD_and, BitVec.getLsbD_zero] at bit
    simp only [BitVec.getLsbD_or, BitVec.getLsbD_xor]
    cases first : (f word).getLsbD i with
    | false => simp
    | true => simpa [first] using bit
  intro a b
  simp only [joined]
  exact one.xor other a b

theorem foldl_xor {ι : Type} (linear : XorLinear f) (value : ι → BitVec w) (items : List ι)
    (start : BitVec w) : f (items.foldl (fun out i => out ^^^ value i) start) =
      items.foldl (fun out i => out ^^^ f (value i)) (f start) := by
  induction items generalizing start with
  | nil => rfl
  | cons i items ih => rw [List.foldl_cons, ih, linear, List.foldl_cons]

theorem eq_below (one : XorLinear f) (other : XorLinear g)
    (single : ∀ i < w, f (BitVec.twoPow w i) = g (BitVec.twoPow w i)) (count : Nat) :
    ∀ word : BitVec w, (∀ i, count ≤ i → word.getLsbD i = false) → f word = g word := by
  induction count with
  | zero =>
      intro word clear
      have empty : word = 0#w :=
        BitVec.eq_of_getLsbD_eq fun i _ => by rw [clear i (Nat.zero_le i), BitVec.getLsbD_zero]
      rw [empty, one.zero, other.zero]
  | succ count ih =>
      intro word clear
      by_cases bit : word.getLsbD count = true
      · -- The highest bit is split off, what is left is covered by the ones below it.
        have inside : count < w := BitVec.lt_of_getLsbD bit
        have split : word = (word ^^^ BitVec.twoPow w count) ^^^ BitVec.twoPow w count := by
          rw [BitVec.xor_assoc, BitVec.xor_self, BitVec.xor_zero]
        have rest := ih (word ^^^ BitVec.twoPow w count) fun i above => by
          rw [BitVec.getLsbD_xor, BitVec.getLsbD_twoPow]
          rcases Nat.lt_or_eq_of_le above with higher | rfl
          · simp [clear i higher, Nat.ne_of_lt higher]
          · simp [bit, inside]
        rw [split, one, other, rest, single count inside]
      · refine ih word fun i above => ?_
        rcases Nat.lt_or_eq_of_le above with higher | rfl
        · exact clear i higher
        · exact Bool.eq_false_iff.mpr bit

/-- Linear functions that agree on the words of one bit are equal. -/
theorem eq_of_single (one : XorLinear f) (other : XorLinear g)
    (single : ∀ i < w, f (BitVec.twoPow w i) = g (BitVec.twoPow w i)) : f = g :=
  funext fun word => one.eq_below other single w word fun i outside => BitVec.getLsbD_of_ge word i outside

end XorLinear

/-! ## Selected bits -/

/-- Bits shifted in that a table names, counted from one from the left. -/
def selectFrom (out : BitVec v) (table : List Nat) (word : BitVec w) : BitVec v :=
  table.foldl (fun out place => out <<< 1 ^^^ bitWord v (word.getMsbD (place - 1))) out

/-- The bits of a word that a table names. -/
def select (v : Nat) (table : List Nat) (word : BitVec w) : BitVec v := selectFrom 0#v table word

theorem bitWord_xor (one other : Bool) : bitWord v (one ^^ other) = bitWord v one ^^^ bitWord v other := by
  cases one <;> cases other <;> simp [bitWord]

theorem selectFrom_xor (table : List Nat) (one other : BitVec v) (a b : BitVec w) :
    selectFrom (one ^^^ other) table (a ^^^ b) =
      selectFrom one table a ^^^ selectFrom other table b := by
  induction table generalizing one other with
  | nil => rfl
  | cons place table ih =>
      have joined : (one ^^^ other) <<< 1 ^^^ bitWord v ((a ^^^ b).getMsbD (place - 1)) =
          (one <<< 1 ^^^ bitWord v (a.getMsbD (place - 1))) ^^^
            (other <<< 1 ^^^ bitWord v (b.getMsbD (place - 1))) := by
        rw [BitVec.getMsbD_xor, bitWord_xor, BitVec.shiftLeft_xor_distrib, BitVec.xor_assoc,
          BitVec.xor_assoc, ← BitVec.xor_assoc (other <<< 1), BitVec.xor_comm (other <<< 1),
          BitVec.xor_assoc (bitWord v _)]
      exact (congrArg (fun out => selectFrom out table (a ^^^ b)) joined).trans (ih _ _)

theorem select_linear (table : List Nat) : XorLinear (select (w := w) v table) := by
  intro a b
  have whole := selectFrom_xor table 0#v 0#v a b
  rwa [BitVec.xor_zero] at whole

theorem getLsbD_selectFrom (table : List Nat) (out : BitVec v) (word : BitVec w) {i : Nat}
    (inside : i < v) : (selectFrom out table word).getLsbD i =
      if i < table.length then word.getMsbD (table.getD (table.length - 1 - i) 0 - 1)
      else out.getLsbD (i - table.length) := by
  induction table generalizing out with
  | nil => simp [selectFrom]
  | cons place table ih =>
      have next := ih (out <<< 1 ^^^ bitWord v (word.getMsbD (place - 1)))
      rw [selectFrom, List.foldl_cons]
      refine next.trans ?_
      rcases Nat.lt_trichotomy i table.length with below | rfl | above
      · have later : table.length - i = table.length - 1 - i + 1 := by omega
        simp [below, Nat.lt_succ_of_lt below, later]
      · simp [getLsbD_bitWord _ (Nat.lt_of_le_of_lt (Nat.zero_le _) inside)]
      · have other : ¬ i - table.length = 0 ∧ i - table.length < v ∧ ¬ i < table.length ∧
            ¬ i < table.length + 1 ∧ i - table.length - 1 = i - (table.length + 1) := by omega
        have clear : (bitWord v (word.getMsbD (place - 1))).getLsbD (i - table.length) = false := by
          rw [getLsbD_bitWord _ (Nat.lt_of_le_of_lt (Nat.zero_le _) inside),
            decide_eq_false other.1, Bool.and_false]
        rw [if_neg other.2.2.1, List.length_cons, if_neg other.2.2.2.1, BitVec.getLsbD_xor, clear,
          Bool.xor_false, BitVec.getLsbD_shiftLeft, other.2.2.2.2]
        simp [other.2.1, other.1]

/-- A bit of a selection, counted from the left. -/
theorem getMsbD_select {table : List Nat} (word : BitVec w) (whole : table.length = v) {j : Nat}
    (inside : j < v) : (select v table word).getMsbD j = word.getMsbD (table.getD j 0 - 1) := by
  have place : table.length - 1 - (v - 1 - j) = j := by omega
  rw [BitVec.getMsbD_eq_getLsbD, select, getLsbD_selectFrom _ _ _ (by omega), if_pos (by omega), place,
    decide_eq_true inside, Bool.true_and]

/-! ## Exchanges -/

section Exchange

variable {f g : BitVec u → BitVec w} {shift : Nat} {mask : BitVec w}

theorem exchange_linear (one : XorLinear f) (other : XorLinear g) :
    XorLinear (fun word => (exchange shift mask (f word, g word)).1) ∧
      XorLinear fun word => (exchange shift mask (f word, g word)).2 := by
  have work := ((one.ushiftRight shift).xor other).and_right mask
  exact ⟨one.xor (work.shiftLeft shift), other.xor work⟩

end Exchange

end PosFirmware.Foundation
