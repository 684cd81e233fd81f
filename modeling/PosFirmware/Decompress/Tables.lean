import PosFirmware.Foundation.Cumulative

/-! # The tables of the decompressor

`decompress.c` counts its symbols in four tables: the symbols in the order of their
counts, the characters they stand for, their counts, and the counts cumulated from
the last symbol on. `UpdateNode` moves a symbol to the front of those with its count,
and halves all counts before their total leaves fifteen bits. An access outside a
table is a fault of the model, `none`; `updateNode_wellFormed` shows that none happens
and that the tables stay well formed.
-/

namespace PosFirmware.Decompress

open PosFirmware.Foundation

/-! ## Accesses -/

variable {α : Type} {size i : Nat} {table : Nat → α} {value : α}

/-- An entry of a table with so many entries. -/
def readAt (size : Nat) (table : Nat → α) (i : Nat) : Option α :=
  if i < size then some (table i) else none

/-- A table with one entry written. -/
def writeAt (size : Nat) (table : Nat → α) (i : Nat) (value : α) : Option (Nat → α) :=
  if i < size then some (Function.update table i value) else none

@[simp] theorem readAt_inside (inside : i < size) : readAt size table i = some (table i) :=
  if_pos inside

@[simp] theorem writeAt_inside (inside : i < size) :
    writeAt size table i value = some (Function.update table i value) := if_pos inside

/-! ## The tables -/

/-- The entries of the tables of the symbols. -/
def SYM_SIZE : Nat := 320

/-- The entries of the table of the positions. -/
def POS_SIZE : Nat := 4100

/-- The number of symbols. -/
def SYMBOLS : Nat := 314

/-- The number of positions. -/
def POSITIONS : Nat := 4096

/-- The static tables. -/
structure Tables where
  charSym : Nat → Nat
  symChar : Nat → Nat
  symFreq : Nat → Nat
  symCum : Nat → Nat
  posCum : Nat → Nat

/-- The bisection of `GetSym` and `GetPos`. -/
def bisect (size : Nat) (cum : Nat → Nat) (x i j : Nat) : Option Nat :=
  if i < j then
    (readAt size cum ((i + j) / 2)).bind fun entry =>
      if entry > x then bisect size cum x ((i + j) / 2 + 1) j
      else bisect size cum x i ((i + j) / 2)
  else some i
termination_by j - i

/-- `GetSym`. -/
def getSym (t : Tables) (x : Nat) : Option Nat := bisect SYM_SIZE t.symCum x 1 SYMBOLS

/-- `GetPos`. -/
def getPos (t : Tables) (x : Nat) : Option Nat := do
  let i ← bisect POS_SIZE t.posCum x 1 POSITIONS
  return i - 1

/-- The loop of `UpdateNode` that halves the counts, from a symbol down to the first. -/
def halveLoop : Nat → Nat → Tables → Option (Nat × Tables)
  | 0, j, t => some (j, t)
  | i + 1, j, t => do
      let symCum ← writeAt SYM_SIZE t.symCum (i + 1) j
      let freq ← readAt SYM_SIZE t.symFreq (i + 1)
      let symFreq ← writeAt SYM_SIZE t.symFreq (i + 1) ((freq + 1) / 2)
      halveLoop i (j + (freq + 1) / 2) { t with symCum := symCum, symFreq := symFreq }

/-- The counts halved. -/
def rescale (t : Tables) : Option Tables := do
  let halved ← halveLoop SYMBOLS 0 t
  let symCum ← writeAt SYM_SIZE halved.2.symCum 0 halved.1
  return { halved.2 with symCum := symCum }

/-- The counts halved when their total is about to leave fifteen bits. -/
def makeRoom (t : Tables) : Option Tables := do
  let total ← readAt SYM_SIZE t.symCum 0
  if total ≥ 0x7FFF then rescale t else return t

/-- The loop of `UpdateNode` that looks for the first symbol with the count of one. In
front of the first entry it would leave the table. -/
def firstOf (symFreq : Nat → Nat) : Nat → Option Nat
  | 0 => none
  | i + 1 => do
      let freq ← readAt SYM_SIZE symFreq (i + 1)
      let before ← readAt SYM_SIZE symFreq i
      if freq = before then firstOf symFreq i else return i + 1

/-- The exchange of a symbol with one in front of it. -/
def exchange (t : Tables) (i sym : Nat) : Option Tables :=
  if i < sym then do
    let k ← readAt SYM_SIZE t.symChar i
    let ch ← readAt SYM_SIZE t.symChar sym
    let symChar ← writeAt SYM_SIZE t.symChar i ch
    let symChar ← writeAt SYM_SIZE symChar sym k
    let charSym ← writeAt SYM_SIZE t.charSym k sym
    let charSym ← writeAt SYM_SIZE charSym ch i
    return { t with symChar := symChar, charSym := charSym }
  else return t

/-- The loop of `UpdateNode` that raises the entries from one down to the first, and
the first one after it. -/
def raiseLoop : Nat → (Nat → Nat) → Option (Nat → Nat)
  | 0, symCum => do
      let entry ← readAt SYM_SIZE symCum 0
      writeAt SYM_SIZE symCum 0 (entry + 1)
  | i + 1, symCum => do
      let entry ← readAt SYM_SIZE symCum (i + 1)
      let symCum ← writeAt SYM_SIZE symCum (i + 1) (entry + 1)
      raiseLoop i symCum

/-- The count of a symbol raised, and the entries before it. -/
def raiseSym (t : Tables) (i : Nat) : Option Tables := do
  let freq ← readAt SYM_SIZE t.symFreq i
  let symFreq ← writeAt SYM_SIZE t.symFreq i (freq + 1)
  let symCum ← raiseLoop (i - 1) t.symCum
  return { t with symFreq := symFreq, symCum := symCum }

/-- `UpdateNode`. -/
def updateNode (t : Tables) (sym : Nat) : Option Tables := do
  let t ← makeRoom t
  let i ← firstOf t.symFreq sym
  let t ← exchange t i sym
  raiseSym t i

/-! ## Well-formed tables -/

/-- The order of the symbols and the characters they stand for belong to each other. -/
structure Inverse (charSym symChar : Nat → Nat) : Prop where
  symbol : ∀ c < SYMBOLS, (1 ≤ charSym c ∧ charSym c ≤ SYMBOLS) ∧ symChar (charSym c) = c
  char : ∀ s, 1 ≤ s → s ≤ SYMBOLS → symChar s < SYMBOLS ∧ charSym (symChar s) = s

/-- What the tables of the symbols satisfy after every symbol. -/
structure Tables.WellFormed (t : Tables) : Prop where
  cumulative : Cumulative SYMBOLS t.symFreq t.symCum
  decreasing : ∀ i < SYMBOLS, t.symCum (i + 1) < t.symCum i
  ordered : ∀ i, 1 ≤ i → i < SYMBOLS → t.symFreq (i + 1) ≤ t.symFreq i
  sentinel : t.symFreq 0 = 0
  inverse : Inverse t.charSym t.symChar
  total : t.symCum 0 ≤ 0x7FFF

theorem Tables.WellFormed.positive {t : Tables} (wellFormed : t.WellFormed) {i : Nat}
    (first : 1 ≤ i) (last : i ≤ SYMBOLS) : 1 ≤ t.symFreq i := by
  obtain ⟨i, rfl⟩ := Nat.exists_eq_add_of_le' first
  have step := wellFormed.cumulative.step i last
  have below := wellFormed.decreasing i last
  omega

/-! ## The operations -/

theorem bisect_place {cum : Nat → Nat} {x : Nat} {i j : Nat} (order : i ≤ j) (inside : j < size)
    (reached : cum j ≤ x) (before : x < cum (i - 1)) :
    ∃ k, bisect size cum x i j = some k ∧ (i ≤ k ∧ k ≤ j) ∧ Place cum x k := by
  induction i, j using bisect.induct with
  | case1 i j below above under =>
    have middle : i ≤ (i + j) / 2 ∧ (i + j) / 2 < j := by omega
    rw [bisect, if_pos below, readAt_inside (by omega), Option.bind_some]
    split
    · next bigger =>
      obtain ⟨k, found, range, place⟩ := above middle.2 inside reached bigger
      exact ⟨k, found, ⟨by omega, range.2⟩, place⟩
    · next smaller =>
      obtain ⟨k, found, range, place⟩ := under middle.1 (by omega) (not_lt.mp smaller) before
      exact ⟨k, found, ⟨range.1, by omega⟩, place⟩
  | case2 i j above =>
    obtain rfl : i = j := by omega
    exact ⟨i, by rw [bisect, if_neg above], ⟨le_rfl, le_rfl⟩, reached, before⟩

/-! ## Halving -/

/-- The counts up to a symbol halved. -/
def halvedFreq (symFreq : Nat → Nat) (n i : Nat) : Nat :=
  if 1 ≤ i ∧ i ≤ n then (symFreq i + 1) / 2 else symFreq i

theorem halveLoop_eq {t : Tables} {n j : Nat} (inside : n < SYM_SIZE) :
    ∃ symCum, halveLoop n j t = some (j + ∑ k ∈ Finset.Ioc 0 n, (t.symFreq k + 1) / 2,
        { t with symFreq := halvedFreq t.symFreq n, symCum := symCum }) ∧
      (∀ i, 1 ≤ i → i ≤ n → symCum i = j + ∑ k ∈ Finset.Ioc i n, (t.symFreq k + 1) / 2) ∧
      ∀ i, n < i → symCum i = t.symCum i := by
  induction n generalizing t j with
  | zero =>
    refine ⟨t.symCum, ?_, by omega, fun _ _ => rfl⟩
    have same : halvedFreq t.symFreq 0 = t.symFreq := by
      funext i
      exact if_neg (by omega)
    simp [halveLoop, same]
  | succ n past =>
    obtain ⟨symCum, loop, sums, above⟩ := @past
      { t with
        symCum := Function.update t.symCum (n + 1) j
        symFreq := Function.update t.symFreq (n + 1) ((t.symFreq (n + 1) + 1) / 2) }
      (j + (t.symFreq (n + 1) + 1) / 2) (by omega)
    dsimp only at loop sums above
    have below : ∀ i ≤ n, ∑ k ∈ Finset.Ioc i n,
        (Function.update t.symFreq (n + 1) ((t.symFreq (n + 1) + 1) / 2) k + 1) / 2 =
        ∑ k ∈ Finset.Ioc i n, (t.symFreq k + 1) / 2 := fun i _ =>
      Finset.sum_congr rfl fun k among => by
        rw [Function.update_of_ne (by have := Finset.mem_Ioc.mp among; omega)]
    have top : ∀ i ≤ n, j + (t.symFreq (n + 1) + 1) / 2 +
        ∑ k ∈ Finset.Ioc i n, (t.symFreq k + 1) / 2 =
        j + ∑ k ∈ Finset.Ioc i (n + 1), (t.symFreq k + 1) / 2 := fun i order => by
      rw [Finset.sum_Ioc_succ_top order]
      omega
    have freq : halvedFreq (Function.update t.symFreq (n + 1) ((t.symFreq (n + 1) + 1) / 2)) n =
        halvedFreq t.symFreq (n + 1) := by
      funext i
      unfold halvedFreq
      by_cases last : i = n + 1
      · subst last
        rw [if_neg (by omega), if_pos (by omega), Function.update_self]
      · rw [Function.update_of_ne last]
        exact if_congr (by omega) rfl rfl
    refine ⟨symCum, ?_, fun i first order => ?_, fun i order => ?_⟩
    · simp only [halveLoop, writeAt_inside inside, readAt_inside inside, Option.bind_eq_bind,
        Option.bind_some]
      rw [loop, freq, below 0 (Nat.zero_le n), top 0 (Nat.zero_le n)]
    · by_cases last : i = n + 1
      · subst last
        rw [above _ (Nat.lt_succ_self n), Function.update_self]
        simp
      · rw [sums i first (by omega), below i (by omega), top i (by omega)]
    · rw [above i (by omega), Function.update_of_ne (by omega)]

theorem rescale_wellFormed {t : Tables} (wellFormed : t.WellFormed) :
    ∃ t', rescale t = some t' ∧ t'.WellFormed ∧ t'.symCum 0 < 0x7FFF ∧ t'.posCum = t.posCum := by
  obtain ⟨symCum, loop, sums, above⟩ :=
    @halveLoop_eq t SYMBOLS 0 (by decide)
  have cumulative : Cumulative SYMBOLS (halvedFreq t.symFreq SYMBOLS)
      (Function.update symCum 0 (0 + ∑ k ∈ Finset.Ioc 0 SYMBOLS, (t.symFreq k + 1) / 2)) := by
    refine Cumulative.of_sum fun i inside => ?_
    have same : ∑ k ∈ Finset.Ioc i SYMBOLS, halvedFreq t.symFreq SYMBOLS k =
        ∑ k ∈ Finset.Ioc i SYMBOLS, (t.symFreq k + 1) / 2 := Finset.sum_congr rfl fun k among =>
      if_pos (by have := Finset.mem_Ioc.mp among; omega)
    rw [same]
    cases i with
    | zero => simp
    | succ i => rw [Function.update_of_ne (by omega), sums _ (by omega) inside, Nat.zero_add]
  have positive : ∀ i, 1 ≤ i → i ≤ SYMBOLS → 1 ≤ halvedFreq t.symFreq SYMBOLS i := by
    intro i first last
    have one := wellFormed.positive first last
    rw [halvedFreq, if_pos ⟨first, last⟩]
    omega
  have half := wellFormed.cumulative.halve
    (fun i first last => if_pos (c := 1 ≤ i ∧ i ≤ SYMBOLS) ⟨first, last⟩) cumulative
  have total := wellFormed.total
  have symbols : SYMBOLS = 314 := rfl
  refine ⟨{ t with
      symFreq := halvedFreq t.symFreq SYMBOLS
      symCum := Function.update symCum 0
        (0 + ∑ k ∈ Finset.Ioc 0 SYMBOLS, (t.symFreq k + 1) / 2) }, ?_, ⟨cumulative, fun i inside => cumulative.decreasing positive inside,
    fun i first last => ?_, ?_, wellFormed.inverse, ?_⟩, ?_, ?_⟩
  · rw [rescale, loop]
    simp only [Option.bind_eq_bind, Option.bind_some]
    rw [writeAt_inside (by decide)]
    rfl
  · have order := wellFormed.ordered i first last
    show halvedFreq t.symFreq SYMBOLS (i + 1) ≤ halvedFreq t.symFreq SYMBOLS i
    rw [halvedFreq, halvedFreq, if_pos (by omega), if_pos (by omega)]
    omega
  · exact wellFormed.sentinel
  · dsimp only
    omega
  · dsimp only
    omega
  · rfl

/-! ## Exchanging and raising -/

theorem firstOf_first {t : Tables} (wellFormed : t.WellFormed) {sym : Nat} (first : 1 ≤ sym)
    (last : sym ≤ SYMBOLS) :
    ∃ i, firstOf t.symFreq sym = some i ∧ (1 ≤ i ∧ i ≤ sym) ∧ t.symFreq i = t.symFreq sym ∧
      t.symFreq (i - 1) ≠ t.symFreq i := by
  induction sym with
  | zero => omega
  | succ sym past =>
    have inside : sym + 1 < SYM_SIZE := lt_of_le_of_lt last (by decide)
    simp only [firstOf, readAt_inside inside, readAt_inside (Nat.lt_of_succ_lt inside),
      Option.bind_eq_bind, Option.bind_some]
    split
    · next same =>
      have notFirst : 1 ≤ sym := by
        by_contra zero
        obtain rfl : sym = 0 := by omega
        have one := wellFormed.positive first last
        rw [same, wellFormed.sentinel] at one
        omega
      obtain ⟨i, found, range, equal, before⟩ := past notFirst (by omega)
      exact ⟨i, found, ⟨range.1, by omega⟩, equal.trans same.symm, before⟩
    · next different =>
      exact ⟨sym + 1, rfl, ⟨first, le_rfl⟩, rfl, Ne.symm different⟩

theorem exchange_wellFormed {t : Tables} (wellFormed : t.WellFormed) {i sym : Nat} (first : 1 ≤ i)
    (order : i < sym) (last : sym ≤ SYMBOLS) :
    ∃ t', exchange t i sym = some t' ∧ t'.WellFormed ∧ t'.symFreq = t.symFreq ∧
      t'.symCum = t.symCum ∧ t'.posCum = t.posCum := by
  obtain ⟨symbol, char⟩ := wellFormed.inverse
  obtain ⟨kInside, kBack⟩ := char i first (by omega)
  obtain ⟨chInside, chBack⟩ := char sym (by omega) last
  have small : SYMBOLS < SYM_SIZE := by decide
  have distinct : t.symChar i ≠ t.symChar sym := fun same => by
    rw [same, chBack] at kBack
    omega
  refine ⟨{ t with
      symChar := Function.update (Function.update t.symChar i (t.symChar sym)) sym (t.symChar i)
      charSym := Function.update (Function.update t.charSym (t.symChar i) sym) (t.symChar sym) i },
    ?_, ⟨wellFormed.cumulative, wellFormed.decreasing, wellFormed.ordered, wellFormed.sentinel,
      ⟨fun c inside => ?_, fun s s_first s_last => ?_⟩, wellFormed.total⟩, rfl, rfl, rfl⟩
  · simp only [exchange, if_pos order, readAt_inside (show i < SYM_SIZE by omega),
      readAt_inside (show sym < SYM_SIZE by omega), writeAt_inside (show i < SYM_SIZE by omega),
      writeAt_inside (show sym < SYM_SIZE by omega),
      writeAt_inside (show t.symChar i < SYM_SIZE by omega),
      writeAt_inside (show t.symChar sym < SYM_SIZE by omega), Option.bind_eq_bind,
      Option.bind_some]
    rfl
  · obtain ⟨range, back⟩ := symbol c inside
    dsimp only
    by_cases isCh : c = t.symChar sym
    · subst isCh
      rw [Function.update_self, Function.update_of_ne (by omega), Function.update_self]
      exact ⟨⟨first, by omega⟩, rfl⟩
    · rw [Function.update_of_ne isCh]
      by_cases isK : c = t.symChar i
      · subst isK
        rw [Function.update_self, Function.update_self]
        exact ⟨⟨by omega, last⟩, rfl⟩
      · rw [Function.update_of_ne isK, Function.update_of_ne fun same => isCh (by rw [← same, back]),
          Function.update_of_ne fun same => isK (by rw [← same, back])]
        exact ⟨range, back⟩
  · obtain ⟨inside, back⟩ := char s s_first s_last
    dsimp only
    by_cases isSym : s = sym
    · subst isSym
      rw [Function.update_self, Function.update_of_ne distinct, Function.update_self]
      exact ⟨kInside, rfl⟩
    · rw [Function.update_of_ne isSym]
      by_cases isI : s = i
      · subst isI
        rw [Function.update_self, Function.update_self]
        exact ⟨chInside, rfl⟩
      · rw [Function.update_of_ne isI, Function.update_of_ne fun same => isSym ?_,
          Function.update_of_ne fun same => isI ?_]
        · exact ⟨inside, back⟩
        · rw [← back, same, kBack]
        · rw [← back, same, chBack]

theorem raiseLoop_eq {symCum : Nat → Nat} {n : Nat} (inside : n < SYM_SIZE) :
    raiseLoop n symCum = some fun i => if i ≤ n then symCum i + 1 else symCum i := by
  induction n generalizing symCum with
  | zero =>
    simp only [raiseLoop, readAt_inside inside, writeAt_inside inside, Option.bind_eq_bind,
      Option.bind_some]
    congr 1
    funext i
    by_cases zero : i = 0
    · simp [zero]
    · rw [Function.update_of_ne zero, if_neg (by omega)]
  | succ n past =>
    simp only [raiseLoop, readAt_inside inside, writeAt_inside inside, Option.bind_eq_bind,
      Option.bind_some]
    rw [past (by omega)]
    congr 1
    funext i
    by_cases top : i = n + 1
    · subst top
      rw [if_neg (by omega), if_pos le_rfl, Function.update_self]
    · rw [Function.update_of_ne top]
      exact if_congr (by omega) rfl rfl

theorem raiseSym_wellFormed {t : Tables} (wellFormed : t.WellFormed) {i : Nat} (first : 1 ≤ i)
    (last : i ≤ SYMBOLS) (before : t.symFreq (i - 1) ≠ t.symFreq i) (room : t.symCum 0 < 0x7FFF) :
    ∃ t', raiseSym t i = some t' ∧ t'.WellFormed ∧ t'.posCum = t.posCum := by
  have small : SYMBOLS < SYM_SIZE := by decide
  have cumulative : Cumulative SYMBOLS (Function.update t.symFreq i (t.symFreq i + 1))
      fun k => if k ≤ i - 1 then t.symCum k + 1 else t.symCum k := by
    refine wellFormed.cumulative.raise (s := i) (fun k => ?_)
      (fun k => if_congr (by omega) rfl rfl) last
    by_cases here : k = i
    · subst here
      rw [Function.update_self, if_pos rfl]
    · rw [Function.update_of_ne here, if_neg here]
  have positive : ∀ k, 1 ≤ k → k ≤ SYMBOLS →
      1 ≤ Function.update t.symFreq i (t.symFreq i + 1) k := by
    intro k k_first k_last
    by_cases here : k = i
    · subst here
      rw [Function.update_self]
      omega
    · rw [Function.update_of_ne here]
      exact wellFormed.positive k_first k_last
  refine ⟨{ t with
      symFreq := Function.update t.symFreq i (t.symFreq i + 1)
      symCum := fun k => if k ≤ i - 1 then t.symCum k + 1 else t.symCum k }, ?_,
    ⟨cumulative, fun k inside => cumulative.decreasing positive inside, fun k k_first k_last => ?_,
      ?_, wellFormed.inverse, ?_⟩, rfl⟩
  · simp only [raiseSym, readAt_inside (show i < SYM_SIZE by omega),
      writeAt_inside (show i < SYM_SIZE by omega), Option.bind_eq_bind, Option.bind_some]
    rw [raiseLoop_eq (by omega)]
    rfl
  · have order := wellFormed.ordered k k_first k_last
    dsimp only
    by_cases here : k + 1 = i
    · -- the count before is greater, since the symbol is the first one with its count
      subst here
      rw [Function.update_self, Function.update_of_ne (by omega)]
      rw [Nat.add_sub_cancel] at before
      omega
    · rw [Function.update_of_ne here]
      by_cases there : k = i
      · subst there
        rw [Function.update_self]
        omega
      · rw [Function.update_of_ne there]
        exact order
  · dsimp only
    rw [Function.update_of_ne (by omega)]
    exact wellFormed.sentinel
  · dsimp only
    rw [if_pos (Nat.zero_le _)]
    exact room

/-- **`UpdateNode` keeps the tables well formed**, whichever symbol is counted. -/
theorem updateNode_wellFormed {t : Tables} (wellFormed : t.WellFormed) {sym : Nat}
    (first : 1 ≤ sym) (last : sym ≤ SYMBOLS) :
    ∃ t', updateNode t sym = some t' ∧ t'.WellFormed ∧ t'.posCum = t.posCum := by
  obtain ⟨t₁, scaled, wellFormed₁, room, pos₁⟩ :
      ∃ t₁, makeRoom t = some t₁ ∧ t₁.WellFormed ∧ t₁.symCum 0 < 0x7FFF ∧
        t₁.posCum = t.posCum := by
    simp only [makeRoom, readAt_inside (show 0 < SYM_SIZE by decide), Option.bind_eq_bind,
      Option.bind_some]
    split
    · exact rescale_wellFormed wellFormed
    · next room => exact ⟨t, rfl, wellFormed, not_le.mp room, rfl⟩
  obtain ⟨i, found, range, equal, before⟩ := firstOf_first wellFormed₁ first last
  obtain ⟨t₂, exchanged, wellFormed₂, freq, cum, pos₂⟩ :
      ∃ t₂, exchange t₁ i sym = some t₂ ∧ t₂.WellFormed ∧ t₂.symFreq = t₁.symFreq ∧
        t₂.symCum = t₁.symCum ∧ t₂.posCum = t₁.posCum := by
    by_cases order : i < sym
    · exact exchange_wellFormed wellFormed₁ range.1 order last
    · exact ⟨t₁, if_neg order, wellFormed₁, rfl, rfl, rfl⟩
  obtain ⟨t₃, raised, wellFormed₃, pos₃⟩ := raiseSym_wellFormed wellFormed₂ range.1
    (range.2.trans last) (freq ▸ before) (cum ▸ room)
  refine ⟨t₃, ?_, wellFormed₃, pos₃.trans (pos₂.trans pos₁)⟩
  simp only [updateNode, scaled, found, exchanged, raised, Option.bind_eq_bind, Option.bind_some]

end PosFirmware.Decompress
