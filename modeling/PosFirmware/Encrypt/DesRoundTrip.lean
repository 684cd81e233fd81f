import PosFirmware.Encrypt.Des
import Mathlib.Data.List.GetD

/-! # The block cipher undoes itself

With one key the two modes of `des` are inverse to each other (`des_opposite`). The schedules of
the modes are the same round keys in opposite orders, the loop is a Feistel network of them, and
each of the two permutations takes back what the other one did.
-/

namespace PosFirmware.Encrypt

open Foundation

variable {key block : List Byte} {mode : Int}

/-! ## The words of a block -/

@[simp] theorem scrunch_unscrun (words : Word × Word) : scrunch (unscrun words) = words := by
  simp only [scrunch, unscrun, List.getD_cons_zero, List.getD_cons_succ, joinOctets_octet]

theorem unscrun_scrunch (full : block.length = 8) : unscrun (scrunch block) = block := by
  match block, full with
  | [_, _, _, _, _, _, _, _], _ => simp [unscrun, scrunch]

@[simp] theorem des_length (input key : List Byte) (mode : Int) : (des input key mode).length = 8 :=
  rfl

/-! ## The permutations -/

theorem rotateDown_rotateUp (word : Word) : rotateDown (rotateUp word) = word := by
  refine BitVec.eq_of_getLsbD_eq fun i inside => ?_
  simp only [rotateDown, rotateUp, BitVec.getLsbD_or, BitVec.getLsbD_shiftLeft,
    BitVec.getLsbD_ushiftRight, BitVec.getLsbD_and]
  by_cases last : i = 31
  · subst last
    simp
  · have below : 1 + i < 32 ∧ i < 31 := by omega
    simp [below]

theorem rotateUp_rotateDown (word : Word) : rotateUp (rotateDown word) = word := by
  refine BitVec.eq_of_getLsbD_eq fun i inside => ?_
  simp only [rotateDown, rotateUp, BitVec.getLsbD_or, BitVec.getLsbD_shiftLeft,
    BitVec.getLsbD_ushiftRight, BitVec.getLsbD_and]
  by_cases first : i = 0
  · subst first
    simp
  · have below : i - 1 < 31 ∧ 1 + (i - 1) = i ∧ 1 ≤ i := by omega
    simp [below, first, inside]

theorem exchange4 (words : Word × Word) : exchange 4 0x0f0f0f0f (exchange 4 0x0f0f0f0f words) = words :=
  exchange_exchange (by decide) words

theorem exchange16 (words : Word × Word) : exchange 16 0x0000ffff (exchange 16 0x0000ffff words) = words :=
  exchange_exchange (by decide) words

theorem exchange2 (words : Word × Word) : exchange 2 0x33333333 (exchange 2 0x33333333 words) = words :=
  exchange_exchange (by decide) words

theorem exchange8 (words : Word × Word) : exchange 8 0x00ff00ff (exchange 8 0x00ff00ff words) = words :=
  exchange_exchange (by decide) words

theorem exchange0 (words : Word × Word) : exchange 0 0xaaaaaaaa (exchange 0 0xaaaaaaaa words) = words :=
  exchange_exchange (by decide) words

theorem permuteIn_eq (block : Word × Word) :
    permuteIn block = (exchange 0 0xaaaaaaaa ((exchange 8 0x00ff00ff (exchange 2 0x33333333
      (exchange 16 0x0000ffff (exchange 4 0x0f0f0f0f block)).swap)).swap.map id rotateUp)).map
        rotateUp id := rfl

theorem permuteOut_eq (halves : Word × Word) :
    permuteOut halves = exchange 4 0x0f0f0f0f (exchange 16 0x0000ffff (exchange 2 0x33333333
      (exchange 8 0x00ff00ff ((exchange 0 0xaaaaaaaa (halves.map id rotateDown)).map
        rotateDown id))).swap) := rfl

theorem map_rotateUp_map_rotateDown (halves : Word × Word) :
    (halves.map rotateDown id).swap.map id rotateUp = halves.swap :=
  Prod.ext rfl (rotateUp_rotateDown halves.1)

theorem map_rotateDown_map_rotateUp (halves : Word × Word) :
    (halves.map rotateUp id).swap.map id rotateDown = halves.swap :=
  Prod.ext rfl (rotateDown_rotateUp halves.1)

theorem permuteIn_permuteOut (halves : Word × Word) : permuteIn (permuteOut halves) = halves.swap := by
  rw [permuteIn_eq, permuteOut_eq, exchange4, exchange16, Prod.swap_swap, exchange2, exchange8,
    map_rotateUp_map_rotateDown, exchange_zero_swap, exchange0]
  exact Prod.ext (rotateUp_rotateDown halves.2) rfl

theorem permuteOut_permuteIn (block : Word × Word) : permuteOut (permuteIn block).swap = block := by
  rw [permuteIn_eq, permuteOut_eq, map_rotateDown_map_rotateUp, exchange_zero_swap, exchange0]
  have same (halves : Word × Word) :
      ((halves.swap.map id rotateUp).swap.map rotateDown id) = halves :=
    Prod.ext (rotateDown_rotateUp halves.1) rfl
  rw [same, exchange8, exchange2, Prod.swap_swap, exchange16, exchange4]

/-! ## The schedule -/

/-- Pairs of words written to places of their own, pass after pass. -/
def fillPairs (place : Nat → Nat) (first second : Nat → Word) (passes : Nat) : Nat → Word :=
  (List.range passes).foldl (fun kn i =>
    Function.update (Function.update kn (2 * place i) (first i)) (2 * place i + 1) (second i))
    fun _ => 0

theorem fillPairs_succ (place : Nat → Nat) (first second : Nat → Word) (passes : Nat) :
    fillPairs place first second (passes + 1) = Function.update (Function.update
      (fillPairs place first second passes) (2 * place passes) (first passes))
        (2 * place passes + 1) (second passes) := by
  rw [fillPairs, List.range_succ, List.foldl_append]
  rfl

theorem fillPairs_apply {place : Nat → Nat} (first second : Nat → Word) {passes i : Nat}
    (apart : ∀ j < passes, i < j → place j ≠ place i) (inside : i < passes) :
    fillPairs place first second passes (2 * place i) = first i ∧
      fillPairs place first second passes (2 * place i + 1) = second i := by
  induction passes with
  | zero => exact absurd inside (Nat.not_lt_zero i)
  | succ passes ih =>
      rw [fillPairs_succ]
      rcases Nat.lt_succ_iff_lt_or_eq.mp inside with earlier | rfl
      · have other := apart passes (Nat.lt_succ_self passes) earlier
        have kept := ih (fun j below => apart j (Nat.lt_succ_of_lt below)) earlier
        constructor
        · rw [Function.update_of_ne (by omega), Function.update_of_ne (by omega), kept.1]
        · rw [Function.update_of_ne (by omega), Function.update_of_ne (by omega), kept.2]
      · constructor
        · rw [Function.update_of_ne (by omega), Function.update_self]
        · rw [Function.update_self]

/-- The pair of the schedule that a pass writes. -/
def pairPlace (edf : Int) (i : Nat) : Nat := if edf = DE1 then 15 - i else i

theorem rawSchedule_eq (key : List Byte) (edf : Int) : rawSchedule key edf =
    fillPairs (pairPlace edf) (fun i => rawKey key i 0) (fun i => rawKey key i 24) 16 := by
  have place (i : Nat) : (if edf = DE1 then (15 - i) <<< 1 else i <<< 1) = 2 * pairPlace edf i := by
    unfold pairPlace
    split_ifs <;> rw [Nat.shiftLeft_eq, Nat.pow_one, Nat.mul_comm]
  simp only [rawSchedule, fillPairs, place]

/-- The round key of a pass, cooked. -/
def roundKey (key : List Byte) (i : Nat) : Word × Word :=
  let raw := fun place => if place = 0 then rawKey key i 0 else rawKey key i 24
  (cookey raw 0, cookey raw 1)

theorem deskey_pair (key : List Byte) (edf : Int) {i : Nat} (inside : i < 16) :
    (deskey key edf (2 * pairPlace edf i), deskey key edf (2 * pairPlace edf i + 1)) =
      roundKey key i := by
  have apart (j : Nat) (below : j < 16) (later : i < j) : pairPlace edf j ≠ pairPlace edf i := by
    unfold pairPlace
    split_ifs <;> omega
  obtain ⟨first, second⟩ :=
    fillPairs_apply (fun i => rawKey key i 0) (fun i => rawKey key i 24) apart inside
  have even : 2 * pairPlace edf i / 2 * 2 = 2 * pairPlace edf i := by omega
  have odd : (2 * pairPlace edf i + 1) / 2 * 2 = 2 * pairPlace edf i := by omega
  have left : 2 * pairPlace edf i % 2 = 0 := by omega
  have right : (2 * pairPlace edf i + 1) % 2 = 1 := by omega
  simp only [deskey, rawSchedule_eq, cookey, roundKey, even, odd, left, right, first, second,
    Nat.zero_div, Nat.zero_mul, Nat.zero_mod, if_true]
  rfl

/-- The keys of the rounds in the order in which the loop takes them. -/
def schedule (keys : Nat → Word) (rounds : Nat) : List (Word × Word) :=
  (List.range rounds).map fun i => (keys (2 * i), keys (2 * i + 1))

theorem schedule_encrypt (encrypt : mode ≠ DE1) :
    schedule (deskey key mode) 16 = (List.range 16).map (roundKey key) := by
  refine List.map_congr_left fun i member => ?_
  have pair := deskey_pair key mode (List.mem_range.mp member)
  rwa [pairPlace, if_neg encrypt] at pair

theorem schedule_decrypt :
    schedule (deskey key DE1) 16 = ((List.range 16).map (roundKey key)).reverse := by
  have turned : (List.range 16).reverse = (List.range 16).map fun i => 15 - i := by decide
  rw [← List.map_reverse, turned, List.map_map]
  refine List.map_congr_left fun i member => ?_
  have below := List.mem_range.mp member
  have pair := deskey_pair key DE1 (i := 15 - i) (by omega)
  rwa [pairPlace, if_pos rfl, show 15 - (15 - i) = i by omega] at pair

/-! ## The network -/

theorem schedule_succ (keys : Nat → Word) (rounds : Nat) :
    schedule keys (rounds + 1) =
      schedule keys rounds ++ [(keys (2 * rounds), keys (2 * rounds + 1))] := by
  rw [schedule, List.range_succ, List.map_append]
  rfl

theorem foldl_desTurn (keys : Nat → Word) (halves : Word × Word) (turns : Nat) :
    (List.range turns).foldl (desTurn keys) halves =
      feistel (· ^^^ ·) fval (schedule keys (2 * turns)) halves := by
  induction turns with
  | zero => rfl
  | succ turns ih =>
      have places : 4 * turns = 2 * (2 * turns) ∧ 4 * turns + 2 = 2 * (2 * turns + 1) ∧
        4 * turns + 3 = 2 * (2 * turns + 1) + 1 := by omega
      rw [List.range_succ, List.foldl_append, ih, show 2 * (turns + 1) = 2 * turns + 1 + 1 from rfl,
        schedule_succ, schedule_succ, feistel_append, feistel_append]
      simp only [List.foldl_cons, List.foldl_nil, desTurn, places]
      rfl

theorem desfunc_eq (block : Word × Word) (keys : Nat → Word) :
    desfunc block keys =
      permuteOut (feistel (· ^^^ ·) fval (schedule keys 16) (permuteIn block)) := by
  rw [desfunc, foldl_desTurn]

theorem desfunc_reverse {keys keys' : Nat → Word} (block : Word × Word)
    (turned : schedule keys' 16 = (schedule keys 16).reverse) :
    desfunc (desfunc block keys) keys' = block := by
  have cancel (a b : Word) : a ^^^ b ^^^ b = a := by
    rw [BitVec.xor_assoc, BitVec.xor_self, BitVec.xor_zero]
  rw [desfunc_eq, desfunc_eq, permuteIn_permuteOut, turned, feistel_reverse cancel,
    permuteOut_permuteIn]

/-- The mode that does not decrypt and the one that does take back what the other one did, with
any key. -/
theorem des_opposite {first second : Int} (opposite : first = DE1 ↔ second ≠ DE1)
    (full : block.length = 8) (key : List Byte) : des (des block key first) key second = block := by
  have turned : schedule (deskey key second) 16 = (schedule (deskey key first) 16).reverse := by
    by_cases decrypt : first = DE1
    · rw [decrypt, schedule_decrypt, schedule_encrypt (opposite.mp decrypt), List.reverse_reverse]
    · have second : second = DE1 := by
        by_contra other
        exact decrypt (opposite.mpr other)
      rw [second, schedule_decrypt, schedule_encrypt decrypt]
  rw [des, sDes, des, sDes, scrunch_unscrun, desfunc_reverse _ turned, unscrun_scrunch full]

theorem des_key_append (eight : key.length = 8) (more input : List Byte) (mode : Int) :
    des input (key ++ more) mode = des input key mode := by
  have near : ∀ l ∈ pc1, l >>> 3 < 8 := by decide
  have same : pc1m (key ++ more) = pc1m key := by
    funext j
    have place : pc1.getD j 0 >>> 3 < 8 := by
      rcases Nat.lt_or_ge j pc1.length with inside | outside
      · rw [List.getD_eq_getElem _ _ inside]
        exact near _ (List.getElem_mem inside)
      · rw [List.getD_eq_default _ _ outside]
        decide
    have kept : (key ++ more).getD (pc1.getD j 0 >>> 3) 0 = key.getD (pc1.getD j 0 >>> 3) 0 :=
      List.getD_append _ _ _ _ (by rwa [eight])
    simp only [pc1m, kept]
  have chosen : pcr (key ++ more) = pcr key := by
    funext i j
    rw [pcr, pcr, same]
  have raw : rawKey (key ++ more) = rawKey key := by
    funext i skip
    rw [rawKey, rawKey, chosen]
  rw [des, des, deskey, deskey, rawSchedule, rawSchedule, raw]

/-- With every key both modes permute the blocks, and each is the inverse of the other. -/
theorem des_permutes (key : List Byte) {block : List Byte} (full : block.length = 8) :
    (des (des block key EN0) key DE1 = block ∧ des (des block key DE1) key EN0 = block) ∧
      (des block key EN0).length = 8 ∧ (des block key DE1).length = 8 :=
  ⟨⟨des_opposite (by decide) full key, des_opposite (by decide) full key⟩, rfl, rfl⟩

theorem des_permutes_zeros :
    des (des (List.replicate 8 0) (List.replicate 8 1) EN0) (List.replicate 8 1) DE1 =
      List.replicate 8 0 :=
  (des_permutes (List.replicate 8 1) rfl).1.1

end PosFirmware.Encrypt
