import Mathlib.Data.List.Basic

/-! # Ciphers in rounds and in blocks

Rounds that change one half of a block at a time are undone by the same rounds with the keys in
the other order, whatever the keyed function is (`feistel_reverse`). A cipher of one block is
carried to data of any length: block for block with the rest of the data changed by itself
(`blockwise_inverse`), or each block chained to the one before it (`unchain_chain`).
-/

namespace PosFirmware.Foundation

/-! ## Rounds -/

section Rounds

variable {α κ : Type} {op : α → α → α} {f : κ → α → α}

/-- One round: a half is combined with a keyed function of the other, and they change places. -/
def feistelRound (op : α → α → α) (f : κ → α → α) (halves : α × α) (key : κ) : α × α :=
  (halves.2, op halves.1 (f key halves.2))

/-- A round for each key. -/
def feistel (op : α → α → α) (f : κ → α → α) (keys : List κ) (halves : α × α) : α × α :=
  keys.foldl (feistelRound op f) halves

theorem feistel_append (front back : List κ) (halves : α × α) :
    feistel op f (front ++ back) halves = feistel op f back (feistel op f front halves) :=
  List.foldl_append

/-- A round with the same key takes back what a round did. -/
theorem feistelRound_swap (cancel : ∀ a b, op (op a b) b = a) (halves : α × α) (key : κ) :
    feistelRound op f (feistelRound op f halves key).swap key = halves.swap := by
  simp only [feistelRound, Prod.swap_prod_mk, cancel]
  rfl

theorem feistel_reverse (cancel : ∀ a b, op (op a b) b = a) (keys : List κ) (halves : α × α) :
    feistel op f keys.reverse (feistel op f keys halves).swap = halves.swap := by
  induction keys generalizing halves with
  | nil => rfl
  | cons key keys ih =>
      have inner := ih (feistelRound op f halves key)
      rw [List.reverse_cons, feistel_append]
      change feistelRound op f (feistel op f keys.reverse
        (feistel op f keys (feistelRound op f halves key)).swap) key = _
      rw [inner]
      exact feistelRound_swap cancel halves key

end Rounds

/-! ## Bits that change places -/

section Exchange

variable {w shift : Nat} {mask : BitVec w}

/-- The bits of one word under a mask change places with those of another one, which stand
higher by a shift. -/
def exchange (shift : Nat) (mask : BitVec w) (words : BitVec w × BitVec w) :
    BitVec w × BitVec w :=
  let work := (words.1 >>> shift ^^^ words.2) &&& mask
  (words.1 ^^^ work <<< shift, words.2 ^^^ work)

/-- No bit under the mask is lost by the shift. -/
theorem ushiftRight_shiftLeft_and (fits : mask <<< shift >>> shift = mask) (word : BitVec w) :
    (word &&& mask) <<< shift >>> shift = word &&& mask := by
  refine BitVec.eq_of_getLsbD_eq fun i _ => ?_
  have bit := congrArg (fun m => m.getLsbD i) fits
  simp only [BitVec.getLsbD_ushiftRight, BitVec.getLsbD_shiftLeft, Nat.add_sub_cancel_left,
    Nat.not_lt.mpr (Nat.le_add_right shift i), decide_false, Bool.not_false,
    Bool.and_true] at bit
  simp only [BitVec.getLsbD_ushiftRight, BitVec.getLsbD_shiftLeft, BitVec.getLsbD_and,
    Nat.add_sub_cancel_left, Nat.not_lt.mpr (Nat.le_add_right shift i), decide_false,
    Bool.not_false, Bool.and_true]
  rw [Bool.and_left_comm, bit]

theorem exchange_exchange (fits : mask <<< shift >>> shift = mask) (words : BitVec w × BitVec w) :
    exchange shift mask (exchange shift mask words) = words := by
  obtain ⟨high, low⟩ := words
  have kept := ushiftRight_shiftLeft_and fits (high >>> shift ^^^ low)
  have same : ((high ^^^ ((high >>> shift ^^^ low) &&& mask) <<< shift) >>> shift ^^^
      (low ^^^ ((high >>> shift ^^^ low) &&& mask))) = high >>> shift ^^^ low := by
    rw [BitVec.ushiftRight_xor_distrib, kept]
    generalize (high >>> shift ^^^ low) &&& mask = work
    rw [← BitVec.xor_assoc, BitVec.xor_assoc (high >>> shift), BitVec.xor_comm work low,
      ← BitVec.xor_assoc, BitVec.xor_assoc, BitVec.xor_self, BitVec.xor_zero]
  simp only [exchange, same, BitVec.xor_assoc, BitVec.xor_self, BitVec.xor_zero]

/-- Without a shift the words may change their names. -/
theorem exchange_zero_swap (words : BitVec w × BitVec w) :
    exchange 0 mask words.swap = (exchange 0 mask words).swap := by
  simp only [exchange, Prod.fst_swap, Prod.snd_swap, Prod.swap_prod_mk, BitVec.ushiftRight_zero, BitVec.shiftLeft_zero,
    BitVec.xor_comm words.2 words.1]

end Exchange

/-! ## Blocks of data -/

section Blocks

variable {β : Type} {size : Nat} {data : List β}

/-- The full blocks of some data. -/
def fullBlocks (size : Nat) (data : List β) : List (List β) :=
  (List.range (data.length / size)).map fun i => (data.drop (i * size)).take size

/-- What is left behind the full blocks. -/
def restOf (size : Nat) (data : List β) : List β := data.drop (data.length / size * size)

theorem length_of_mem_fullBlocks {block : List β} (member : block ∈ fullBlocks size data) :
    block.length = size := by
  obtain ⟨i, inside, rfl⟩ := List.mem_map.mp member
  have below : i + 1 ≤ data.length / size := List.mem_range.mp inside
  have room : (i + 1) * size ≤ data.length :=
    Nat.le_trans (Nat.mul_le_mul_right size below) (Nat.div_mul_le_self ..)
  rw [Nat.succ_mul] at room
  rw [List.length_take, List.length_drop]
  exact Nat.min_eq_left (by omega)

theorem fullBlocks_append {block : List β} (full : block.length = size) (positive : 0 < size)
    (data : List β) : fullBlocks size (block ++ data) = block :: fullBlocks size data := by
  have count : (block ++ data).length / size = data.length / size + 1 := by
    rw [List.length_append, full, Nat.add_comm, Nat.add_div_right _ positive]
  rw [fullBlocks, count, List.range_succ_eq_map, List.map_cons, List.map_map]
  congr 1
  · rw [Nat.zero_mul, List.drop_zero, ← full]
    exact List.take_left
  · refine List.map_congr_left fun i _ => ?_
    have place : (i + 1) * size = block.length + i * size := by rw [full, Nat.succ_mul, Nat.add_comm]
    simp only [Function.comp_apply, Nat.succ_eq_add_one]
    rw [place, ← List.drop_drop, List.drop_left]

theorem fullBlocks_flatten {blocks : List (List β)} (full : ∀ block ∈ blocks, block.length = size)
    (positive : 0 < size) {rest : List β} (short : rest.length < size) :
    fullBlocks size (blocks.flatten ++ rest) = blocks := by
  induction blocks with
  | nil =>
      simp only [List.flatten_nil, List.nil_append, fullBlocks, Nat.div_eq_of_lt short]
      rfl
  | cons block blocks ih =>
      rw [List.flatten_cons, List.append_assoc, fullBlocks_append (full block List.mem_cons_self)
        positive, ih fun other member => full other (List.mem_cons_of_mem _ member)]

theorem fullBlocks_flatten_whole {blocks : List (List β)}
    (full : ∀ block ∈ blocks, block.length = size) (positive : 0 < size) :
    fullBlocks size blocks.flatten = blocks := by
  have short : ([] : List β).length < size := positive
  have whole := fullBlocks_flatten full positive short
  rwa [List.append_nil] at whole

theorem length_flatten_of_full {blocks : List (List β)}
    (full : ∀ block ∈ blocks, block.length = size) :
    blocks.flatten.length = blocks.length * size := by
  induction blocks with
  | nil => simp
  | cons block blocks ih =>
      rw [List.flatten_cons, List.length_append, full block List.mem_cons_self,
        ih fun other member => full other (List.mem_cons_of_mem _ member), List.length_cons,
        Nat.succ_mul, Nat.add_comm]

theorem restOf_flatten {blocks : List (List β)} (full : ∀ block ∈ blocks, block.length = size)
    (positive : 0 < size) {rest : List β} (short : rest.length < size) :
    restOf size (blocks.flatten ++ rest) = rest := by
  have length := length_flatten_of_full full
  rw [restOf, List.length_append, length, Nat.add_comm, Nat.add_mul_div_right _ _ positive,
    Nat.div_eq_of_lt short, Nat.zero_add, ← length, List.drop_left]

theorem take_fullBlocks (size : Nat) (data : List β) (n : Nat) :
    ((List.range n).map fun i => (data.drop (i * size)).take size).flatten = data.take (n * size) := by
  induction n with
  | zero => simp
  | succ n ih =>
      rw [List.range_succ, List.map_append, List.flatten_append, ih, List.map_singleton,
        List.flatten_singleton, Nat.succ_mul, List.take_add]

/-- The full blocks and the rest are the data. -/
theorem flatten_fullBlocks (size : Nat) (data : List β) :
    (fullBlocks size data).flatten ++ restOf size data = data := by
  rw [fullBlocks, take_fullBlocks, restOf, List.take_append_drop]

theorem restOf_length_lt (positive : 0 < size) (data : List β) : (restOf size data).length < size := by
  have split := Nat.div_add_mod data.length size
  have below := Nat.mod_lt data.length positive
  rw [restOf, List.length_drop, Nat.mul_comm]
  omega

/-- Data whose length is a number of blocks leave nothing. -/
theorem restOf_eq_nil (whole : data.length % size = 0) : restOf size data = [] := by
  rw [restOf, Nat.div_mul_cancel (Nat.dvd_of_mod_eq_zero whole), List.drop_length]

/-! ## Block for block -/

/-- A function of one block carried to data, with the bytes of the rest changed one by one. -/
def blockwise (size : Nat) (cipher : List β → List β) (tail : β → β) (data : List β) : List β :=
  ((fullBlocks size data).map cipher).flatten ++ (restOf size data).map tail

variable {cipher decipher : List β → List β} {tail : β → β}

theorem blockwise_inverse (cipher decipher : List β → List β) (tail : β → β) (positive : 0 < size)
    (keeps : ∀ block, block.length = size → (cipher block).length = size)
    (inverse : ∀ block, block.length = size → decipher (cipher block) = block)
    (involution : ∀ c, tail (tail c) = c) (data : List β) :
    blockwise size decipher tail (blockwise size cipher tail data) = data := by
  have full : ∀ block ∈ (fullBlocks size data).map cipher, block.length = size := by
    intro block member
    obtain ⟨source, sourceIn, rfl⟩ := List.mem_map.mp member
    exact keeps source (length_of_mem_fullBlocks sourceIn)
  have short : ((restOf size data).map tail).length < size := by
    rw [List.length_map]
    exact restOf_length_lt positive data
  have blocks : ((fullBlocks size data).map cipher).map decipher = fullBlocks size data := by
    rw [List.map_map]
    refine (List.map_congr_left fun block member => ?_).trans (List.map_id _)
    exact inverse block (length_of_mem_fullBlocks member)
  have rest : ((restOf size data).map tail).map tail = restOf size data := by
    rw [List.map_map]
    exact (List.map_congr_left fun c _ => involution c).trans (List.map_id _)
  rw [blockwise, blockwise, fullBlocks_flatten full positive short,
    restOf_flatten full positive short, blocks, rest]
  exact flatten_fullBlocks size data

theorem length_blockwise (keeps : ∀ block, block.length = size → (cipher block).length = size)
    (data : List β) : (blockwise size cipher tail data).length = data.length := by
  have full : ∀ block ∈ (fullBlocks size data).map cipher, block.length = size := by
    intro block member
    obtain ⟨source, sourceIn, rfl⟩ := List.mem_map.mp member
    exact keeps source (length_of_mem_fullBlocks sourceIn)
  have whole := congrArg List.length (flatten_fullBlocks size data)
  have blocks : ∀ block ∈ fullBlocks size data, block.length = size := fun _ => length_of_mem_fullBlocks
  have before := length_flatten_of_full blocks
  rw [List.length_append, before] at whole
  rw [blockwise, List.length_append, length_flatten_of_full full, List.length_map, List.length_map,
    whole]

/-! ## Blocks in a chain -/

/-- Each block is combined with what came out for the one before it. -/
def chainBlocks (op : List β → List β → List β) (cipher : List β → List β) :
    List β → List (List β) → List (List β)
  | _, [] => []
  | last, block :: blocks =>
      let out := cipher (op last block)
      out :: chainBlocks op cipher out blocks

/-- The same backwards: what comes out is combined with the block before it. -/
def unchainBlocks (op : List β → List β → List β) (decipher : List β → List β) :
    List β → List (List β) → List (List β)
  | _, [] => []
  | last, block :: blocks => op (decipher block) last :: unchainBlocks op decipher block blocks

variable {op : List β → List β → List β}

theorem unchain_chain {last : List β} {blocks : List (List β)} (start : last.length = size)
    (full : ∀ block ∈ blocks, block.length = size)
    (keeps : ∀ block, block.length = size → (cipher block).length = size)
    (inverse : ∀ block, block.length = size → decipher (cipher block) = block)
    (combined : ∀ a b, a.length = size → b.length = size → (op a b).length = size)
    (cancel : ∀ a b, a.length = size → b.length = size → op (op a b) a = b) :
    unchainBlocks op decipher last (chainBlocks op cipher last blocks) = blocks := by
  induction blocks generalizing last with
  | nil => rfl
  | cons block blocks ih =>
      have same := full block List.mem_cons_self
      have fits := combined last block start same
      simp only [chainBlocks, unchainBlocks]
      rw [inverse _ fits, cancel last block start same,
        ih (keeps _ fits) fun other member => full other (List.mem_cons_of_mem _ member)]

@[simp] theorem length_chainBlocks (last : List β) (blocks : List (List β)) :
    (chainBlocks op cipher last blocks).length = blocks.length := by
  induction blocks generalizing last with
  | nil => rfl
  | cons block blocks ih => rw [chainBlocks, List.length_cons, ih, List.length_cons]

theorem chainBlocks_full {last : List β} {blocks : List (List β)} (start : last.length = size)
    (full : ∀ block ∈ blocks, block.length = size)
    (keeps : ∀ block, block.length = size → (cipher block).length = size)
    (combined : ∀ a b, a.length = size → b.length = size → (op a b).length = size) :
    ∀ block ∈ chainBlocks op cipher last blocks, block.length = size := by
  induction blocks generalizing last with
  | nil => simp [chainBlocks]
  | cons block blocks ih =>
      have fits := keeps _ (combined last block start (full block List.mem_cons_self))
      intro other member
      rcases List.mem_cons.mp member with rfl | later
      · exact fits
      · exact ih fits (fun other member => full other (List.mem_cons_of_mem _ member)) other later

end Blocks

end PosFirmware.Foundation
