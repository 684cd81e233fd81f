import PosFirmware.Encrypt.DesRoundTrip

/-! # What the magnetic head sends, encrypted

The modes in which the reader of encrypted heads uses the block cipher: block for block
(`iDes`, `iTdes`) and in a chain (`iDesCBC`, `iTCBC`), with one key of eight bytes or with two or
three of them. The buffers of the data and of the result do not overlap.
-/

namespace PosFirmware.MagCard

open Foundation Encrypt

def PED_ENCRYPT : Int := 1

def PED_DECRYPT : Int := 0

/-- The second buffer combined into the first one, unless it is the longer one. -/
def iStrXor (ulInOutLen : Nat) (pszInOut : List Byte) (ulInLen : Nat) (pszIn : List Byte) :
    List Byte :=
  if ulInOutLen < ulInLen then pszInOut
  else List.zipWith (· ^^^ ·) (pszInOut.take ulInLen) (pszIn.take ulInLen) ++ pszInOut.drop ulInLen

/-- Eight bytes combined. -/
def xorBlock (block other : List Byte) : List Byte := iStrXor 8 block 8 other

/-- The first block of a chain. -/
def firstVector (pucIV : Option (List Byte)) : List Byte := pucIV.getD (List.replicate 8 0)

def iDesCBC (pucIV : Option (List Byte)) (pszIn pszKey : List Byte) (ucMode : Int) :
    Except Int (List Byte) :=
  if pszIn.length % 8 ≠ 0 then .error (-1)
  else if ucMode = PED_ENCRYPT then
    .ok (chainBlocks xorBlock (des · pszKey PED_ENCRYPT) (firstVector pucIV)
      (fullBlocks 8 pszIn)).flatten
  else if ucMode = PED_DECRYPT then
    .ok (unchainBlocks xorBlock (des · pszKey PED_DECRYPT) (firstVector pucIV)
      (fullBlocks 8 pszIn)).flatten
  else .error (-2)

/-- The key of the third pass. -/
def thirdKey (pszKey : List Byte) (iKeyLen : Int) : List Byte :=
  if iKeyLen = 24 then pszKey.drop 16 else pszKey

def tripleEncrypt (pszKey : List Byte) (iKeyLen : Int) (block : List Byte) : List Byte :=
  des (des (des block pszKey PED_ENCRYPT) (pszKey.drop 8) PED_DECRYPT) (thirdKey pszKey iKeyLen)
    PED_ENCRYPT

def tripleDecrypt (pszKey : List Byte) (iKeyLen : Int) (block : List Byte) : List Byte :=
  des (des (des block (thirdKey pszKey iKeyLen) PED_DECRYPT) (pszKey.drop 8) PED_ENCRYPT) pszKey
    PED_DECRYPT

def iTCBC (pucIV : Option (List Byte)) (pszIn pszKey : List Byte) (iKeyLen ucMode : Int) :
    Except Int (List Byte) :=
  if pszIn.length % 8 ≠ 0 then .error (-1)
  else if iKeyLen = 8 then iDesCBC pucIV pszIn pszKey ucMode
  else if iKeyLen ≠ 16 ∧ iKeyLen ≠ 24 then .error (-3)
  else if ucMode = PED_ENCRYPT then
    .ok (chainBlocks xorBlock (tripleEncrypt pszKey iKeyLen) (firstVector pucIV)
      (fullBlocks 8 pszIn)).flatten
  else if ucMode = PED_DECRYPT then
    .ok (unchainBlocks xorBlock (tripleDecrypt pszKey iKeyLen) (firstVector pucIV)
      (fullBlocks 8 pszIn)).flatten
  else .error (-2)

/-- The rest behind the full blocks is only inverted. -/
def invertByte (c : Byte) : Byte := c ^^^ 0xff

/-- A missing buffer is `none`; of the result only whether it is there is looked at. -/
def iDes (pszIn : Option (List Byte)) (hasOut : Bool) (pszKey : Option (List Byte)) (ucMode : Int) :
    Except Int (List Byte) :=
  match pszIn, hasOut, pszKey with
  | some pszIn, true, some pszKey =>
      if ucMode = PED_ENCRYPT then .ok (blockwise 8 (des · pszKey PED_ENCRYPT) invertByte pszIn)
      else if ucMode = PED_DECRYPT then
        .ok (blockwise 8 (des · pszKey PED_DECRYPT) invertByte pszIn)
      else .error (-2)
  | _, _, _ => .error (-1)

def iTdes (pszIn pszKey : List Byte) (iKeyLen ucMode : Int) : Except Int (List Byte) :=
  if pszIn.length % 8 ≠ 0 then .error (-1)
  else if iKeyLen = 8 then iDes (some pszIn) true (some pszKey) ucMode
  else if ucMode = PED_ENCRYPT then
    .ok ((fullBlocks 8 pszIn).map (tripleEncrypt pszKey iKeyLen)).flatten
  else if ucMode = PED_DECRYPT then
    .ok ((fullBlocks 8 pszIn).map (tripleDecrypt pszKey iKeyLen)).flatten
  else .error (-2)

/-! ## Blocks -/

variable {block other data pszKey : List Byte} {pucIV : Option (List Byte)} {iKeyLen ucMode : Int}

theorem xorBlock_eq (full : block.length = 8) (full' : other.length = 8) :
    xorBlock block other = List.zipWith (· ^^^ ·) block other := by
  rw [xorBlock, iStrXor, if_neg (Nat.lt_irrefl 8), List.take_of_length_le (Nat.le_of_eq full),
    List.take_of_length_le (Nat.le_of_eq full'), List.drop_of_length_le (Nat.le_of_eq full),
    List.append_nil]

theorem xorBlock_length (full : block.length = 8) (full' : other.length = 8) :
    (xorBlock block other).length = 8 := by
  rw [xorBlock_eq full full', List.length_zipWith, full, full', Nat.min_self]

theorem xorBlock_cancel (full : block.length = 8) (full' : other.length = 8) :
    xorBlock (xorBlock block other) block = other := by
  rw [xorBlock_eq (xorBlock_length full full') full, xorBlock_eq full full']
  apply List.ext_getElem
  · simp only [List.length_zipWith, full, full', Nat.min_self]
  · intro i _ _
    simp only [List.getElem_zipWith]
    rw [BitVec.xor_comm block[i], BitVec.xor_assoc, BitVec.xor_self, BitVec.xor_zero]

theorem tripleEncrypt_length (pszKey : List Byte) (iKeyLen : Int) (block : List Byte) :
    (tripleEncrypt pszKey iKeyLen block).length = 8 := rfl

theorem tripleDecrypt_tripleEncrypt (full : block.length = 8) :
    tripleDecrypt pszKey iKeyLen (tripleEncrypt pszKey iKeyLen block) = block := by
  have opposite : PED_ENCRYPT = DE1 ↔ PED_DECRYPT ≠ DE1 := by decide
  have opposite' : PED_DECRYPT = DE1 ↔ PED_ENCRYPT ≠ DE1 := by decide
  rw [tripleDecrypt, tripleEncrypt, des_opposite opposite (des_length ..),
    des_opposite opposite' (des_length ..), des_opposite opposite full]

theorem firstVector_length (vector : ∀ iv ∈ pucIV, iv.length = 8) :
    (firstVector pucIV).length = 8 := by
  cases pucIV with
  | none => rfl
  | some iv => exact vector iv rfl

theorem unchain_chain_data (cipher decipher : List Byte → List Byte)
    (vector : ∀ iv ∈ pucIV, iv.length = 8) (whole : data.length % 8 = 0)
    (keeps : ∀ block, (cipher block).length = 8)
    (inverse : ∀ block, block.length = 8 → decipher (cipher block) = block) :
    ((chainBlocks xorBlock cipher (firstVector pucIV) (fullBlocks 8 data)).flatten).length =
        data.length ∧
      (unchainBlocks xorBlock decipher (firstVector pucIV) (fullBlocks 8 (chainBlocks xorBlock cipher
        (firstVector pucIV) (fullBlocks 8 data)).flatten)).flatten = data := by
  have start := firstVector_length vector
  have blocks : ∀ block ∈ fullBlocks 8 data, block.length = 8 := fun _ => length_of_mem_fullBlocks
  have out := chainBlocks_full start blocks (fun block _ => keeps block)
    fun _ _ => xorBlock_length
  have again := fullBlocks_flatten_whole out (by decide)
  have back := unchain_chain start blocks (fun block _ => keeps block) inverse
    (fun _ _ => xorBlock_length) fun _ _ => xorBlock_cancel
  have joined := flatten_fullBlocks 8 data
  rw [restOf_eq_nil whole, List.append_nil] at joined
  constructor
  · rw [length_flatten_of_full out, length_chainBlocks, ← length_flatten_of_full blocks, joined]
  · rw [again, back, joined]

/-! ## Data -/

theorem iDesCBC_inverse (vector : ∀ iv ∈ pucIV, iv.length = 8) (whole : data.length % 8 = 0)
    (pszKey : List Byte) : ∃ out, iDesCBC pucIV data pszKey PED_ENCRYPT = .ok out ∧
      out.length = data.length ∧ iDesCBC pucIV out pszKey PED_DECRYPT = .ok data := by
  have opposite : PED_ENCRYPT = DE1 ↔ PED_DECRYPT ≠ DE1 := by decide
  obtain ⟨length, back⟩ := unchain_chain_data (des · pszKey PED_ENCRYPT) (des · pszKey PED_DECRYPT) vector
    whole (fun _ => rfl) fun block full => des_opposite opposite full pszKey
  refine ⟨_, ?_, length, ?_⟩
  · rw [iDesCBC, if_neg (not_not_intro whole), if_pos rfl]
  · rw [iDesCBC, if_neg (not_not_intro (length ▸ whole)), if_neg (by decide), if_pos rfl, back]

/-- What was encrypted in a chain is decrypted with the same key and the same first block. -/
theorem iTCBC_roundTrip (pszKey : List Byte) (vector : ∀ iv ∈ pucIV, iv.length = 8)
    (whole : data.length % 8 = 0) (length : iKeyLen = 8 ∨ iKeyLen = 16 ∨ iKeyLen = 24) :
    ∃ out, iTCBC pucIV data pszKey iKeyLen PED_ENCRYPT = .ok out ∧ out.length = data.length ∧
      iTCBC pucIV out pszKey iKeyLen PED_DECRYPT = .ok data := by
  by_cases single : iKeyLen = 8
  · obtain ⟨out, encrypted, same, decrypted⟩ := iDesCBC_inverse vector whole pszKey
    refine ⟨out, ?_, same, ?_⟩
    · rw [iTCBC, if_neg (not_not_intro whole), if_pos single, encrypted]
    · rw [iTCBC, if_neg (not_not_intro (same ▸ whole)), if_pos single, decrypted]
  · have several : ¬ (iKeyLen ≠ 16 ∧ iKeyLen ≠ 24) := by omega
    obtain ⟨same, back⟩ := unchain_chain_data (tripleEncrypt pszKey iKeyLen)
      (tripleDecrypt pszKey iKeyLen) vector whole (fun _ => rfl)
      fun block full => tripleDecrypt_tripleEncrypt full
    refine ⟨_, ?_, same, ?_⟩
    · rw [iTCBC, if_neg (not_not_intro whole), if_neg single, if_neg several, if_pos rfl]
    · rw [iTCBC, if_neg (not_not_intro (same ▸ whole)), if_neg single, if_neg several,
        if_neg (by decide), if_pos rfl, back]

theorem iTCBC_roundTrip_zeros :
    ∃ out, iTCBC none (List.replicate 16 0) (List.replicate 24 5) 24 PED_ENCRYPT = .ok out ∧
      out.length = (List.replicate 16 (0 : Byte)).length ∧
        iTCBC none out (List.replicate 24 5) 24 PED_DECRYPT = .ok (List.replicate 16 0) :=
  iTCBC_roundTrip (List.replicate 24 5) (by simp) rfl (.inr (.inr rfl))

theorem invertByte_invertByte (c : Byte) : invertByte (invertByte c) = c := by
  rw [invertByte, invertByte, BitVec.xor_assoc, BitVec.xor_self, BitVec.xor_zero]

theorem iDes_inverse (data pszKey : List Byte) :
    ∃ out, iDes (some data) true (some pszKey) PED_ENCRYPT = .ok out ∧
      out.length = data.length ∧ iDes (some out) true (some pszKey) PED_DECRYPT = .ok data := by
  have opposite : PED_ENCRYPT = DE1 ↔ PED_DECRYPT ≠ DE1 := by decide
  have positive : 0 < 8 := by decide
  have back := blockwise_inverse (des · pszKey PED_ENCRYPT) (des · pszKey PED_DECRYPT) invertByte
    positive (fun _ _ => rfl) (fun block full => des_opposite opposite full pszKey)
    invertByte_invertByte data
  refine ⟨_, rfl, length_blockwise (fun block _ => des_length block pszKey PED_ENCRYPT) data, ?_⟩
  exact congrArg Except.ok back

theorem iTdes_inverse (pszKey : List Byte) (iKeyLen : Int) (whole : data.length % 8 = 0) :
    ∃ out, iTdes data pszKey iKeyLen PED_ENCRYPT = .ok out ∧ out.length = data.length ∧
      iTdes out pszKey iKeyLen PED_DECRYPT = .ok data := by
  by_cases single : iKeyLen = 8
  · obtain ⟨out, encrypted, same, decrypted⟩ := iDes_inverse data pszKey
    refine ⟨out, ?_, same, ?_⟩
    · rw [iTdes, if_neg (not_not_intro whole), if_pos single, encrypted]
    · rw [iTdes, if_neg (not_not_intro (same ▸ whole)), if_pos single, decrypted]
  · have blocks : ∀ cipher, ((fullBlocks 8 data).map cipher).flatten =
        blockwise 8 cipher id data := by
      intro cipher
      rw [blockwise, restOf_eq_nil whole, List.map_nil, List.append_nil]
    have same : (blockwise 8 (tripleEncrypt pszKey iKeyLen) id data).length = data.length :=
      length_blockwise (fun block _ => tripleEncrypt_length pszKey iKeyLen block) data
    have positive : 0 < 8 := by decide
    have back := blockwise_inverse (tripleEncrypt pszKey iKeyLen) (tripleDecrypt pszKey iKeyLen) id
      positive (fun _ _ => rfl) (fun block full => tripleDecrypt_tripleEncrypt full) (fun _ => rfl) data
    refine ⟨_, ?_, same, ?_⟩
    · rw [iTdes, if_neg (not_not_intro whole), if_neg single, if_pos rfl, blocks]
    · rw [iTdes, if_neg (not_not_intro (same ▸ whole)), if_neg single, if_neg (by decide), if_pos rfl]
      rw [blockwise, restOf_eq_nil (same ▸ whole), List.map_nil, List.append_nil] at back
      rw [back]

/-- Block for block `iDes` takes back data of every length, and `iTdes` those that are whole blocks,
with whatever length of the key. -/
theorem iTdes_roundTrip (pszKey : List Byte) (iKeyLen : Int) (data : List Byte) :
    (∃ out, iDes (some data) true (some pszKey) PED_ENCRYPT = .ok out ∧
      out.length = data.length ∧ iDes (some out) true (some pszKey) PED_DECRYPT = .ok data) ∧
    (data.length % 8 = 0 → ∃ out, iTdes data pszKey iKeyLen PED_ENCRYPT = .ok out ∧
      out.length = data.length ∧ iTdes out pszKey iKeyLen PED_DECRYPT = .ok data) :=
  ⟨iDes_inverse data pszKey, iTdes_inverse pszKey iKeyLen⟩

theorem iTdes_roundTrip_zeros :
    ∃ out, iTdes (List.replicate 16 0) (List.replicate 16 5) 16 PED_ENCRYPT = .ok out ∧
      out.length = (List.replicate 16 (0 : Byte)).length ∧
        iTdes out (List.replicate 16 5) 16 PED_DECRYPT = .ok (List.replicate 16 0) :=
  (iTdes_roundTrip (List.replicate 16 5) 16 (List.replicate 16 0)).2 rfl

/-! ## Keys with equal parts -/

section EqualParts

variable {single : List Byte}

theorem passes_equal (eight : single.length = 8) (keys : pszKey = single ++ single ∧ iKeyLen = 16 ∨
    pszKey = single ++ single ++ single ∧ iKeyLen = 24) (input : List Byte) (mode : Int) :
    des input pszKey mode = des input single mode ∧
      des input (pszKey.drop 8) mode = des input single mode ∧
        des input (thirdKey pszKey iKeyLen) mode = des input single mode := by
  have behind (more : List Byte) : (single ++ more).drop 8 = more := by
    rw [← eight, List.drop_left]
  rcases keys with ⟨rfl, rfl⟩ | ⟨rfl, rfl⟩
  · rw [behind, thirdKey, if_neg (by decide)]
    exact ⟨des_key_append eight .., rfl, des_key_append eight ..⟩
  · have last : (single ++ (single ++ single)).drop 16 = single := by
      rw [show 16 = 8 + 8 from rfl, ← List.drop_drop, behind, behind]
    rw [List.append_assoc, behind, thirdKey, if_pos rfl, last]
    exact ⟨des_key_append eight .., des_key_append eight .., rfl⟩

theorem triple_equal (eight : single.length = 8) (keys : pszKey = single ++ single ∧ iKeyLen = 16 ∨
    pszKey = single ++ single ++ single ∧ iKeyLen = 24) (block : List Byte) (full : block.length = 8) :
    tripleEncrypt pszKey iKeyLen block = des block single PED_ENCRYPT ∧
      tripleDecrypt pszKey iKeyLen block = des block single PED_DECRYPT := by
  have passes := passes_equal eight keys
  constructor
  · rw [tripleEncrypt, (passes _ _).2.2, (passes _ _).2.1, (passes _ _).1,
      des_opposite (by decide) full]
  · rw [tripleDecrypt, (passes _ _).1, (passes _ _).2.1, (passes _ _).2.2,
      des_opposite (by decide) full]

theorem chainBlocks_congr {cipher cipher' : List Byte → List Byte}
    (same : ∀ block, block.length = 8 → cipher block = cipher' block)
    (keeps : ∀ block, (cipher block).length = 8) {blocks : List (List Byte)} {last : List Byte}
    (start : last.length = 8) (full : ∀ block ∈ blocks, block.length = 8) :
    chainBlocks xorBlock cipher last blocks = chainBlocks xorBlock cipher' last blocks := by
  induction blocks generalizing last with
  | nil => rfl
  | cons block blocks ih =>
      have next := same _ (xorBlock_length start (full block List.mem_cons_self))
      have rest := ih (keeps (xorBlock last block)) fun other member =>
        full other (List.mem_cons_of_mem _ member)
      simp only [chainBlocks]
      rw [rest, next]

theorem unchainBlocks_congr {decipher decipher' : List Byte → List Byte}
    (same : ∀ block, block.length = 8 → decipher block = decipher' block)
    (last : List Byte) {blocks : List (List Byte)} (full : ∀ block ∈ blocks, block.length = 8) :
    unchainBlocks xorBlock decipher last blocks = unchainBlocks xorBlock decipher' last blocks := by
  induction blocks generalizing last with
  | nil => rfl
  | cons block blocks ih =>
      rw [unchainBlocks, unchainBlocks, same block (full block List.mem_cons_self),
        ih block fun other member => full other (List.mem_cons_of_mem _ member)]

/-- A key of equal parts does what one part does alone, in every mode and for all data, so a
head that knows only single keys is served by the same function. -/
theorem iTCBC_equal_parts (eight : single.length = 8)
    (keys : pszKey = single ++ single ∧ iKeyLen = 16 ∨
      pszKey = single ++ single ++ single ∧ iKeyLen = 24)
    (vector : ∀ iv ∈ pucIV, iv.length = 8) (data : List Byte) (ucMode : Int) :
    iTCBC pucIV data pszKey iKeyLen ucMode = iTCBC pucIV data single 8 ucMode := by
  have blocks : ∀ block ∈ fullBlocks 8 data, block.length = 8 := fun _ => length_of_mem_fullBlocks
  have encrypted := chainBlocks_congr (fun block full => (triple_equal eight keys block full).1)
    (fun _ => rfl) (firstVector_length vector) blocks
  have decrypted := unchainBlocks_congr (fun block full => (triple_equal eight keys block full).2)
    (firstVector pucIV) blocks
  have several : iKeyLen ≠ 8 ∧ ¬ (iKeyLen ≠ 16 ∧ iKeyLen ≠ 24) := by
    rcases keys with ⟨-, rfl⟩ | ⟨-, rfl⟩ <;> decide
  rw [iTCBC, iTCBC, if_neg several.1, if_neg several.2, if_pos rfl, iDesCBC, encrypted, decrypted]
  split_ifs <;> rfl

theorem iTCBC_equal_parts_zeros :
    iTCBC none (List.replicate 16 0) (List.replicate 8 5 ++ List.replicate 8 5) 16 PED_ENCRYPT =
      iTCBC none (List.replicate 16 0) (List.replicate 8 5) 8 PED_ENCRYPT :=
  iTCBC_equal_parts rfl (.inl ⟨rfl, rfl⟩) (by simp) _ _

end EqualParts

end PosFirmware.MagCard
