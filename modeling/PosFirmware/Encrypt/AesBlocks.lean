import PosFirmware.Encrypt.AesStandard

/-! # The second block cipher is the standard one

The firmware looks up whole columns, and decrypts with keys that are mixed back and the steps of a
round in another order. Its blocks are those of the standard for keys of all three sizes
(`sAes_standard`), and data of any length come back from the two directions of `AES`
(`AES_roundTrip`).
-/

namespace PosFirmware.Encrypt

open Foundation

/-! ## Words for columns -/

/-- The bytes of the four words of a state. -/
def columns (X : AesState) : Grid := fun c r => octet (X.get c) (8 * r)

theorem octet_joinOctets (a b c d : Byte) (r : Fin 4) :
    octet (joinOctets a b c d) (8 * r) = ![d, c, b, a] r := by
  match r with
  | 0 => exact octet_joinOctets_0 a b c d
  | 1 => exact octet_joinOctets_8 a b c d
  | 2 => exact octet_joinOctets_16 a b c d
  | 3 => exact octet_joinOctets_24 a b c d

theorem octet_ROTL8 (x : Word) : octet (ROTL8 x) 0 = octet x 24 ∧
    ∀ low, 8 ≤ low → low ≤ 24 → octet (ROTL8 x) low = octet x (low - 8) := by
  constructor
  · refine BitVec.eq_of_getLsbD_eq fun i inside => ?_
    simp only [octet, ROTL8, BitVec.getLsbD_extractLsb', BitVec.getLsbD_or, BitVec.getLsbD_shiftLeft,
      BitVec.getLsbD_ushiftRight, Nat.zero_add]
    simp [inside]
  · intro low above below
    refine BitVec.eq_of_getLsbD_eq fun i inside => ?_
    have place : low + i < 32 ∧ ¬ low + i < 8 ∧ low + i - 8 = low - 8 + i := by omega
    simp only [octet, ROTL8, BitVec.getLsbD_extractLsb', BitVec.getLsbD_or, BitVec.getLsbD_shiftLeft,
      BitVec.getLsbD_ushiftRight, BitVec.getLsbD_of_ge x (24 + (low + i)) (by omega), place]
    simp [inside]

theorem ROTL8_joinOctets (a b c d : Byte) : ROTL8 (joinOctets a b c d) = joinOctets b c d a := by
  obtain ⟨first, others⟩ := octet_ROTL8 (joinOctets a b c d)
  have second := others 8 (by decide) (by decide)
  have third := others 16 (by decide) (by decide)
  have fourth := others 24 (by decide) (by decide)
  rw [← joinOctets_octet (ROTL8 (joinOctets a b c d)), first, second, third, fourth,
    octet_joinOctets_24, octet_joinOctets_0, octet_joinOctets_8, octet_joinOctets_16]

theorem fourBytes_eq (b0 b1 b2 b3 : Byte) :
    fourBytes b0 b1 b2 b3 = joinOctets (sBox b3) (sBox b2) (sBox b1) (sBox b0) := by
  rw [fourBytes, xor_shiftLeft_eq_joinOctets, FSb_eq, FSb_eq, FSb_eq, FSb_eq]

theorem fourBytesBack_eq (b0 b1 b2 b3 : Byte) :
    fourBytesBack b0 b1 b2 b3 = joinOctets (invSBox b3) (invSBox b2) (invSBox b1) (invSBox b0) := by
  rw [fourBytesBack, xor_shiftLeft_eq_joinOctets, RSb_eq, RSb_eq, RSb_eq, RSb_eq]

set_option maxRecDepth 4000 in
theorem MUL_eq : ∀ x : Byte, MUL 0x0E x.toNat = (gmul 14 x).toNat ∧ MUL 0x09 x.toNat = (gmul 9 x).toNat ∧
    MUL 0x0D x.toNat = (gmul 13 x).toNat ∧ MUL 0x0B x.toNat = (gmul 11 x).toNat := by
  decide

theorem XTIME_eq : ∀ x : Byte, XTIME x.toNat &&& 0xFF = (gmul 2 x).toNat ∧
    ((XTIME x.toNat &&& 0xFF) ^^^ x.toNat) &&& 0xFF = (gmul 3 x).toNat := by
  decide

theorem ofNat_toNat_setWidth (x : Byte) : BitVec.ofNat 32 x.toNat = x.setWidth 32 := BitVec.ofNat_toNat ..

theorem FT0_eq (b : Byte) :
    FT0 b = joinOctets (gmul 3 (sBox b)) (sBox b) (sBox b) (gmul 2 (sBox b)) := by
  obtain ⟨double, triple⟩ := XTIME_eq (FSb b)
  rw [FT0, triple, double, ofNat_toNat_setWidth, ofNat_toNat_setWidth, ofNat_toNat_setWidth,
    xor_shiftLeft_eq_joinOctets, FSb_eq]

theorem RT0_eq (b : Byte) : RT0 b = joinOctets (gmul 11 (invSBox b)) (gmul 13 (invSBox b))
    (gmul 9 (invSBox b)) (gmul 14 (invSBox b)) := by
  obtain ⟨first, second, third, fourth⟩ := MUL_eq (RSb b)
  rw [RT0, first, second, third, fourth, ofNat_toNat_setWidth, ofNat_toNat_setWidth,
    ofNat_toNat_setWidth, ofNat_toNat_setWidth, xor_shiftLeft_eq_joinOctets, RSb_eq]

/-! ## The rounds -/

theorem columns_ofFn (word : Fin 4 → Word) (c r : Fin 4) :
    columns (.ofFn word) c r = octet (word c) (8 * r) := by
  rw [columns, AesState.get_ofFn]

theorem forall_rows {p : Fin 4 → Prop} (first : p 0) (second : p 1) (third : p 2) (fourth : p 3) :
    ∀ r, p r :=
  Fin.cases first (Fin.cases second (Fin.cases third (Fin.cases fourth fun i => i.elim0)))

theorem columns_fround (RK Y : AesState) : columns (fround RK Y) =
    addRoundKey (columns RK) (mixColumns (shiftRows (subBytes (columns Y)))) := by
  funext c r
  have one (b : Byte) : gmul 1#8 b = b := (gmul_comm 1 b).trans (gmul_one b)
  rw [fround, columns_ofFn]
  simp only [FT1, FT2, FT3, FT0_eq, ROTL8_joinOctets, octet_xor, octet_joinOctets, addRoundKey,
    mixColumns, mixColumn, shiftRows, subBytes, columns]
  induction r using forall_rows <;>
    · simp [one]
      ac_rfl

theorem columns_flast (RK Y : AesState) : columns (flast RK Y) =
    addRoundKey (columns RK) (shiftRows (subBytes (columns Y))) := by
  funext c r
  rw [flast, columns_ofFn]
  simp only [fourBytes_eq, octet_xor, octet_joinOctets, addRoundKey, shiftRows, subBytes, columns]
  induction r using forall_rows <;>
    · simp
      ac_rfl

theorem sub_eq_add (c : Fin 4) : c - 1 = c + 3 ∧ c - 2 = c + 2 ∧ c - 3 = c + 1 := by
  revert c
  decide

theorem columns_rround (RK Y : AesState) : columns (rround RK Y) =
    addRoundKey (columns RK) (invMixColumns (invSubBytes (invShiftRows (columns Y)))) := by
  funext c r
  rw [rround, columns_ofFn]
  simp only [RT1, RT2, RT3, RT0_eq, ROTL8_joinOctets, octet_xor, octet_joinOctets, addRoundKey,
    invMixColumns, mixColumn, invShiftRows, invSubBytes, columns]
  induction r using forall_rows <;>
    · simp [sub_eq_add]
      ac_rfl

theorem columns_rlast (RK Y : AesState) : columns (rlast RK Y) =
    addRoundKey (columns RK) (invSubBytes (invShiftRows (columns Y))) := by
  funext c r
  rw [rlast, columns_ofFn]
  simp only [fourBytesBack_eq, octet_xor, octet_joinOctets, addRoundKey, invShiftRows, invSubBytes,
    columns]
  induction r using forall_rows <;>
    · simp [sub_eq_add]
      ac_rfl

theorem octet_mixedWord (SK : Word) (r : Fin 4) : octet (mixedWord SK) (8 * r) =
    mixColumn ![14, 11, 13, 9] (fun r => octet SK (8 * r)) r := by
  simp only [mixedWord, RT1, RT2, RT3, RT0_eq, ROTL8_joinOctets, FSb_eq, invSBox_sBox, octet_xor,
    octet_joinOctets, mixColumn]
  induction r using forall_rows with
  | first => simp
  | _ =>
      simp
      ac_rfl

theorem mixColumn_xor (factors one other : Fin 4 → Byte) :
    mixColumn factors (fun r => one r ^^^ other r) =
      fun r => mixColumn factors one r ^^^ mixColumn factors other r := by
  funext r
  simp only [mixColumn, gmul_linear _ _ _]
  ac_rfl

theorem invMixColumns_addRoundKey (key s : Grid) :
    invMixColumns (addRoundKey key s) = addRoundKey (invMixColumns key) (invMixColumns s) :=
  funext fun c => mixColumn_xor _ (s c) (key c)

theorem aesRounds_eq (round : AesState → AesState → AesState) (ctx : AesContext) (X : AesState)
    {half : Nat} (even : ctx.nr = 2 * (half + 1)) : aesRounds round ctx X =
      (List.range (ctx.nr - 1)).foldl (fun X i => round (keyGroup ctx (i + 1)) X) X := by
  have turns : (ctx.nr >>> 1) - 1 = half := by
    rw [even, Nat.shiftRight_one]
    omega
  have pairs := foldl_pairs (fun i X => round (keyGroup ctx (i + 1)) X) X half
  have rounds : ctx.nr - 1 = 2 * half + 1 := by omega
  rw [aesRounds, turns, rounds, List.range_succ, List.foldl_append, ← pairs]
  rfl

theorem columns_loadState (input : List Byte) (RK : AesState) :
    columns (loadState input RK) = addRoundKey (columns RK) (gridOf input) := by
  funext c r
  rw [loadState, columns_ofFn, octet_xor, getUint32Le, octet_joinOctets]
  match r with
  | 0 | 1 | 2 | 3 => rfl

theorem gridOf_storeState (X : AesState) : gridOf (storeState X) = columns X := by
  funext c r
  match c, r with
  | 0, 0 | 0, 1 | 0, 2 | 0, 3 | 1, 0 | 1, 1 | 1, 2 | 1, 3 => rfl
  | 2, 0 | 2, 1 | 2, 2 | 2, 3 | 3, 0 | 3, 1 | 3, 2 | 3, 3 => rfl

theorem block_eq_of_grid {one other : List Byte} (full : one.length = 16) (full' : other.length = 16)
    (same : gridOf one = gridOf other) : one = other := by
  apply List.ext_getElem (full.trans full'.symm)
  intro i inside inside'
  have byte := congrFun (congrFun same ⟨i / 4, by omega⟩) ⟨i % 4, by omega⟩
  simp only [gridOf, Nat.div_add_mod] at byte
  rwa [List.getD_eq_getElem _ _ inside, List.getD_eq_getElem _ _ inside'] at byte

/-- The keys of a context as the standard sees them. -/
def contextKeys (ctx : AesContext) (round : Nat) : Grid := columns (keyGroup ctx round)

theorem gridOf_encrypt {ctx : AesContext} {half : Nat} (even : ctx.nr = 2 * (half + 1))
    (input : List Byte) : gridOf (aesCryptEcb ctx AES_MODE_ENCRYPT input) =
      cipher ctx.nr (contextKeys ctx) (gridOf input) := by
  have rounds (count : Nat) : columns ((List.range count).foldl
      (fun X i => fround (keyGroup ctx (i + 1)) X) (loadState input (keyGroup ctx 0))) =
        cipherState (contextKeys ctx) (gridOf input) count := by
    induction count with
    | zero => exact columns_loadState input _
    | succ count ih =>
        rw [List.range_succ, List.foldl_append, List.foldl_cons, List.foldl_nil, columns_fround, ih,
          cipherState_succ]
        rfl
  have encrypt : ¬ AES_MODE_ENCRYPT = AES_MODE_DECRYPT := by decide
  rw [aesCryptEcb, if_neg encrypt, gridOf_storeState, columns_flast, aesRounds_eq _ _ _ even, rounds]
  rfl

/-- A schedule for the decryption: the keys of an encryption backwards, all but the outer ones
mixed back. -/
structure Backwards (ctx : AesContext) (keys : Nat → Grid) : Prop where
  first : contextKeys ctx 0 = keys ctx.nr
  between : ∀ i, 0 < i → i < ctx.nr → contextKeys ctx i = invMixColumns (keys (ctx.nr - i))
  last : contextKeys ctx ctx.nr = keys 0

theorem gridOf_decrypt {ctx : AesContext} {half : Nat} {keys : Nat → Grid}
    (even : ctx.nr = 2 * (half + 1)) (backwards : Backwards ctx keys) (input : List Byte) :
    gridOf (aesCryptEcb ctx AES_MODE_DECRYPT input) = decipher ctx.nr keys (gridOf input) := by
  have rounds (count : Nat) (inside : count ≤ ctx.nr - 1) : columns ((List.range count).foldl
      (fun X i => rround (keyGroup ctx (i + 1)) X) (loadState input (keyGroup ctx 0))) =
        (List.range count).foldl
          (fun s i => invMixColumns
            (addRoundKey (keys (ctx.nr - 1 - i)) (invSubBytes (invShiftRows s))))
          (addRoundKey (keys ctx.nr) (gridOf input)) := by
    induction count with
    | zero =>
        rw [← backwards.first]
        exact columns_loadState input _
    | succ count ih =>
        have key : columns (keyGroup ctx (count + 1)) = invMixColumns (keys (ctx.nr - 1 - count)) := by
          have between := backwards.between (count + 1) (Nat.succ_pos _) (by omega)
          rwa [show ctx.nr - (count + 1) = ctx.nr - 1 - count by omega] at between
        rw [List.range_succ, List.foldl_append, List.foldl_append, List.foldl_cons, List.foldl_nil,
          List.foldl_cons, List.foldl_nil, columns_rround, ih (by omega), key,
          invMixColumns_addRoundKey]
  have last : columns (keyGroup ctx ctx.nr) = keys 0 := backwards.last
  rw [aesCryptEcb, if_pos rfl, gridOf_storeState, columns_rlast, aesRounds_eq _ _ _ even,
    rounds _ (Nat.le_refl _), last]
  rfl

/-! ## The key schedules -/

/-- The words of the schedule are those of the standard's key expansion. -/
def Expanded (nk : Nat) (key : List Byte) (RK : List Word) : Prop :=
  ∀ n < RK.length, ∀ r : Fin 4, octet (RK.getD n 0) (8 * r) = keyWord nk key n r

variable {nk : Nat} {key : List Byte} {RK : List Word}

theorem keyWord_first {n : Nat} (first : n < nk) (r : Fin 4) :
    keyWord nk key n r = key.getD (4 * n + r) 0 := by
  rw [keyWord, if_pos (.inl first)]

theorem keyWord_next {n : Nat} (positive : 0 < nk) (next : nk ≤ n) (r : Fin 4) : keyWord nk key n r =
    keyWord nk key (n - nk) r ^^^ keyTemp nk n (keyWord nk key (n - 1)) r := by
  rw [keyWord, if_neg (by omega)]

theorem Expanded.append {word : Word} (expanded : Expanded nk key RK)
    (next : ∀ r : Fin 4, octet word (8 * r) = keyWord nk key RK.length r) :
    Expanded nk key (RK ++ [word]) := by
  intro n inside r
  rw [List.length_append, List.length_singleton] at inside
  rcases Nat.lt_succ_iff_lt_or_eq.mp inside with earlier | rfl
  · rw [List.getD_append _ _ _ _ earlier]
    exact expanded n earlier r
  · rw [List.getD_append_right _ _ _ _ (Nat.le_refl _), Nat.sub_self]
    exact next r

theorem RCON_eq : ∀ i < 10, RCON i = joinOctets 0 0 0 (roundConstant (i + 1)) := by decide

theorem octet_nextWord (sizes : nk = 4 ∨ nk = 6 ∨ nk = 8) {i j : Nat} (few : i < 10) (inside : j < nk)
    (expanded : Expanded nk key RK) (length : RK.length = nk * i + nk + j) (r : Fin 4) :
    octet (nextWord nk (nk * i) i RK j) (8 * r) =
      keyTemp nk RK.length (keyWord nk key (RK.length - 1)) r := by
  have place : RK.length = nk * (i + 1) + j := by rw [length, Nat.mul_succ]
  have rest : RK.length % nk = j := by rw [place, Nat.mul_add_mod, Nat.mod_eq_of_lt inside]
  have group : RK.length / nk = i + 1 := by
    rw [place, Nat.mul_add_div (by omega), Nat.div_eq_of_lt inside, Nat.add_zero]
  have last (r : Fin 4) : octet (RK.getD (RK.length - 1) 0) (8 * r) = keyWord nk key (RK.length - 1) r :=
    expanded _ (by omega) r
  unfold nextWord keyTemp
  rw [rest, group]
  by_cases first : j = 0
  · have before : nk * i + nk - 1 = RK.length - 1 := by omega
    rw [if_pos first, if_pos first, before, RCON_eq i few]
    dsimp only
    rw [fourBytes_eq, octet_xor, octet_joinOctets, octet_joinOctets]
    match r with
    | 0 => exact (BitVec.xor_comm _ _).trans (congrArg (sBox · ^^^ _) (last 1))
    | 1 => exact (BitVec.xor_comm _ _).trans (congrArg (sBox · ^^^ _) (last 2))
    | 2 => exact (BitVec.xor_comm _ _).trans (congrArg (sBox · ^^^ _) (last 3))
    | 3 => exact (BitVec.xor_comm _ _).trans (congrArg (sBox · ^^^ _) (last 0))
  · rw [if_neg first, if_neg first]
    by_cases fourth : nk = 8 ∧ j = 4
    · have before : nk * i + nk + 3 = RK.length - 1 := by omega
      have large : nk > 6 ∧ j = 4 := by omega
      rw [if_pos fourth, if_pos large, before]
      dsimp only
      rw [fourBytes_eq, octet_joinOctets]
      match r with
      | 0 => exact congrArg sBox (last 0)
      | 1 => exact congrArg sBox (last 1)
      | 2 => exact congrArg sBox (last 2)
      | 3 => exact congrArg sBox (last 3)
    · have before : nk * i + nk + j - 1 = RK.length - 1 := by omega
      have other : ¬ (nk > 6 ∧ j = 4) := by omega
      rw [if_neg fourth, if_neg other, before, last]

theorem expandGroup_expanded (sizes : nk = 4 ∨ nk = 6 ∨ nk = 8) {i : Nat} (few : i < 10)
    (expanded : Expanded nk key RK) (length : RK.length = nk * i + nk) :
    Expanded nk key (expandGroup nk RK i) ∧ (expandGroup nk RK i).length = nk * (i + 1) + nk := by
  have turns (count : Nat) (inside : count ≤ nk) : Expanded nk key ((List.range count).foldl
      (fun RK j => RK ++ [RK.getD (nk * i + j) 0 ^^^ nextWord nk (nk * i) i RK j]) RK) ∧
      ((List.range count).foldl
        (fun RK j => RK ++ [RK.getD (nk * i + j) 0 ^^^ nextWord nk (nk * i) i RK j]) RK).length =
          nk * i + nk + count := by
    induction count with
    | zero => exact ⟨expanded, length⟩
    | succ count ih =>
        obtain ⟨before, size⟩ := ih (by omega)
        rw [List.range_succ, List.foldl_append, List.foldl_cons, List.foldl_nil]
        generalize (List.range count).foldl _ RK = RK' at before size ⊢
        constructor
        · apply before.append
          intro r
          have old : RK'.length - nk = nk * i + count := by omega
          rw [octet_xor, octet_nextWord sizes few (by omega) before size, keyWord_next (by omega)
            (by omega), old, before _ (by omega)]
        · rw [List.length_append, size, List.length_singleton]
          rfl
  obtain ⟨all, size⟩ := turns nk (Nat.le_refl _)
  refine ⟨all, size.trans ?_⟩
  rw [Nat.mul_succ]

/-- The sizes of a key: its bits, the rounds, and its words. -/
inductive KeySize : Nat → Nat → Nat → Prop
  | bits128 : KeySize 128 10 4
  | bits192 : KeySize 192 12 6
  | bits256 : KeySize 256 14 8

namespace KeySize

variable {keysize nr : Nat}

theorem rounds (size : KeySize keysize nr nk) : roundsOf keysize = some nr := by
  cases size <;> rfl

theorem words (size : KeySize keysize nr nk) : keysize >>> 5 = nk := by
  cases size <;> rfl

theorem sizes (size : KeySize keysize nr nk) : nk = 4 ∨ nk = 6 ∨ nk = 8 := by
  cases size <;> decide

theorem passes (size : KeySize keysize nr nk) :
    passesOf nr ≤ 10 ∧ 4 * (nr + 1) ≤ nk * passesOf nr + nk := by
  cases size <;> decide

theorem even (size : KeySize keysize nr nk) : ∃ half, nr = 2 * (half + 1) := by
  cases size
  · exact ⟨4, rfl⟩
  · exact ⟨5, rfl⟩
  · exact ⟨6, rfl⟩

end KeySize

variable {keysize nr : Nat}

theorem octet_getUint32Le (b : List Byte) (i : Nat) (r : Fin 4) :
    octet (getUint32Le b i) (8 * r) = b.getD (i + r) 0 := by
  rw [getUint32Le, octet_joinOctets]
  match r with
  | 0 | 1 | 2 | 3 => rfl

theorem aesSetkeyEnc_keys (size : KeySize keysize nr nk) (key : List Byte) :
    ∃ ctx, aesSetkeyEnc key keysize = .ok ctx ∧ ctx.nr = nr ∧
      ∀ round ≤ nr, contextKeys ctx round = standardRoundKey nk key round := by
  have start : Expanded nk key ((List.range nk).map fun i => getUint32Le key (i <<< 2)) := by
    intro n inside r
    rw [List.length_map, List.length_range] at inside
    rw [List.getD_eq_getElem _ _ (by simpa using inside), List.getElem_map, List.getElem_range,
      octet_getUint32Le, keyWord_first inside, Nat.shiftLeft_eq, Nat.mul_comm]
  have passes (count : Nat) (few : count ≤ 10) : Expanded nk key ((List.range count).foldl
      (expandGroup nk) ((List.range nk).map fun i => getUint32Le key (i <<< 2))) ∧
      ((List.range count).foldl (expandGroup nk)
        ((List.range nk).map fun i => getUint32Le key (i <<< 2))).length = nk * count + nk := by
    induction count with
    | zero => exact ⟨start, by simp⟩
    | succ count ih =>
        obtain ⟨before, length⟩ := ih (by omega)
        rw [List.range_succ, List.foldl_append]
        exact expandGroup_expanded size.sizes (by omega) before length
  obtain ⟨few, enough⟩ := size.passes
  obtain ⟨expanded, length⟩ := passes (passesOf nr) few
  have made : aesSetkeyEnc key keysize = .ok ⟨nr, (List.range (passesOf nr)).foldl (expandGroup nk)
      ((List.range nk).map fun i => getUint32Le key (i <<< 2))⟩ := by
    rw [aesSetkeyEnc, size.rounds, size.words]
  refine ⟨_, made, rfl, fun round below => ?_⟩
  funext c r
  rw [contextKeys, keyGroup, columns_ofFn]
  exact expanded _ (by omega) r

theorem getD_backwardsWords {cty : AesContext} (rounds : cty.nr = nr) {m : Nat} (inside : m ≤ nr)
    (c : Fin 4) : (backwardsWords cty nr).getD (4 * m + c) 0 =
      if m = 0 ∨ m = nr then cty.rk.getD (4 * (nr - m) + c) 0
      else mixedWord (cty.rk.getD (4 * (nr - m) + c) 0) := by
  have place : (4 * m + c) / 4 = m ∧ (4 * m + c) % 4 = c ∧ 4 * m + c < 4 * (nr + 1) := by omega
  have length : 4 * m + c < (backwardsWords cty nr).length := by
    rw [backwardsWords, List.length_map, List.length_range]
    exact place.2.2
  rw [List.getD_eq_getElem _ _ length]
  simp only [backwardsWords, List.getElem_map, List.getElem_range]
  rw [place.1, place.2.1, rounds, Nat.mul_comm 4]

theorem aesSetkeyDec_keys (size : KeySize keysize nr nk) (key : List Byte) :
    ∃ ctx, aesSetkeyDec key keysize = .ok ctx ∧ ctx.nr = nr ∧
      Backwards ctx (standardRoundKey nk key) := by
  obtain ⟨cty, ok, rounds, keys⟩ := aesSetkeyEnc_keys size key
  have group (m : Nat) (inside : m ≤ nr) (c r : Fin 4) :
      octet (cty.rk.getD (4 * (nr - m) + c) 0) (8 * r) = standardRoundKey nk key (nr - m) c r := by
    have same := congrFun (congrFun (keys (nr - m) (Nat.sub_le ..)) c) r
    rwa [contextKeys, keyGroup, columns_ofFn] at same
  have made : aesSetkeyDec key keysize = .ok ⟨nr, backwardsWords cty nr⟩ := by
    rw [aesSetkeyDec, size.rounds, ok]
  refine ⟨_, made, rfl, ?_⟩
  constructor
  · funext c r
    rw [contextKeys, keyGroup, columns_ofFn, getD_backwardsWords rounds (Nat.zero_le _),
      if_pos (.inl rfl), group 0 (Nat.zero_le _)]
    rfl
  · intro m positive below
    have inside : m < nr := below
    funext c r
    rw [contextKeys, keyGroup, columns_ofFn, getD_backwardsWords rounds (Nat.le_of_lt inside),
      if_neg (by omega), octet_mixedWord]
    exact congrArg (fun column => mixColumn ![14, 11, 13, 9] column r)
      (funext fun r => group m (Nat.le_of_lt inside) c r)
  · funext c r
    rw [contextKeys, keyGroup, columns_ofFn, getD_backwardsWords rounds (Nat.le_refl _),
      if_pos (.inr rfl), group nr (Nat.le_refl _), Nat.sub_self]

theorem cipher_congr {keys keys' : Nat → Grid} (same : ∀ round ≤ nr, keys round = keys' round)
    (positive : 0 < nr) (input : Grid) : cipher nr keys input = cipher nr keys' input := by
  have rounds (count : Nat) (inside : count ≤ nr - 1) :
      cipherState keys input count = cipherState keys' input count := by
    induction count with
    | zero =>
        rw [cipherState, cipherState, same 0 (Nat.zero_le _)]
        rfl
    | succ count ih =>
        rw [cipherState_succ, cipherState_succ, ih (by omega), same (count + 1) (by omega)]
  have last := congrArg (fun s => addRoundKey (keys nr) (shiftRows (subBytes s)))
    (rounds (nr - 1) (Nat.le_refl _))
  rw [same nr (Nat.le_refl _)] at last
  exact (congrArg (addRoundKey · _) (same nr (Nat.le_refl _))).trans last

theorem aesCryptEcb_grids (size : KeySize keysize nr nk) (key input : List Byte) :
    (∃ ctx, aesSetkeyEnc key keysize = .ok ctx ∧ gridOf (aesCryptEcb ctx AES_MODE_ENCRYPT input) =
      cipher nr (standardRoundKey nk key) (gridOf input)) ∧
    ∃ ctx, aesSetkeyDec key keysize = .ok ctx ∧ gridOf (aesCryptEcb ctx AES_MODE_DECRYPT input) =
      decipher nr (standardRoundKey nk key) (gridOf input) := by
  obtain ⟨half, even⟩ := size.even
  constructor
  · obtain ⟨ctx, ok, rounds, keys⟩ := aesSetkeyEnc_keys size key
    have block := gridOf_encrypt (rounds.trans even) input
    rw [rounds] at block
    exact ⟨ctx, ok, block.trans (cipher_congr keys (by omega) _)⟩
  · obtain ⟨ctx, ok, rounds, backwards⟩ := aesSetkeyDec_keys size key
    have block := gridOf_decrypt (rounds.trans even) backwards input
    rw [rounds] at block
    exact ⟨ctx, ok, block⟩

theorem sAes_grids {keyLen : Nat} (size : KeySize (keyLen * 8) nr nk) (key input : List Byte) :
    (∃ out, sAes (some input) true (some key) keyLen AES_MODE_ENCRYPT = .ok out ∧ out.length = 16 ∧
      gridOf out = cipher nr (standardRoundKey nk key) (gridOf input)) ∧
    ∃ out, sAes (some input) true (some key) keyLen AES_MODE_DECRYPT = .ok out ∧ out.length = 16 ∧
      gridOf out = decipher nr (standardRoundKey nk key) (gridOf input) := by
  have known : ¬ (keyLen ≠ 16 ∧ keyLen ≠ 24 ∧ keyLen ≠ 32) := by
    have lengths : keyLen * 8 = 128 ∨ keyLen * 8 = 192 ∨ keyLen * 8 = 256 := by
      generalize keyLen * 8 = keysize at size
      cases size <;> decide
    omega
  have encrypt : ¬ AES_MODE_ENCRYPT = AES_MODE_DECRYPT := by decide
  obtain ⟨⟨ctx, ok, block⟩, ⟨ctx', ok', block'⟩⟩ := aesCryptEcb_grids size key input
  refine ⟨⟨_, ?_, rfl, block⟩, ⟨_, ?_, rfl, block'⟩⟩
  · simp only [sAes, if_neg known, if_neg encrypt, if_true, ok]
  · simp only [sAes, if_neg known, if_true, ok']

/-- With a key of sixteen, twenty-four or thirty-two bytes `s_Aes` is the standard's cipher, and with
the other mode the standard's way back. -/
theorem sAes_standard {keyLen : Nat} (size : KeySize (keyLen * 8) nr nk) (key input : List Byte) :
    (∃ out, sAes (some input) true (some key) keyLen AES_MODE_ENCRYPT = .ok out ∧ out.length = 16 ∧
      gridOf out = cipher nr (standardRoundKey nk key) (gridOf input)) ∧
    ∃ out, sAes (some input) true (some key) keyLen AES_MODE_DECRYPT = .ok out ∧ out.length = 16 ∧
      gridOf out = decipher nr (standardRoundKey nk key) (gridOf input) :=
  sAes_grids size key input

theorem sAes_standard_zeros :
    ∃ out, sAes (some []) true (some (List.replicate 32 0)) 32 AES_MODE_ENCRYPT = .ok out ∧
      out.length = 16 ∧
        gridOf out = cipher 14 (standardRoundKey 8 (List.replicate 32 0)) (gridOf []) :=
  (sAes_standard KeySize.bits256 (List.replicate 32 0) []).1

/-! ## Data -/

theorem aesBlock_inverse (key : List Byte) {block : List Byte} (full : block.length = 16) :
    (aesBlock key AES_MODE_ENCRYPT block).length = 16 ∧
      aesBlock key AES_MODE_DECRYPT (aesBlock key AES_MODE_ENCRYPT block) = block := by
  have size : KeySize (16 * 8) 10 4 := KeySize.bits128
  obtain ⟨out, ok, length, grid⟩ := (sAes_grids size key block).1
  obtain ⟨back, ok', length', grid'⟩ := (sAes_grids size key out).2
  have first : aesBlock key AES_MODE_ENCRYPT block = out := by rw [aesBlock, ok]
  have second : aesBlock key AES_MODE_DECRYPT out = back := by rw [aesBlock, ok']
  rw [first, second]
  refine ⟨length, block_eq_of_grid length' full ?_⟩
  rw [grid', grid, decipher_cipher]

/-- Data of any length come back from the two directions of `AES`: the full blocks through the
cipher, the bytes behind them inverted. -/
theorem AES_roundTrip (key data : List Byte) :
    ∃ out, AES (some data) true (some key) AES_MODE_ENCRYPT = .ok out ∧ out.length = data.length ∧
      AES (some out) true (some key) AES_MODE_DECRYPT = .ok data := by
  have positive : 0 < 16 := by decide
  have keeps (block : List Byte) (full : block.length = 16) := (aesBlock_inverse key full).1
  have inverse (block : List Byte) (full : block.length = 16) := (aesBlock_inverse key full).2
  have involution (c : Byte) : c ^^^ 0xff ^^^ 0xff = c := by
    rw [BitVec.xor_assoc, BitVec.xor_self, BitVec.xor_zero]
  have back := blockwise_inverse (aesBlock key AES_MODE_ENCRYPT) (aesBlock key AES_MODE_DECRYPT)
    (· ^^^ 0xff) positive keeps inverse involution data
  have encrypt : ¬ (AES_MODE_ENCRYPT ≠ AES_MODE_DECRYPT ∧ AES_MODE_ENCRYPT ≠ AES_MODE_ENCRYPT) := by
    decide
  have decrypt : ¬ (AES_MODE_DECRYPT ≠ AES_MODE_DECRYPT ∧ AES_MODE_DECRYPT ≠ AES_MODE_ENCRYPT) := by
    decide
  have same : (blockwise 16 (aesBlock key AES_MODE_ENCRYPT) (· ^^^ 0xff) data).length = data.length :=
    length_blockwise keeps data
  refine ⟨_, ?_, same, ?_⟩
  · simp only [AES, if_neg encrypt]
  · simp only [AES, if_neg decrypt, back]

end PosFirmware.Encrypt
