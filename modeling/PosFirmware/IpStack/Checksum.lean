import PosFirmware.Foundation.EndAround
import PosFirmware.IpStack.Inet

/-!
# The internet checksum

`inet_chksum` and `inet_chksum_pseudo` of `inet.c`, on a device that stores the low byte of a
number first. A packet that carries its checksum is accepted, and one of which a single word has
changed is not (`inetChksumPseudo_detects`).
-/

namespace PosFirmware.IpStack

open PosFirmware.Foundation

/-! ## The functions -/

/-- A number as a word of 32 bits. -/
def u32 (n : Nat) : Nat := n % 2 ^ 32

/-- The two bytes of a word exchanged. -/
def swapBytes (s : Nat) : Nat := ((s &&& 0xff) <<< 8) ||| ((s &&& 0xff00) >>> 8)

/-- `htons`. -/
def htons (s : Nat) : Nat := swapBytes s

/-- `htonl`. -/
def htonl (l : Ip) : Ip :=
  ((l &&& 0xff) <<< 24) ||| ((l &&& 0xff00) <<< 8) ||| ((l &&& 0xff0000) >>> 8) |||
    ((l &&& 0xff000000) >>> 24)

/-- The loop over the octets, and the octet that remains. -/
def octetLoop : Nat → List Byte → Nat
  | acc, first :: second :: rest => octetLoop (u32 (acc + (first.toNat <<< 8 ||| second.toNat))) rest
  | acc, [last] => u32 (acc + last.toNat <<< 8)
  | acc, [] => acc

/-- The carries added once. -/
def addCarries (acc : Nat) : Nat := u32 ((acc >>> 16) + (acc &&& 0xffff))

/-- `ip_standard_chksum`. -/
def ipStandardChksum (data : List Byte) : Nat :=
  let acc := addCarries (octetLoop 0 data)
  htons ((if acc &&& 0xffff0000 ≠ 0 then addCarries acc else acc) % 2 ^ 16)

/-- `while(acc >> 16)`. -/
def foldCarries (acc : Nat) : Nat :=
  if acc >>> 16 = 0 then acc else foldCarries ((acc &&& 0xffff) + (acc >>> 16))
termination_by acc
decreasing_by
  next some =>
    rw [Nat.shiftRight_eq_div_pow] at some
    rw [show (0xffff : Nat) = 2 ^ 16 - 1 from rfl, Nat.and_two_pow_sub_one_eq_mod,
      Nat.shiftRight_eq_div_pow]
    omega

/-- `(u16)~(acc & 0xffff)`. -/
def complement (acc : Nat) : Nat := 0xffff - (acc &&& 0xffff)

/-- The words of the pseudo header, as `inet_chksum_pseudo` adds them. -/
def pseudoWords (src dest : Ip) (proto : Byte) (len : Nat) : List Nat :=
  [(htonl src).toNat &&& 0xffff, ((htonl src).toNat >>> 16) &&& 0xffff,
    (htonl dest).toNat &&& 0xffff, ((htonl dest).toNat >>> 16) &&& 0xffff,
    htons proto.toNat, htons (len % 2 ^ 16)]

/-- `inet_chksum_pseudo`. An odd length exchanges the bytes twice. -/
def inetChksumPseudo (payload : List Byte) (src dest : Ip) (proto : Byte) : Nat :=
  let acc := foldCarries (u32 (0 + ipStandardChksum payload))
  let odd := payload.length % 2 ≠ 0
  let acc := if odd then swapBytes acc else acc
  let acc := if odd then swapBytes acc else acc
  let acc := (pseudoWords src dest proto payload.length).foldl (fun acc word => u32 (acc + word)) acc
  complement (foldCarries acc)

/-- `inet_chksum`. -/
def inetChksum (data : List Byte) : Nat := complement (foldCarries (ipStandardChksum data))

/-! ## Words and carries -/

theorem u32_of_lt {n : Nat} (small : n < 2 ^ 32) : u32 n = n := Nat.mod_eq_of_lt small

theorem and_ffff (n : Nat) : n &&& 0xffff = n % 2 ^ 16 := Nat.and_two_pow_sub_one_eq_mod n 16

theorem swapBytes_eq (s : Nat) : swapBytes s = s % 256 * 256 + s / 256 % 256 := by
  have low : s &&& 0xff = s % 256 := Nat.and_two_pow_sub_one_eq_mod s 8
  have high : (s &&& 0xff00) >>> 8 = s / 256 % 256 := by
    rw [Nat.shiftRight_and_distrib, Nat.shiftRight_eq_div_pow]
    exact Nat.and_two_pow_sub_one_eq_mod (s / 2 ^ 8) 8
  rw [swapBytes, low, high, ← Nat.shiftLeft_add_eq_or_of_lt (by omega), Nat.shiftLeft_eq]

theorem swapBytes_lt (s : Nat) : swapBytes s < 2 ^ 16 := by
  rw [swapBytes_eq]
  omega

theorem word_parts {s : Nat} (small : s < 2 ^ 16) :
    ∃ high low, high < 256 ∧ low < 256 ∧ s = high * 256 + low :=
  ⟨s / 256, s % 256, by omega, by omega, by omega⟩

theorem swapBytes_parts {high low : Nat} (smallHigh : high < 256) (smallLow : low < 256) :
    swapBytes (high * 256 + low) = low * 256 + high := by
  have first : (high * 256 + low) % 256 = low := by omega
  have second : (high * 256 + low) / 256 % 256 = high := by omega
  rw [swapBytes_eq, first, second]

theorem swapBytes_swapBytes {s : Nat} (small : s < 2 ^ 16) : swapBytes (swapBytes s) = s := by
  obtain ⟨high, low, smallHigh, smallLow, rfl⟩ := word_parts small
  rw [swapBytes_parts smallHigh smallLow, swapBytes_parts smallLow smallHigh]

theorem exchanged_modEq (high low : Nat) :
    low * 256 + high ≡ 256 * (high * 256 + low) [MOD 2 ^ 16 - 1] := by
  have more : 256 * (high * 256 + low) = low * 256 + high + (2 ^ 16 - 1) * high := by omega
  rw [more]
  exact (Nat.add_mul_mod_self_left _ _ _).symm

theorem swapBytes_modEq {s : Nat} (small : s < 2 ^ 16) : swapBytes s ≡ 256 * s [MOD 2 ^ 16 - 1] := by
  obtain ⟨high, low, smallHigh, smallLow, rfl⟩ := word_parts small
  rw [swapBytes_parts smallHigh smallLow]
  exact exchanged_modEq high low

theorem octet_word (first second : Byte) :
    first.toNat <<< 8 ||| second.toNat = first.toNat * 256 + second.toNat := by
  rw [← Nat.shiftLeft_add_eq_or_of_lt second.isLt, Nat.shiftLeft_eq]

/-- The words of some bytes, as the device reads them, with a zero behind an odd byte. -/
def words : List Byte → List Nat
  | first :: second :: rest => (first.toNat + second.toNat * 256) :: words rest
  | [last] => [last.toNat]
  | [] => []

/-- The sum of the words in the other order of bytes. -/
def octetSum : List Byte → Nat
  | first :: second :: rest => first.toNat * 256 + second.toNat + octetSum rest
  | [last] => last.toNat * 256
  | [] => 0

theorem octetSum_le (data : List Byte) : octetSum data ≤ 0xffff * ((data.length + 1) / 2) := by
  induction data using octetSum.induct with
  | case1 first second rest past =>
    have one := first.isLt
    have two := second.isLt
    rw [octetSum, List.length_cons, List.length_cons]
    omega
  | case2 last =>
    have one := last.isLt
    rw [octetSum, List.length_singleton]
    omega
  | case3 => exact Nat.zero_le _

/-- **No carry is lost** in the loop over the octets. -/
theorem octetLoop_eq (acc : Nat) (data : List Byte) (small : acc + octetSum data < 2 ^ 32) :
    octetLoop acc data = acc + octetSum data := by
  induction data using octetSum.induct generalizing acc with
  | case1 first second rest past =>
    rw [octetSum] at small ⊢
    rw [← Nat.add_assoc] at small ⊢
    rw [octetLoop, octet_word, u32_of_lt (Nat.lt_of_le_of_lt (Nat.le_add_right _ _) small)]
    exact past _ small
  | case2 last =>
    rw [octetSum] at small ⊢
    rw [octetLoop, Nat.shiftLeft_eq, u32_of_lt small]
  | case3 => rfl

theorem words_modEq (data : List Byte) : (words data).sum ≡ 256 * octetSum data [MOD 2 ^ 16 - 1] := by
  induction data using octetSum.induct with
  | case1 first second rest past =>
    have one : first.toNat + second.toNat * 256 ≡
        256 * (first.toNat * 256 + second.toNat) [MOD 2 ^ 16 - 1] := by
      rw [Nat.add_comm]
      exact exchanged_modEq first.toNat second.toNat
    rw [words, List.sum_cons, octetSum, Nat.mul_add]
    exact one.add past
  | case2 last =>
    have one := exchanged_modEq last.toNat 0
    rw [Nat.zero_mul, Nat.zero_add, Nat.add_zero] at one
    rw [words, List.sum_singleton, octetSum]
    exact one
  | case3 => rfl

theorem words_pos_iff (data : List Byte) : 0 < (words data).sum ↔ 0 < octetSum data := by
  induction data using octetSum.induct with
  | case1 first second rest past =>
    rw [words, List.sum_cons, octetSum]
    omega
  | case2 last =>
    rw [words, List.sum_singleton, octetSum]
    omega
  | case3 => exact Iff.rfl

theorem addCarries_eq {acc : Nat} (small : acc < 2 ^ 32) : addCarries acc = endAround 16 acc := by
  rw [addCarries, and_ffff, Nat.shiftRight_eq_div_pow, u32_of_lt (by omega)]
  rfl

/-- **`ip_standard_chksum`** is the residue of the sum of the words. -/
theorem ipStandardChksum_eq {data : List Byte} (short : data.length ≤ 65535) :
    ipStandardChksum data = endAroundSum 16 (words data).sum := by
  have bound := octetSum_le data
  have loop : octetLoop 0 data = octetSum data := by
    rw [octetLoop_eq 0 data (by omega), Nat.zero_add]
  have once : endAround 16 (octetSum data) < 2 ^ 16 + 2 ^ 15 := by
    unfold endAround
    omega
  have twice : ∃ acc < 2 ^ 16, ipStandardChksum data = htons acc ∧
      acc ≡ octetSum data [MOD 2 ^ 16 - 1] ∧ (0 < octetSum data ↔ 0 < acc) := by
    rw [ipStandardChksum, loop, addCarries_eq (by omega)]
    have same := endAround_modEq 16 (octetSum data)
    by_cases carries : endAround 16 (octetSum data) &&& 0xffff0000 ≠ 0
    · rw [if_pos carries, addCarries_eq (by omega)]
      have small : endAround 16 (endAround 16 (octetSum data)) < 2 ^ 16 := by
        rw [endAround]
        omega
      refine ⟨_, small, by rw [Nat.mod_eq_of_lt small], (endAround_modEq 16 _).trans same, ?_⟩
      exact (endAround_pos_iff.trans endAround_pos_iff).symm
    · have high : endAround 16 (octetSum data) / 2 ^ 16 = 0 := by
        have whole : (0xffff0000 : Nat) >>> 16 = 0xffff := by decide
        have cut : (endAround 16 (octetSum data) &&& 0xffff0000) >>> 16 = 0 := by
          rw [not_not.mp carries]
          rfl
        rw [Nat.shiftRight_and_distrib, whole, and_ffff, Nat.shiftRight_eq_div_pow] at cut
        omega
      rw [if_neg carries]
      exact ⟨_, by omega, by rw [Nat.mod_eq_of_lt (by omega)], same, endAround_pos_iff.symm⟩
  obtain ⟨acc, small, made, same, some⟩ := twice
  rw [made, htons]
  refine eq_endAroundSum (by decide) ?_ (swapBytes_lt acc) ?_
  · exact (swapBytes_modEq small).trans ((same.mul_left 256).trans (words_modEq data).symm)
  · rw [words_pos_iff, some, swapBytes_eq]
    omega

theorem foldCarries_eq (acc : Nat) : foldCarries acc = endAroundSum 16 acc := by
  induction acc using foldCarries.induct with
  | case1 acc small =>
    rw [foldCarries, if_pos small]
    rw [Nat.shiftRight_eq_div_pow] at small
    exact eq_endAroundSum (by decide) rfl (by omega) Iff.rfl
  | case2 acc carries past =>
    have once : (acc &&& 0xffff) + acc >>> 16 = endAround 16 acc := by
      rw [and_ffff, Nat.shiftRight_eq_div_pow, Nat.add_comm]
      rfl
    rw [foldCarries, if_neg carries, past, once]
    refine eq_endAroundSum (by decide) ((endAroundSum_modEq 16 _).trans (endAround_modEq 16 acc))
      ?_ ?_
    · have bound := endAroundSum_le 16 (endAround 16 acc) (by decide)
      omega
    · rw [endAroundSum_pos_iff, endAround_pos_iff]

theorem foldl_u32 (acc : Nat) (words : List Nat) (small : acc + words.sum < 2 ^ 32) :
    words.foldl (fun acc word => u32 (acc + word)) acc = acc + words.sum := by
  induction words generalizing acc with
  | nil => rfl
  | cons word rest past =>
    rw [List.sum_cons, ← Nat.add_assoc] at small ⊢
    rw [List.foldl_cons, u32_of_lt (Nat.lt_of_le_of_lt (Nat.le_add_right _ _) small)]
    exact past _ small

theorem pseudoWords_sum_le (src dest : Ip) (proto : Byte) (len : Nat) :
    (pseudoWords src dest proto len).sum ≤ 6 * 0xffff := by
  have swapped := swapBytes_lt proto.toNat
  have swappedLen := swapBytes_lt (len % 2 ^ 16)
  simp only [pseudoWords, List.sum_cons, List.sum_nil, and_ffff, htons]
  omega

/-- **`inet_chksum_pseudo` is the complement of the residue of the sum of all words.** -/
theorem inetChksumPseudo_eq {payload : List Byte} (short : payload.length ≤ 65535) (src dest : Ip)
    (proto : Byte) :
    inetChksumPseudo payload src dest proto =
      0xffff - endAroundSum 16 ((words payload).sum +
        (pseudoWords src dest proto payload.length).sum) := by
  have bound := endAroundSum_le 16 (words payload).sum (by decide)
  have pseudo := pseudoWords_sum_le src dest proto payload.length
  have first : foldCarries (u32 (0 + ipStandardChksum payload)) =
      endAroundSum 16 (words payload).sum := by
    rw [ipStandardChksum_eq short, Nat.zero_add, u32_of_lt (by omega), foldCarries_eq,
      endAroundSum_idem (by decide)]
  have unswapped : ∀ odd : Prop, ∀ [Decidable odd], (if odd then
      swapBytes (if odd then swapBytes (endAroundSum 16 (words payload).sum)
        else endAroundSum 16 (words payload).sum)
      else if odd then swapBytes (endAroundSum 16 (words payload).sum)
        else endAroundSum 16 (words payload).sum) = endAroundSum 16 (words payload).sum := by
    intro odd _
    split
    · exact swapBytes_swapBytes (by omega)
    · rfl
  rw [inetChksumPseudo]
  simp only [first, unswapped]
  rw [foldl_u32 _ _ (by omega), foldCarries_eq, endAroundSum_add (by decide), complement, and_ffff,
    Nat.mod_eq_of_lt]
  have total := endAroundSum_le 16 ((words payload).sum +
    (pseudoWords src dest proto payload.length).sum) (by decide)
  omega

theorem inetChksum_eq {data : List Byte} (short : data.length ≤ 65535) :
    inetChksum data = 0xffff - endAroundSum 16 (words data).sum := by
  have bound := endAroundSum_le 16 (words data).sum (by decide)
  rw [inetChksum, ipStandardChksum_eq short, foldCarries_eq, endAroundSum_idem (by decide),
    complement, and_ffff, Nat.mod_eq_of_lt (by omega)]

/-! ## Packets -/

/-- The words that the checksum of a packet covers. -/
def packetWords (payload : List Byte) (src dest : Ip) (proto : Byte) : List Nat :=
  words payload ++ pseudoWords src dest proto payload.length

/-- A word stored in a packet, its low byte first. -/
def storeWord (payload : List Byte) (place word : Nat) : List Byte :=
  (payload.set place (BitVec.ofNat 8 word)).set (place + 1) (BitVec.ofNat 8 (word / 256))

theorem sum_set {list : List Nat} {i old : Nat} (there : list[i]? = some old) (word : Nat) :
    (list.set i word).sum + old = list.sum + word := by
  induction list generalizing i with
  | nil => cases there
  | cons first rest past =>
    cases i with
    | zero =>
      cases there
      rw [List.set_cons_zero, List.sum_cons, List.sum_cons]
      omega
    | succ i =>
      have rest := past there
      rw [List.set_cons_succ, List.sum_cons, List.sum_cons]
      omega

theorem length_storeWord (payload : List Byte) (place word : Nat) :
    (storeWord payload place word).length = payload.length := by
  rw [storeWord, List.length_set, List.length_set]

theorem words_storeWord {payload : List Byte} {j word : Nat} (inside : 2 * j + 2 ≤ payload.length)
    (small : word < 2 ^ 16) :
    words (storeWord payload (2 * j) word) = (words payload).set j word := by
  induction j generalizing payload with
  | zero =>
    obtain ⟨first, second, rest, rfl⟩ : ∃ first second rest, payload = first :: second :: rest := by
      match payload, inside with
      | first :: second :: rest, _ => exact ⟨first, second, rest, rfl⟩
    have stored : (BitVec.ofNat 8 word).toNat + (BitVec.ofNat 8 (word / 256)).toNat * 256 = word := by
      rw [BitVec.toNat_ofNat, BitVec.toNat_ofNat]
      omega
    show ((BitVec.ofNat 8 word).toNat + (BitVec.ofNat 8 (word / 256)).toNat * 256) :: words rest = _
    rw [stored, words, List.set_cons_zero]
  | succ j past =>
    obtain ⟨first, second, rest, rfl⟩ : ∃ first second rest, payload = first :: second :: rest := by
      match payload, inside with
      | first :: second :: rest, _ => exact ⟨first, second, rest, rfl⟩
    have deeper := @past rest (by
      rw [List.length_cons, List.length_cons] at inside
      omega)
    rw [show 2 * (j + 1) = 2 * j + 1 + 1 by omega, storeWord, List.set_cons_succ,
      List.set_cons_succ, List.set_cons_succ, List.set_cons_succ, words, words,
      List.set_cons_succ]
    exact congrArg _ deeper

theorem words_getElem? {payload : List Byte} {j : Nat} {first second : Byte}
    (low : payload[2 * j]? = some first) (high : payload[2 * j + 1]? = some second) :
    (words payload)[j]? = some (first.toNat + second.toNat * 256) := by
  induction j generalizing payload with
  | zero =>
    match payload, low, high with
    | one :: two :: rest, low, high =>
      cases low
      cases high
      rfl
  | succ j past =>
    match payload, low, high with
    | one :: two :: rest, low, high => exact past low high
    | [one], low, _ => cases low

theorem inetChksumPseudo_eq_zero {payload : List Byte} (short : payload.length ≤ 65535)
    (src dest : Ip) (proto : Byte) :
    inetChksumPseudo payload src dest proto = 0 ↔
      0 < (packetWords payload src dest proto).sum ∧
        0xffff ∣ (packetWords payload src dest proto).sum := by
  have total : (packetWords payload src dest proto).sum =
      (words payload).sum + (pseudoWords src dest proto payload.length).sum := List.sum_append
  have ones := @endAroundSum_ones 16 (packetWords payload src dest proto).sum (by decide)
  have bound := endAroundSum_le 16 (packetWords payload src dest proto).sum (by decide)
  rw [inetChksumPseudo_eq short, ← total]
  refine Iff.trans ?_ ones
  omega

theorem complement_dvd (n : Nat) : 0xffff ∣ n + (0xffff - endAroundSum 16 n) := by
  have bound : endAroundSum 16 n ≤ 0xffff := endAroundSum_le 16 n (by decide)
  have same := (endAroundSum_modEq 16 n).add_right (0xffff - endAroundSum 16 n)
  rw [Nat.add_sub_cancel' bound] at same
  exact Nat.modEq_zero_iff_dvd.mp
    (same.symm.trans (Nat.modEq_zero_iff_dvd.mpr (dvd_refl (2 ^ 16 - 1))))

theorem word_eq_of_modEq {old word : Nat} (same : old ≡ word [MOD 0xffff]) (smallOld : old ≤ 0xffff)
    (small : word ≤ 0xffff) :
    old = word ∨ old = 0 ∧ word = 0xffff ∨ old = 0xffff ∧ word = 0 := by
  rw [Nat.ModEq] at same
  omega

theorem words_le {payload : List Byte} {word : Nat} (member : word ∈ words payload) :
    word ≤ 0xffff := by
  induction payload using words.induct with
  | case1 first second rest past =>
    have one := first.isLt
    have two := second.isLt
    rcases List.mem_cons.mp member with rfl | later
    · omega
    · exact past later
  | case2 last =>
    have one := last.isLt
    rw [List.mem_singleton.mp member]
    omega
  | case3 => cases member

theorem packetWords_le {payload : List Byte} {src dest : Ip} {proto : Byte} {i word : Nat}
    (there : (packetWords payload src dest proto)[i]? = some word) : word ≤ 0xffff := by
  rcases List.mem_append.mp (List.mem_of_getElem? there) with data | pseudo
  · exact words_le data
  · have swapped := swapBytes_lt proto.toNat
    have swappedLen := swapBytes_lt (payload.length % 2 ^ 16)
    simp only [pseudoWords, List.mem_cons, List.not_mem_nil, or_false, and_ffff, htons] at pseudo
    omega

theorem pseudoWords_pos {src dest : Ip} {proto : Byte} {len : Nat} (some : 0 < len)
    (short : len ≤ 65535) : 0 < (pseudoWords src dest proto len).sum := by
  have positive : 0 < htons (len % 2 ^ 16) := by
    rw [htons, swapBytes_eq]
    omega
  simp only [pseudoWords, List.sum_cons, List.sum_nil]
  omega

/-- **The checksum of a packet.** No carry is lost when it is computed; a packet that carries it is
accepted; and an accepted packet of which one word is replaced by another one is not, unless one
of the two is `0x0000` and the other `0xffff`. -/
theorem inetChksumPseudo_detects {payload : List Byte} (short : payload.length ≤ 65535)
    (src dest : Ip) (proto : Byte) :
    inetChksumPseudo payload src dest proto =
        0xffff - endAroundSum 16 (packetWords payload src dest proto).sum ∧
      (∀ j, payload[2 * j]? = some 0 → payload[2 * j + 1]? = some 0 →
        inetChksumPseudo
          (storeWord payload (2 * j) (inetChksumPseudo payload src dest proto)) src dest proto = 0) ∧
      ∀ (other : List Byte) (src' dest' : Ip) (proto' : Byte) (i old word : Nat),
        inetChksumPseudo payload src dest proto = 0 → other.length = payload.length →
        (packetWords payload src dest proto)[i]? = some old →
        packetWords other src' dest' proto' = (packetWords payload src dest proto).set i word →
        old ≠ word → ¬ (old = 0 ∧ word = 0xffff) → ¬ (old = 0xffff ∧ word = 0) →
          inetChksumPseudo other src' dest' proto' ≠ 0 := by
  have total : (packetWords payload src dest proto).sum =
      (words payload).sum + (pseudoWords src dest proto payload.length).sum := List.sum_append
  have exact_ := inetChksumPseudo_eq short src dest proto
  rw [← total] at exact_
  refine ⟨exact_, fun j low high => ?_, fun other src' dest' proto' i old word accepted same there
    replaced apart notUp notDown accepts => ?_⟩
  · have inside : 2 * j + 1 < payload.length := (List.getElem?_eq_some_iff.mp high).1
    have length := length_storeWord payload (2 * j) (inetChksumPseudo payload src dest proto)
    have bound : inetChksumPseudo payload src dest proto < 2 ^ 16 := by
      rw [exact_]
      omega
    have sum := sum_set (words_getElem? low high) (inetChksumPseudo payload src dest proto)
    rw [← words_storeWord (by omega) bound] at sum
    rw [inetChksumPseudo_eq_zero (by omega), packetWords, List.sum_append, length]
    have stored : (words (storeWord payload (2 * j) (inetChksumPseudo payload src dest proto))).sum +
        (pseudoWords src dest proto payload.length).sum =
          (packetWords payload src dest proto).sum +
            (0xffff - endAroundSum 16 (packetWords payload src dest proto).sum) := by
      rw [← exact_, total]
      change _ + 0 = _ at sum
      omega
    refine ⟨?_, ?_⟩
    · have positive := @pseudoWords_pos src dest proto payload.length (by omega) short
      omega
    · rw [stored]
      exact complement_dvd _
  · obtain ⟨_, divides⟩ := (inetChksumPseudo_eq_zero short src dest proto).mp accepted
    obtain ⟨_, again⟩ := (inetChksumPseudo_eq_zero (by omega) src' dest' proto').mp accepts
    have sum := sum_set there word
    rw [← replaced] at sum
    have residue : old ≡ word [MOD 0xffff] := by
      have first := Nat.modEq_zero_iff_dvd.mpr divides
      have second := Nat.modEq_zero_iff_dvd.mpr again
      have both := (second.add_right old).symm.trans ((congrArg (· % 0xffff) sum).trans
        (first.add_right word))
      rw [Nat.zero_add, Nat.zero_add] at both
      exact both
    have placed : (packetWords other src' dest' proto')[i]? = some word := by
      have inside := (List.getElem?_eq_some_iff.mp there).1
      rw [replaced, List.getElem?_set_self inside]
    rcases word_eq_of_modEq residue (packetWords_le there) (packetWords_le placed) with
      equal | up | down
    · exact apart equal
    · exact notUp up
    · exact notDown down

theorem inetChksumPseudo_detects_four :
    inetChksumPseudo [0x12, 0x34, 0, 0] 0x0a000001 0x0a000002 6 =
        0xffff - endAroundSum 16 (packetWords [0x12, 0x34, 0, 0] 0x0a000001 0x0a000002 6).sum ∧
      inetChksumPseudo (storeWord [0x12, 0x34, 0, 0] 2
        (inetChksumPseudo [0x12, 0x34, 0, 0] 0x0a000001 0x0a000002 6)) 0x0a000001 0x0a000002 6 = 0 := by
  obtain ⟨exact_, stored, _⟩ := @inetChksumPseudo_detects [0x12, 0x34, 0, 0] (by decide)
    0x0a000001 0x0a000002 6
  exact ⟨exact_, stored 1 rfl rfl⟩

end PosFirmware.IpStack
