import PosFirmware.Puk.Signature

/-!
# What a signature covers

A file whose check succeeds holds the bytes that were signed at its start. Callers use all bytes in
front of the signature. `s_iVerifySignature` takes the number of signed bytes and the place of the
signature from the file, so both are the same only for a file whose numbers fit
(`coversContent_iff`).
-/

namespace PosFirmware.Puk

variable (crypto : Crypto)

/-- An ideal scheme: a signature is one of at most one string under a key, and a check accepts no
other string. -/
def Ideal (signed : RsaPublicKey → List Byte → Option (List Byte)) : Prop :=
  ∀ type data key sig outdata,
    sVerifySig crypto type (some data) key (some sig) = some (PUK_RET_OK, outdata) →
      signed key sig = some data

/-- The bytes that callers use of a file. -/
def File.content (file : File) : List Byte := file.bytes 0 (file.length - SIGN_INFO_LEN)

/-- A check that reads only inside of a file, and ends with `0` only if all of the content of the
file was signed. -/
def CoversContent (signed : RsaPublicKey → List Byte → Option (List Byte)) (file : File)
    (check : Option Verdict) : Prop :=
  ∃ verdict, check = some verdict ∧
    (verdict.ret = 0 → ∃ key sig outdata, verdict = .verified key outdata ∧
      file.sig file.signlen key = some sig ∧ signed key sig = some file.content)

/-! ## The condition -/

/-- The block of a signature that is of the type of the check. -/
def typedBlock (type : SignType) (key : RsaPublicKey) (sig : List Byte) : Option Buffer :=
  (crypto.rsaPublicDecrypt key sig).filter fun outdata =>
    type = .mon ∨ outdata 2 = type.code

/-- Whether a signature is one of some data. -/
def signs (type : SignType) (key : RsaPublicKey) (sig data : List Byte) : Bool :=
  (typedBlock crypto type key sig).any fun outdata => blockSigns crypto type key outdata data

/-- The bytes of a file at the place of its signature. -/
def File.sigBytes (file : File) (key : RsaPublicKey) : List Byte :=
  file.bytes (file.length - 16 - 12 - file.signlen) key.bytes

/-- The signature lies inside of the file, the data do as well if they are looked at, and
data that the signature is one of are the content. -/
structure NumbersFit (file : File) (type : SignType) (key : RsaPublicKey) : Prop where
  signature : (file.sig file.signlen key).isSome
  data : (typedBlock crypto type key (file.sigBytes key)).isSome → file.datalen ≤ file.length
  content : signs crypto type key (file.sigBytes key) (file.bytes 0 file.datalen) →
    file.datalen = file.length - SIGN_INFO_LEN

/-- The numbers of a file fit for every key that is tried. -/
def KeysFit (file : File) : List (SignType × RsaPublicKey) → Prop
  | [] => True
  | (type, key) :: rest => NumbersFit crypto file type key ∧
    (signs crypto type key (file.sigBytes key) (file.bytes 0 file.datalen) = false →
      KeysFit file rest)

/-- The numbers of a signed file fit. -/
def SignInfoFits (terminal : Terminal) (type : SignType) (file : File) : Prop :=
  16 ≤ file.length ∧
    (file.hasFlag = some true → 28 ≤ file.length ∧
      (0 < file.datalen → 0 < file.signlen → KeysFit crypto file (attempts terminal type)))

/-! ## One key -/

theorem File.read_isSome {file : File} {start len : Int} :
    (file.read start len).isSome ↔ len ≤ 0 ∨ 0 ≤ start ∧ start + len ≤ file.length := by
  unfold File.read
  split <;> simp_all

theorem File.read_of_le {file : File} {start len : Int}
    (inside : len ≤ 0 ∨ 0 ≤ start ∧ start + len ≤ file.length) :
    file.read start len = some (file.bytes start len) := if_pos inside

theorem File.sig_of_isSome {file : File} {key : RsaPublicKey}
    (inside : (file.sig file.signlen key).isSome) :
    file.sig file.signlen key = some (file.sigBytes key) :=
  File.read_of_le (File.read_isSome.mp inside)

theorem sVerifySig_untyped {type : SignType} {key : RsaPublicKey} {sig : List Byte}
    (untyped : typedBlock crypto type key sig = none) (data : Option (List Byte)) :
    ∃ ret outdata, sVerifySig crypto type data key (some sig) = some (ret, outdata) ∧ ret ≠ 0 := by
  unfold typedBlock at untyped
  cases block : crypto.rsaPublicDecrypt key sig with
  | none => exact ⟨_, _, by simp [sVerifySig, block]; exact ⟨rfl, rfl⟩, by decide⟩
  | some outdata =>
    have wrong : type ≠ .mon ∧ outdata 2 ≠ type.code := by simpa [block] using untyped
    exact ⟨PUK_RET_SIG_TYPE_ERR, some outdata, by simp [sVerifySig, block, wrong], by decide⟩

theorem sVerifySig_typed {type : SignType} {key : RsaPublicKey} {sig : List Byte}
    {outdata : Buffer} (typed : typedBlock crypto type key sig = some outdata)
    (data : Option (List Byte)) :
    sVerifySig crypto type data key (some sig) = data.map fun data =>
      (if blockSigns crypto type key outdata data then PUK_RET_OK else PUK_RET_SIG_ERR,
        some outdata) := by
  obtain ⟨block, right⟩ := Option.filter_eq_some_iff.mp typed
  have right : ¬ (type ≠ .mon ∧ outdata 2 ≠ type.code) := by
    rw [not_and_or, not_not, not_not]
    exact of_decide_eq_true right
  cases data with
  | none => simp [sVerifySig, block, right]
  | some data =>
    simp only [sVerifySig, block, Option.bind_eq_bind, Option.bind_some, if_neg right,
      Option.map_some]
    split <;> rfl

/-! ## All keys -/

theorem CoversContent.of_refused (signed : RsaPublicKey → List Byte → Option (List Byte))
    (file : File) {ret : Int} (error : ret ≠ 0) :
    CoversContent signed file (some (.refused ret)) :=
  ⟨.refused ret, rfl, fun zero => absurd zero error⟩

theorem not_coversContent_none (signed : RsaPublicKey → List Byte → Option (List Byte))
    (file : File) : ¬ CoversContent signed file none :=
  fun ⟨_, outside, _⟩ => nomatch outside

theorem File.bytes_eq_content {file : File} {len : Int} (positive : 0 < len) :
    file.bytes 0 len = file.content ↔ len = file.length - SIGN_INFO_LEN := by
  constructor
  · intro same
    have lengths := congrArg List.length same
    simp only [File.content, File.bytes, List.length_map, List.length_range] at lengths
    omega
  · intro same
    rw [File.content, same]

variable {crypto}

theorem tryKeys_next {file : File} {type : SignType} {key : RsaPublicKey} {sig : List Byte}
    {ret : Int} {outdata : Option Buffer} (inside : file.sig file.signlen key = some sig)
    (failed : sVerifySig crypto type (file.read 0 file.datalen) key (some sig) = some (ret, outdata))
    (error : ret ≠ 0) (rest : List (SignType × RsaPublicKey)) (before : Int) :
    tryKeys crypto file file.datalen file.signlen ((type, key) :: rest) before =
      tryKeys crypto file file.datalen file.signlen rest ret := by
  simp only [tryKeys, inside, failed, Option.bind_eq_bind, Option.bind_some, if_neg error]

/-- The checks of a list of keys cover the content if and only if the numbers fit. -/
theorem tryKeys_coversContent {signed : RsaPublicKey → List Byte → Option (List Byte)}
    (ideal : Ideal crypto signed) {file : File} (positive : 0 < file.datalen)
    (keys : List (SignType × RsaPublicKey)) {ret : Int} (error : ret ≠ 0) :
    CoversContent signed file (tryKeys crypto file file.datalen file.signlen keys ret) ↔
      KeysFit crypto file keys := by
  induction keys generalizing ret with
  | nil => exact iff_of_true (.of_refused signed file error) trivial
  | cons attempt rest ih =>
    obtain ⟨type, key⟩ := attempt
    by_cases inside : (file.sig file.signlen key).isSome
    case neg =>
      refine iff_of_false ?_ fun fits => inside fits.1.signature
      rw [tryKeys, Option.not_isSome_iff_eq_none.mp inside]
      exact not_coversContent_none signed file
    have sig := File.sig_of_isSome inside
    cases typed : typedBlock crypto type key (file.sigBytes key) with
    | none =>
      obtain ⟨next, outdata, failed, nonzero⟩ :=
        sVerifySig_untyped crypto typed (file.read 0 file.datalen)
      have unsigned : signs crypto type key (file.sigBytes key) (file.bytes 0 file.datalen) = false := by
        simp [signs, typed]
      rw [tryKeys_next sig failed nonzero, ih nonzero]
      constructor
      · intro fits
        refine ⟨⟨inside, fun some => ?_, fun accepted => ?_⟩, fun _ => fits⟩
        · rw [typed] at some
          cases some
        · rw [unsigned] at accepted
          cases accepted
      · intro fits
        exact fits.2 unsigned
    | some outdata =>
      have check := sVerifySig_typed crypto typed (file.read 0 file.datalen)
      have some_typed : (typedBlock crypto type key (file.sigBytes key)).isSome := by rw [typed]; rfl
      by_cases within : file.datalen ≤ file.length
      case neg =>
        refine iff_of_false ?_ fun fits => within (fits.1.data some_typed)
        have outside : file.read 0 file.datalen = none := by
          refine if_neg ?_
          omega
        rw [outside, Option.map_none] at check
        rw [tryKeys, sig, outside, check]
        exact not_coversContent_none signed file
      have signs_eq : signs crypto type key (file.sigBytes key) (file.bytes 0 file.datalen) =
          blockSigns crypto type key outdata (file.bytes 0 file.datalen) := by
        simp [signs, typed]
      have read : file.read 0 file.datalen = some (file.bytes 0 file.datalen) :=
        File.read_of_le (Or.inr ⟨Int.le_refl 0, by omega⟩)
      rw [read, Option.map_some] at check
      cases accepted : blockSigns crypto type key outdata (file.bytes 0 file.datalen) with
      | true =>
        rw [accepted, if_pos rfl] at check
        have verified : tryKeys crypto file file.datalen file.signlen ((type, key) :: rest) ret =
            some (.verified key outdata) := by
          simp only [tryKeys, sig, read, check, Option.bind_eq_bind, Option.bind_some, PUK_RET_OK,
            if_true]
        have signed_eq := ideal type _ key _ _ check
        rw [verified]
        constructor
        · rintro ⟨verdict, same, covers⟩
          cases same
          obtain ⟨other, found, block, same, place, content⟩ := covers rfl
          cases same
          rw [sig] at place
          cases place
          have equal := Option.some.inj (signed_eq.symm.trans content)
          refine ⟨⟨inside, fun _ => within, fun _ => (File.bytes_eq_content positive).mp equal⟩, ?_⟩
          intro unsigned
          rw [signs_eq, accepted] at unsigned
          cases unsigned
        · intro fits
          have whole := fits.1.content (signs_eq.trans accepted)
          refine ⟨_, rfl, fun _ => ⟨key, _, outdata, rfl, sig, ?_⟩⟩
          rw [signed_eq, (File.bytes_eq_content positive).mpr whole]
      | false =>
        rw [accepted, if_neg Bool.false_ne_true] at check
        rw [← read] at check
        rw [tryKeys_next sig check (by decide), ih (by decide)]
        constructor
        · intro fits
          refine ⟨⟨inside, fun _ => within, fun signed => ?_⟩, fun _ => fits⟩
          rw [signs_eq, accepted] at signed
          cases signed
        · intro fits
          exact fits.2 (signs_eq.trans accepted)

theorem File.hasFlag_isSome {file : File} : file.hasFlag.isSome ↔ 16 ≤ file.length := by
  unfold File.hasFlag
  rw [Option.isSome_map, File.read_isSome]
  omega

theorem bypass_isSome (terminal : Terminal) {file : File} {flag : Bool}
    (read : file.hasFlag = some flag) : (bypass terminal file).isSome := by
  unfold bypass
  rw [read]
  split
  · split
    · split <;> rfl
    · rfl
  · rfl

theorem bypass_eq_false {terminal : Terminal} {file : File} {flag : Bool}
    (noBypass : bypass terminal file ≠ some true) (read : file.hasFlag = some flag) :
    bypass terminal file = some false := by
  obtain ⟨taken, known⟩ := Option.isSome_iff_exists.mp (bypass_isSome terminal read)
  cases taken with
  | true => exact absurd known noBypass
  | false => exact known

theorem sIVerifySignature_short (crypto : Crypto) {terminal : Terminal} {file : File}
    (noBypass : bypass terminal file ≠ some true) (unread : file.hasFlag = none)
    (type : SignType) : sIVerifySignature crypto terminal type file = none := by
  unfold sIVerifySignature
  cases found : bypass terminal file with
  | none => rfl
  | some taken =>
    cases taken with
    | true => exact absurd found noBypass
    | false =>
      rw [Option.bind_eq_bind, Option.bind_some, if_neg Bool.false_ne_true, unread]
      rfl

theorem sIVerifySignature_unflagged (crypto : Crypto) {terminal : Terminal} {file : File}
    (noBypass : bypass terminal file ≠ some true) (read : file.hasFlag = some false)
    (type : SignType) :
    sIVerifySignature crypto terminal type file = some (.refused PUK_RET_SIG_ERR) := by
  unfold sIVerifySignature
  rw [bypass_eq_false noBypass read, read]
  rfl

theorem sIVerifySignature_flagged (crypto : Crypto) {terminal : Terminal} {file : File}
    (noBypass : bypass terminal file ≠ some true) (read : file.hasFlag = some true)
    {type : SignType} (checked : type = .mon ∨ type = .app) :
    sIVerifySignature crypto terminal type file =
      (file.read (file.length - 16 - 12) 12).bind fun _ =>
        if file.datalen ≤ 0 ∨ file.signlen ≤ 0 then some (.refused PUK_RET_SIG_ERR)
        else tryKeys crypto file file.datalen file.signlen (attempts terminal type)
          PUK_RET_SIG_ERR := by
  have other : ¬ (type = .uaPuk ∨ type = .usPuk) := by
    rcases checked with rfl | rfl <;> simp
  unfold sIVerifySignature
  rw [bypass_eq_false noBypass read, read, if_neg other]
  rfl

theorem puk_ret_sig_err_ne : PUK_RET_SIG_ERR ≠ 0 := by decide

theorem flagged_coversContent {signed : RsaPublicKey → List Byte → Option (List Byte)}
    (ideal : Ideal crypto signed) {file : File} (keys : List (SignType × RsaPublicKey)) :
    CoversContent signed file ((file.read (file.length - 16 - 12) 12).bind fun _ =>
        if file.datalen ≤ 0 ∨ file.signlen ≤ 0 then some (.refused PUK_RET_SIG_ERR)
        else tryKeys crypto file file.datalen file.signlen keys PUK_RET_SIG_ERR) ↔
      28 ≤ file.length ∧ (0 < file.datalen → 0 < file.signlen → KeysFit crypto file keys) := by
  by_cases fields : 28 ≤ file.length
  case neg =>
    have outside : file.read (file.length - 16 - 12) 12 = none := by
      refine if_neg ?_
      omega
    rw [outside]
    exact iff_of_false (not_coversContent_none signed file) fun fits => fields fits.1
  have inside : 0 ≤ file.length - 16 - 12 ∧ file.length - 16 - 12 + 12 ≤ file.length := by omega
  rw [File.read_of_le (Or.inr inside), Option.bind_some]
  by_cases positive : file.datalen ≤ 0 ∨ file.signlen ≤ 0
  · rw [if_pos positive]
    refine iff_of_true (.of_refused signed file puk_ret_sig_err_ne) ⟨fields, fun data sign => ?_⟩
    exact absurd positive (not_or.mpr ⟨Int.not_le.mpr data, Int.not_le.mpr sign⟩)
  · rw [if_neg positive]
    obtain ⟨data, sign⟩ := not_or.mp positive
    rw [tryKeys_coversContent ideal (Int.not_le.mp data) keys puk_ret_sig_err_ne]
    constructor
    · intro fit
      exact ⟨fields, fun _ _ => fit⟩
    · intro fits
      exact fits.2 (Int.not_le.mp data) (Int.not_le.mp sign)

/-- **What a verified signature covers.** Where the bypass does not apply, the check of a file
reads only inside of it and accepts only a file all of whose content was signed, if and only if
the numbers at its end fit. -/
theorem signature_coversContent {signed : RsaPublicKey → List Byte → Option (List Byte)}
    (ideal : Ideal crypto signed) {terminal : Terminal} {type : SignType} {file : File}
    (noBypass : bypass terminal file ≠ some true) (checked : type = .mon ∨ type = .app) :
    CoversContent signed file (sIVerifySignature crypto terminal type file) ↔
      SignInfoFits crypto terminal type file := by
  by_cases long : 16 ≤ file.length
  case neg =>
    have unread : file.hasFlag = none :=
      Option.not_isSome_iff_eq_none.mp (mt File.hasFlag_isSome.mp long)
    rw [sIVerifySignature_short crypto noBypass unread]
    exact iff_of_false (not_coversContent_none signed file) fun fits => long fits.1
  obtain ⟨flag, read⟩ := Option.isSome_iff_exists.mp (File.hasFlag_isSome.mpr long)
  cases flag with
  | false =>
    rw [sIVerifySignature_unflagged crypto noBypass read]
    refine iff_of_true (.of_refused signed file puk_ret_sig_err_ne) ⟨long, fun flagged => ?_⟩
    exact absurd (read.symm.trans flagged) (by simp)
  | true =>
    rw [sIVerifySignature_flagged crypto noBypass read checked, flagged_coversContent ideal]
    exact ⟨fun fits => ⟨long, fun _ => fits⟩, fun fits => fits.2 read⟩

/-! ## Signatures of one string -/

/-- A scheme in which every signature is one of `[7]`. -/
def sevenCrypto : Crypto where
  rsaPublicDecrypt _ _ := some fun _ => 1
  sha1 _ := []
  sha256 data := if data = [7] then List.replicate 32 1 else []

def sevenSigned : RsaPublicKey → List Byte → Option (List Byte) := fun _ _ => some [7]

theorem digestAt_seven {data : List Byte} {offset : Nat}
    (found : digestAt (fun _ => 1) (sevenCrypto.sha256 data) 32 offset = true) : data = [7] := by
  by_contra other
  have empty : sevenCrypto.sha256 data = [] := if_neg other
  rw [empty] at found
  have first := List.all_eq_true.mp found 0 (List.mem_range.mpr (by decide))
  change ((0 : Byte) == 1) = true at first
  exact absurd first (by decide)

theorem blockSigns_seven {type : SignType} {key : RsaPublicKey} {data : List Byte}
    (found : blockSigns sevenCrypto type key (fun _ => 1) data = true) : data = [7] := by
  have format : isSha256 (fun _ => 1) = true := by decide
  unfold blockSigns at found
  rw [if_pos format] at found
  split at found
  · exact digestAt_seven found
  · exact digestAt_seven found

theorem sevenCrypto_ideal : Ideal sevenCrypto sevenSigned := by
  intro type data key sig outdata accepted
  cases typed : typedBlock sevenCrypto type key sig with
  | none =>
    obtain ⟨ret, block, failed, error⟩ := sVerifySig_untyped sevenCrypto typed (some data)
    rw [failed] at accepted
    cases accepted
    exact absurd rfl error
  | some block =>
    obtain rfl : (fun _ => 1) = block :=
      Option.some.inj (Option.filter_eq_some_iff.mp typed).1
    rw [sVerifySig_typed sevenCrypto typed, Option.map_some] at accepted
    have found : blockSigns sevenCrypto type key (fun _ => 1) data = true := by
      by_contra missing
      rw [if_neg missing] at accepted
      cases accepted
    exact congrArg some (blockSigns_seven found).symm

/-- A key of 2048 bits. -/
def sevenKey : RsaPublicKey := { uiBitLen := 2048, aucModulus := [], aucExponent := [] }

/-- A terminal that is not for development. -/
def sevenTerminal : Terminal where
  developPos := false
  bootSecLevel := 2
  secMode := 1
  tamperStatus := false
  curPukLevel := 0
  pukinfo _ := none
  usPubKey := sevenKey
  mfPubKey := sevenKey

/-- Content, a signature of `256` bytes, the numbers `256`, `0` and `1` and the flag. -/
def sevenFile (content : List Byte) : File where
  byte i := (content ++ List.replicate 256 0 ++ [0, 1, 0, 0, 0, 0, 0, 0, 1, 0, 0, 0] ++
    SIGN_FLAG).getD i.toNat 0
  length := content.length + SIGN_INFO_LEN

theorem signature_coversContent_seven :
    CoversContent sevenSigned (sevenFile [7])
      (sIVerifySignature sevenCrypto sevenTerminal .mon (sevenFile [7])) := by
  refine (signature_coversContent sevenCrypto_ideal (by decide) (Or.inl rfl)).mpr ?_
  refine ⟨by decide, fun _ => ⟨by decide, fun _ _ => ⟨?_, fun _ => trivial⟩⟩⟩
  exact ⟨by decide, fun _ => by decide, fun _ => by decide⟩

/-- A byte behind the signed one is content that was not signed, and the check accepts it. -/
theorem inserted_accepted :
    Ideal sevenCrypto sevenSigned ∧ bypass sevenTerminal (sevenFile [7, 9]) ≠ some true ∧
      (sevenFile [7, 9]).content = [7, 9] ∧
      ¬ CoversContent sevenSigned (sevenFile [7, 9])
        (sIVerifySignature sevenCrypto sevenTerminal .mon (sevenFile [7, 9])) := by
  refine ⟨sevenCrypto_ideal, by decide, by decide, ?_⟩
  rw [sIVerifySignature_flagged sevenCrypto (by decide) (by decide) (Or.inl rfl),
    flagged_coversContent sevenCrypto_ideal]
  intro fits
  have numbers := (fits.2 (by decide) (by decide)).1
  exact absurd (numbers.content (by decide)) (by decide)

end PosFirmware.Puk
