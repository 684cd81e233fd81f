import Mathlib.Algebra.Group.Nat.Defs
import Mathlib.Data.List.Basic
import Mathlib.Logic.Function.Basic
import Mathlib.Tactic.Common

/-!
# Signatures

`s_VerifySig`, `s_GetPuK` and `s_iVerifySignature` of `puk.c`. A signed file ends with the
signature, three numbers that its maker chose and a flag. `RSAPublicDecrypt`, `sha1` and `sha256`
are parameters.
-/

namespace PosFirmware.Puk

abbrev Byte := BitVec 8
abbrev Buffer := Nat → Byte

def SIGN_INFO_LEN : Nat := 284
def SIGNFORMAT1 : Byte := 1
def SHA256 : Byte := 1
def PUK_RET_OK : Int := 0
def PUK_RET_NULL_ERR : Int := -2
def PUK_RET_SIG_ERR : Int := -3
def PUK_RET_SIG_TYPE_ERR : Int := -11
def POS_SEC_L0 : Nat := 0

/-- `SIGN_FLAG`, `SIGNED_VER:00001`. -/
def SIGN_FLAG : List Byte :=
  [0x53, 0x49, 0x47, 0x4e, 0x45, 0x44, 0x5f, 0x56, 0x45, 0x52, 0x3a, 0x30, 0x30, 0x30, 0x30, 0x31]

/-- `SIGN_FILE_MON`, `SIGN_FILE_USPUK`, `SIGN_FILE_UAPUK` and `SIGN_FILE_APP`. -/
inductive SignType where
  | mon
  | usPuk
  | uaPuk
  | app
  deriving DecidableEq

def SignType.code : SignType → Byte
  | .mon => 0x02
  | .usPuk => 0x11
  | .uaPuk => 0x12
  | .app => 0x21

/-- `R_RSA_PUBLIC_KEY`. -/
structure RsaPublicKey where
  uiBitLen : Nat
  aucModulus : List Byte
  aucExponent : List Byte
  deriving DecidableEq

/-- The bytes that `RSAPublicDecrypt` reads of a signature. -/
def RsaPublicKey.bytes (key : RsaPublicKey) : Nat := (key.uiBitLen + 7) / 8

/-- What the signatures rest on. -/
structure Crypto where
  /-- `RSAPublicDecrypt`: an error, or the block it writes. -/
  rsaPublicDecrypt : RsaPublicKey → List Byte → Option Buffer
  sha1 : List Byte → List Byte
  sha256 : List Byte → List Byte

variable (crypto : Crypto)

/-! ## `s_VerifySig` -/

/-- Whether the digest stands in a block. The offset is an unsigned number. -/
def digestAt (outdata : Buffer) (hash : List Byte) (hashlen offset : Nat) : Bool :=
  (List.range hashlen).all fun i => hash.getD i 0 == outdata (offset % 2 ^ 32 + i)

/-- Whether a block is that of a signature with `SHA256`. -/
def isSha256 (outdata : Buffer) : Bool := outdata 0 == SIGNFORMAT1 && outdata 26 == SHA256

/-- Whether the block of a signature holds the digest of some data. -/
def blockSigns (type : SignType) (key : RsaPublicKey) (outdata : Buffer) (data : List Byte) : Bool :=
  match type with
  | .mon => digestAt outdata (crypto.sha256 data) 32 (key.uiBitLen / 8 + 2 ^ 32 - 1 - 32)
  | _ =>
    if isSha256 outdata then
      digestAt outdata (crypto.sha256 data) 32 (key.uiBitLen / 8 + 2 ^ 32 - 1 - 32 - 32)
    else digestAt outdata (crypto.sha1 data) 20 (key.uiBitLen / 8 + 2 ^ 32 - 1 - 20)

/-- `s_VerifySig`, and the block that it writes. The data and the signature are read only where
they are needed; `none` is a read outside of them. -/
def sVerifySig (type : SignType) (data : Option (List Byte)) (key : RsaPublicKey)
    (sig : Option (List Byte)) : Option (Int × Option Buffer) := do
  let sig ← sig
  match crypto.rsaPublicDecrypt key sig with
  | none => some (PUK_RET_SIG_ERR, none)
  | some outdata =>
    if type ≠ .mon ∧ outdata 2 ≠ type.code then some (PUK_RET_SIG_TYPE_ERR, some outdata)
    else
      let data ← data
      if blockSigns crypto type key outdata data then some (PUK_RET_OK, some outdata)
      else some (PUK_RET_SIG_ERR, some outdata)

/-! ## `s_iVerifySignature` -/

/-- What the terminal is. -/
structure Terminal where
  developPos : Bool
  bootSecLevel : Nat
  secMode : Nat
  tamperStatus : Bool
  curPukLevel : Nat
  /-- `s_pukinfo`, the keys that are valid. -/
  pukinfo : Nat → Option RsaPublicKey
  usPubKey : RsaPublicKey
  mfPubKey : RsaPublicKey

/-- `s_GetPuK` for `ID_US_PUK`, which fails with `PUK_RET_NULL_ERR`. -/
def Terminal.getUsPuk (terminal : Terminal) : Except Int RsaPublicKey :=
  if terminal.curPukLevel = 0 then .ok terminal.usPubKey
  else
    match terminal.pukinfo (terminal.curPukLevel - 1) with
    | some key => .ok key
    | none => .error PUK_RET_NULL_ERR

/-- A file in memory: the bytes at and around its address, and its length. -/
structure File where
  byte : Int → Byte
  length : Int

/-- The bytes from a place on. -/
def File.bytes (file : File) (start len : Int) : List Byte :=
  (List.range len.toNat).map fun i : Nat => file.byte (start + i)

/-- Some bytes of a file, which are not read outside of it. -/
def File.read (file : File) (start len : Int) : Option (List Byte) :=
  if len ≤ 0 ∨ 0 ≤ start ∧ start + len ≤ file.length then some (file.bytes start len) else none

/-- A number of four bytes, the lowest first. -/
def number (bytes : List Byte) (at_ : Nat) : Int :=
  (BitVec.ofNat 32 ((bytes.getD at_ 0).toNat + (bytes.getD (at_ + 1) 0).toNat * 2 ^ 8 +
    (bytes.getD (at_ + 2) 0).toNat * 2 ^ 16 + (bytes.getD (at_ + 3) 0).toNat * 2 ^ 24)).toInt

/-- Whether a file ends with the flag. -/
def File.hasFlag (file : File) : Option Bool :=
  (file.read (file.length - 16) 16).map (· == SIGN_FLAG)

/-- Whether a development terminal takes a file without a signature. -/
def bypass (terminal : Terminal) (file : File) : Option Bool :=
  if terminal.developPos then
    if terminal.bootSecLevel = 0 then
      if terminal.curPukLevel = 0 then file.hasFlag.map (!·) else some false
    else some (!terminal.tamperStatus)
  else some false

/-- The checks of a file, in the order in which they are tried. -/
def attempts (terminal : Terminal) (type : SignType) : List (SignType × RsaPublicKey) :=
  match type with
  | .app =>
    if (!terminal.tamperStatus || terminal.bootSecLevel == 0) ∧
        ¬ (terminal.secMode = POS_SEC_L0 ∧ 0 < terminal.bootSecLevel) then
      match terminal.getUsPuk with
      | .ok key => [(.app, key), (.mon, terminal.mfPubKey)]
      | .error _ => [(.mon, terminal.mfPubKey)]
    else [(.mon, terminal.mfPubKey)]
  | _ => [(.mon, terminal.mfPubKey)]

/-- What a check of a file ended with. -/
inductive Verdict where
  /-- An error is returned. -/
  | refused (ret : Int)
  /-- `0` is returned without a look at the file. -/
  | bypassed
  /-- `0` is returned because the signature verified under a key, with this block. -/
  | verified (key : RsaPublicKey) (outdata : Option Buffer)

/-- The result of a check. -/
def Verdict.ret : Verdict → Int
  | .refused ret => ret
  | .bypassed => 0
  | .verified _ _ => 0

/-- The signature of a file under a key. -/
def File.sig (file : File) (signlen : Int) (key : RsaPublicKey) : Option (List Byte) :=
  file.read (file.length - 16 - 12 - signlen) key.bytes

/-- The first and the third number in front of the flag, which the check reads there. -/
def File.signlen (file : File) : Int := number (file.bytes (file.length - 16 - 12) 12) 0
def File.datalen (file : File) : Int := number (file.bytes (file.length - 16 - 12) 12) 8

/-- The checks, one after the other until one succeeds. -/
def tryKeys (file : File) (datalen signlen : Int) :
    List (SignType × RsaPublicKey) → (ret : Int) → Option Verdict
  | [], ret => some (.refused ret)
  | (type, key) :: rest, _ => do
    let (ret, outdata) ← sVerifySig crypto type (file.read 0 datalen) key (file.sig signlen key)
    if ret = 0 then some (.verified key outdata) else tryKeys file datalen signlen rest ret

/-- `s_iVerifySignature`. -/
def sIVerifySignature (terminal : Terminal) (type : SignType) (file : File) : Option Verdict := do
  if ← bypass terminal file then some .bypassed
  else if !(← file.hasFlag) then some (.refused PUK_RET_SIG_ERR)
  else
    let _ ← file.read (file.length - 16 - 12) 12
    if file.datalen ≤ 0 ∨ file.signlen ≤ 0 then some (.refused PUK_RET_SIG_ERR)
    else if type = .uaPuk ∨ type = .usPuk then some .bypassed
    else tryKeys crypto file file.datalen file.signlen (attempts terminal type) PUK_RET_SIG_ERR

end PosFirmware.Puk
