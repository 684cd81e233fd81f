import PosFirmware.CfgManage.Keywords
import PosFirmware.Puk.Signature

/-! # The configuration file

`s_CfgInfo_Init` of `CfgManage.c`: one pass over the file that keeps the places of the last line
feed and of the last `=`, and what it does at each. It stops where a byte behind the content would
be read or one behind a buffer be written.
-/

namespace PosFirmware.CfgManage

open PosFirmware.Foundation

/-- `FILE_FORMAT_ERR` and the other codes. -/
def FILE_FORMAT_ERR : Int := -1
def KEYWORD_ERR : Int := -2
def CONTEXT_ERR : Int := -3
def FILL_ERR : Int := -4
def NO_CONTEXT_ERR : Int := -5
def ONLY_ONE_QUOTE_ERR : Int := -6
def NO_CFG_FILE : Int := -7
def CFGFILE_SIG_ERR : Int := -8

/-- The bytes of `buf`. -/
def BUF_SIZE : Nat := 400

/-- `S_HARD_INFO`. -/
structure HardInfo where
  type : Option ConfigType
  keyword : List Byte
  context : List Byte

/-- What ends a pass: a code, or a read or write outside. -/
inductive Stop
  | returned (code : Int)
  | outside
  deriving DecidableEq

/-- `Fill_HardwareInfo`. -/
def fillHardwareInfo (keyword context : List Byte) (type : ConfigType) :
    List HardInfo → Option (List HardInfo)
  | [] => none
  | info :: infos =>
      if info.keyword ≠ keyword then
        (fillHardwareInfo keyword context type infos).map (info :: ·)
      else
        some ({ info with context := context.take ITEM_SIZE, type := some type } :: infos)

/-- The keyword that the string in `buf` starts with. -/
def keyOf (string : List Byte) : Except Stop Int :=
  -- a string of the size of `buf` has no terminator
  if BUF_SIZE ≤ string.length then .error .outside
  else
    match verifySymbol (stringOf 0 string) (-1) with
    | none => .error .outside
    | some (_, itemNum) => if itemNum < 0 then .error (.returned KEYWORD_ERR) else .ok itemNum

/-- The variables of the pass. -/
structure InitState where
  lastLF : Nat
  lastEqual : Nat
  itemNum : Int
  hardwareInfo : List HardInfo

section

variable (content : List Byte)

/-- `//` stands in the line before the place. -/
def commented (lastLF place : Nat) : Bool :=
  (List.range' lastLF (place - lastLF)).any fun j =>
    content[j]? == some 0x2f && content[j + 1]? == some 0x2f

/-- The keyword that stands before an `=`. -/
def findKeyword (lastLF place : Nat) : Except Stop Int :=
  let start := if lastLF = 0 then lastLF else lastLF + 1
  keyOf ((content.drop start).take (place - start))

/-- The byte that the text in quotes is copied to. -/
def store (buf : List Byte) (byte : Option Byte) : Except Stop (List Byte) :=
  match byte with
  | none => .error .outside
  | some c => if buf.length < BUF_SIZE then .ok (buf ++ [c]) else .error .outside

/-- The loop that counts the quotes and copies what stands in them: the count, and the bytes that
were written to `buf`. -/
def quoteLoop : Nat → Nat → Nat → List Byte → Except Stop (Nat × List Byte)
  | 0, _, quoteCnt, buf => .ok (quoteCnt, buf)
  | rounds + 1, j, quoteCnt, buf =>
      match content[j]? with
      | none => .error .outside
      | some c =>
          let quoteCnt := if c = 0x22 then quoteCnt + 1 else quoteCnt
          if c = 0x2f ∧ content[j + 1]? = none then .error .outside
          else if c = 0x2f ∧ content[j + 1]? = some 0x2f then .ok (quoteCnt, buf)
          else do
            let buf ← if quoteCnt = 1 then store buf content[j + 1]? else .ok buf
            if quoteCnt = 2 then .ok (quoteCnt, buf.set (buf.length - 1) 0)
            else quoteLoop rounds (j + 1) quoteCnt buf

/-- The end of a line: what its keyword is set to. -/
def finishLine (lastLF : Nat) (s : InitState) : Except Stop InitState :=
  if lastLF < s.lastEqual then .error (.returned FILE_FORMAT_ERR)
  else do
    let (quoteCnt, buf) ← quoteLoop content (lastLF - s.lastEqual) s.lastEqual 0 []
    if quoteCnt = 0 ∧ s.itemNum ≠ -1 then .error (.returned NO_CONTEXT_ERR)
    else if s.itemNum = -1 then .ok { s with lastLF }
    else if quoteCnt = 1 then .error (.returned ONLY_ONE_QUOTE_ERR)
    else
      match verifySymbol (stringOf 0 buf) s.itemNum, versiconKeyword[s.itemNum.toNat]? with
      | some (context, ret), some config =>
          if ret < 0 then .error (.returned CONTEXT_ERR)
          else
            match fillHardwareInfo (text config.keyword) context config.type s.hardwareInfo with
            | none => .error (.returned FILL_ERR)
            | some hardwareInfo => .ok { s with lastLF, hardwareInfo, itemNum := -1 }
      | _, _ => .error .outside

/-- The second half of a round: a line feed, or the end of the content. -/
def lineEnd (s : InitState) (i : Nat) : Except Stop InitState :=
  if content[i]? = some 0x0a then finishLine content i s
  else if i + 1 = content.length then finishLine content content.length s
  else .ok s

/-- One round of the pass. -/
def initRound (s : InitState) (i : Nat) : Except Stop InitState :=
  if content[i]? = some 0x3d then
    if i < s.lastLF then .error (.returned FILE_FORMAT_ERR)
    -- the place of an `=` in a comment is kept, and the end of the content is passed over
    else if commented content s.lastLF i then .ok { s with lastEqual := i }
    else do
      let itemNum ← findKeyword content s.lastLF i
      lineEnd content { s with lastEqual := i, itemNum } i
  else lineEnd content s i

end

/-- `s_HardwareInfo` before the pass. -/
def emptyInfo (old : VersionConfig → Option ConfigType) : List HardInfo :=
  versiconKeyword.map fun config => ⟨old config, text config.keyword, []⟩

/-- The pass over the content, with the table that it leaves where it returns zero. -/
def cfgPass (old : VersionConfig → Option ConfigType) (content : List Byte) :
    Except Stop (List HardInfo) :=
  ((List.range content.length).foldlM (initRound content) ⟨0, 0, -1, emptyInfo old⟩).map
    InitState.hardwareInfo

/-- The content of a file, without the signature behind it. -/
def contentOf (file : List Byte) : List Byte :=
  if file.drop (file.length - 16) = Puk.SIGN_FLAG then
    file.take (file.length - Puk.SIGN_INFO_LEN)
  else file

/-- `s_CfgInfo_Init`, after `ReadTerminalInfo` has read the file or nothing, and
`s_iVerifySignature` has given a code. -/
def sCfgInfoInit (old : VersionConfig → Option ConfigType) (file : Option (List Byte))
    (verified : Int) : Except Stop (List HardInfo) :=
  match file with
  | none => .error (.returned NO_CFG_FILE)
  | some file =>
      if verified ≠ 0 then .error (.returned CFGFILE_SIG_ERR) else cfgPass old (contentOf file)

end PosFirmware.CfgManage
