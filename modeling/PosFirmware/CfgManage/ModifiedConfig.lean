import PosFirmware.CfgManage.Keywords

/-! # Modified settings

`s_CfgWriteSysParam` and `s_CfgReadSysParam` of `CfgManage.c`: a string of records of a keyword
and a context, which is stored as one parameter of the system.
-/

namespace PosFirmware.CfgManage

open PosFirmware.Foundation

/-- The size of `buf` and `value`. -/
def VALUE_SIZE : Nat := 2048

def VALID_CFG_PARAM : List Byte := text "valid_cfg_param"

/-- What is stored as `MODIFY_CFG_SETTING`, if anything. -/
abbrev Parameter := Option (List Byte)

/-- The page of the configuration file in a block, where it has one. -/
abbrev PageNo := Option (Fin 64)

/-- `PageNo[i]+'0'`. -/
def pageChar : PageNo → Byte
  | some page => BitVec.ofNat 8 (page + 0x30)
  | none => 0x2F

/-- `value` after `SysParaRead`. -/
def readValue (parameter : Parameter) : Option (List Byte) :=
  copyTo (List.replicate VALUE_SIZE 0) 0 (parameter.elim [] fun value => value ++ [0])

/-- Whether there are settings in `value`. -/
def hasSettings (parameter : Parameter) (value : List Byte) : Prop :=
  parameter ≠ none ∧ value.take VALID_CFG_PARAM.length = VALID_CFG_PARAM

instance (parameter : Parameter) (value : List Byte) : Decidable (hasSettings parameter value) :=
  inferInstanceAs (Decidable (_ ∧ _))

/-- `SysParaWrite` of a string in a buffer. -/
def writeValue (value : List Byte) : Option Parameter :=
  if 0 ∈ value then some (some (stringOf 0 value)) else none

/-- `buf` before anything is copied to it. -/
def filling : List Byte := List.replicate VALUE_SIZE 0x04

/-- A context for a record at its place, unless it is there. -/
def replaceContext (parameter : Parameter) (value context : List Byte) (place : Nat) :
    Option (Int × Parameter) :=
  if value.length < place + ITEM_SIZE + context.length then none
  else if (value.drop (place + ITEM_SIZE)).take context.length = context then some (0, parameter)
  else do
    let buf ← copyTo filling 0 context
    let value ← copyTo value (place + ITEM_SIZE) (buf.take ITEM_SIZE)
    let parameter ← writeValue value
    some (0, parameter)

/-- A record behind the others. -/
def appendRecord (value keyword context : List Byte) : Option (Int × Parameter) := do
  let buf ← copyTo filling 0 keyword
  let buf ← copyTo buf ITEM_SIZE context
  let value ← copyTo value (stringOf 0 value).length (buf.take (ITEM_SIZE * 2))
  let parameter ← writeValue value
  some (0, parameter)

/-- The first record, behind the flag and the pages of the configuration file. -/
def firstRecord (pages : PageNo × PageNo × PageNo) (value keyword context : List Byte) :
    Option (Int × Parameter) := do
  let buf ← copyTo filling 0 VALID_CFG_PARAM
  let buf ← copyTo buf ITEM_SIZE [pageChar pages.1, pageChar pages.2.1, pageChar pages.2.2]
  let buf ← copyTo buf (ITEM_SIZE * 2) keyword
  let buf ← copyTo buf (ITEM_SIZE * 3) context
  let value ← copyTo value 0 (buf.take (ITEM_SIZE * 4))
  let parameter ← writeValue value
  some (0, parameter)

/-- What `s_CfgWriteSysParam` does once the keyword and the context are verified. -/
def storeContext (pages : PageNo × PageNo × PageNo) (parameter : Parameter)
    (keyword context : List Byte) : Option (Int × Parameter) :=
  match readValue parameter with
  | none => none
  | some value =>
      if hasSettings parameter value then
        match strstr (stringOf 0 (value.drop (ITEM_SIZE * 2))) keyword with
        | some pt => replaceContext parameter value context (ITEM_SIZE * 2 + pt)
        | none => appendRecord value keyword context
      else firstRecord pages value keyword context

/-- `s_CfgWriteSysParam`, or nothing where it leaves a buffer. -/
def cfgWriteSysParam (pages : PageNo × PageNo × PageNo) (parameter : Parameter)
    (keyword context : List Byte) : Option (Int × Parameter) :=
  if ITEM_SIZE < context.length then some (-1, parameter)
  else
    match verifySymbol keyword (-1) with
    | none => none
    | some (keyword, itemNum) =>
        if itemNum < 0 then some (-2, parameter)
        else
          match verifySymbol context itemNum with
          | none => none
          | some (context, ret) =>
              if ret < 0 then some (-3, parameter) else storeContext pages parameter keyword context

/-- The bytes of a context up to its filling, or nothing where the buffer ends before it. -/
def contextAt (value : List Byte) (place : Nat) : Option (List Byte) :=
  let context := (value.drop (place + ITEM_SIZE)).take ITEM_SIZE
  if context.length = ITEM_SIZE ∨ 0x04 ∈ context then some (stringOf 0 (stringOf 0x04 context))
  else none

/-- `s_CfgReadSysParam`: an error or what it stores in `outdata`, or nothing where it leaves a
buffer. -/
def cfgReadSysParam (parameter : Parameter) (keyword : List Byte) :
    Option (Except Int (List Byte)) :=
  match readValue parameter with
  | none => none
  | some value =>
      if hasSettings parameter value then
        match strstr (stringOf 0 (value.drop (ITEM_SIZE * 2))) keyword with
        | some pt => (contextAt value (ITEM_SIZE * 2 + pt)).map .ok
        | none => some (.error (-2))
      else some (.error (-1))

end PosFirmware.CfgManage
