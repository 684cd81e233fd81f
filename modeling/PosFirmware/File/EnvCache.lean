import Mathlib.Data.BitVec
import Mathlib.Data.List.FinRange
import Mathlib.Logic.Function.Basic
import PosFirmware.Foundation.Memory
import PosFirmware.Foundation.Run

/-! # The environment file and its cache

Every application keeps its settings in a file of records of 128 bytes, a name of seven
characters and a value of 119. `filepublic.c` holds the file of one application in a
cache with the number of its owner; `filecore.c` empties the cache when an environment
file is written, truncated or removed.
-/

namespace PosFirmware.File

open PosFirmware.Foundation

abbrev Byte := BitVec 8

abbrev MAX_FILES : Nat := 256

/-- `ENV_FILE`, the name `ENVFILE`. -/
def ENV_FILE : List Byte := [0x45, 0x4E, 0x56, 0x46, 0x49, 0x4C, 0x45]

/-! ## The file system -/

/-- A file: its entry of `k_Flist`, and its bytes, `size` of them. -/
structure FileItem where
  fileName : List Byte
  attr : Byte
  bytes : List Byte
  deriving DecidableEq

/-- `k_Flist`; an entry with an empty name is `none`. -/
abbrev FileList := Fin MAX_FILES → Option FileItem

/-- Whether an entry has a name and an attribute. -/
def named (entry : Option FileItem) (fileName : List Byte) (attr : Byte) : Bool :=
  match entry with
  | some item => item.attr = attr ∧ item.fileName = fileName
  | none => false

/-- `s_SearchFile`, on a name in upper case. -/
def sSearchFile (flist : FileList) (fileName : List Byte) (attr : Byte) : Option (Fin MAX_FILES) :=
  (List.finRange MAX_FILES).find? fun fd => named (flist fd) fileName attr

/-- The file that `s_SearchFile` finds. -/
def ownFile (flist : FileList) (fileName : List Byte) (attr : Byte) : Option FileItem :=
  (sSearchFile flist fileName attr).bind flist

/-- The first entry that is free. -/
def freeEntry (flist : FileList) : Option (Fin MAX_FILES) :=
  (List.finRange MAX_FILES).find? fun fd => (flist fd).isNone

/-- `s_open` with `O_CREATE | O_RDWR`: the file, its handle, and the files after. -/
def sOpenCreate (flist : FileList) (fileName : List Byte) (attr : Byte) :
    Option (Fin MAX_FILES × FileList) :=
  match sSearchFile flist fileName attr with
  | some fd => some (fd, flist)
  | none =>
      match freeEntry flist with
      | some fd => some (fd, Function.update flist fd (some ⟨fileName, attr, []⟩))
      | none => none

/-- The bytes of a file with some written over them from an offset on. -/
def overwrite (bytes : List Byte) (offset : Nat) (written : List Byte) : List Byte :=
  bytes.take offset ++ written ++ bytes.drop (offset + written.length)

/-! ## The cache -/

/-- `s_EnvId`, `s_EnvAppNum`, `s_EnvData` and `s_EnvLen`. -/
structure EnvCache where
  sEnvId : Nat
  sEnvAppNum : Byte
  sEnvData : Nat → Byte
  sEnvLen : Nat

/-- The size of `s_EnvData`. -/
def ENV_SIZE : Nat := 0x10000

/-- The cache when the terminal starts. -/
def EnvCache.initial : EnvCache := ⟨0xFFFF, 0xFF, fun _ => 0, 0⟩

/-- `Invalid_Env_Cache`; the length stays. -/
def invalidEnvCache (cache : EnvCache) : EnvCache :=
  { cache with sEnvId := 0xFFFF, sEnvAppNum := 0xFF, sEnvData := fun _ => 0 }

/-- `k_write` at an offset: whether there was room, the files and the cache. -/
def kWrite (flist : FileList) (cache : EnvCache) (fd : Fin MAX_FILES) (item : FileItem)
    (offset : Nat) (written : List Byte) (room : Bool) : Bool × FileList × EnvCache :=
  let cache := if item.fileName = ENV_FILE then invalidEnvCache cache else cache
  if room then
    let item := { item with bytes := overwrite item.bytes offset written }
    (true, Function.update flist fd (some item), cache)
  else (false, flist, cache)

/-- `s_EnvData` cleared, and the file read into it from its start. -/
def EnvCache.load (cache : EnvCache) (bytes : List Byte) : EnvCache :=
  { cache with sEnvData := blit (fun _ => 0) 0 (bytes.take ENV_SIZE),
               sEnvLen := (bytes.take ENV_SIZE).length }

/-! ## Records -/

/-- `memcpy(name, envname, 7); name[7] = 0`: the argument with the bytes that follow its
end in memory. -/
def copyName (envname : List Byte) : List Byte := (envname ++ List.replicate 7 0).take 7

/-- The name that `strcmp` compares. -/
def nameOf (envname : List Byte) : List Byte := cstr (copyName envname)

/-- The name of a record. -/
def recordName (data : Nat → Byte) (record : Nat) : List Byte := cstr (slice data (128 * record) 7)

/-- The loop over the records: the first with a name. -/
def envSearch (data : Nat → Byte) (len : Nat) (name : List Byte) : Option Nat :=
  (List.range ((len + 127) / 128)).find? fun record => recordName data record = name

/-- What `GetEnv` gives: a value, the code that it returns without one, or the bytes that
`strcpy` finds past a record that no zero ends. -/
inductive EnvAnswer where
  | value (text : List Byte)
  | failed (code : Nat)
  | unterminated
  deriving DecidableEq

/-- The value of a record, copied by `strcpy`. -/
def recordValue (data : Nat → Byte) (record : Nat) : EnvAnswer :=
  let text := slice data (128 * record + 8) 120
  if 0 ∈ text then .value (cstr text) else .unterminated

/-- The value of the first record with a name. -/
def searchValue (data : Nat → Byte) (len : Nat) (name : List Byte) : EnvAnswer :=
  match envSearch data len name with
  | some record => recordValue data record
  | none => .failed 0x01

/-- The record that `PutEnv` writes. -/
def envRecord (envname text : List Byte) : List Byte :=
  copyName envname ++ 0 :: text.take 119 ++ List.replicate (120 - (text.take 119).length) 0

/-- `strcmp(s_EnvData + offset + 8, value)` finds no difference. -/
def sameValue (data : Nat → Byte) (record : Nat) (text : List Byte) : Prop :=
  slice data (128 * record + 8) (text.length + 1) = text ++ [0]

instance (data : Nat → Byte) (record : Nat) (text : List Byte) :
    Decidable (sameValue data record text) :=
  inferInstanceAs (Decidable (_ = _))

/-! ## `GetEnv` and `PutEnv` -/

/-- `GetEnv`; the caller is `none` when `GetCallAppInfo` fails. -/
def getEnv (flist : FileList) (cache : EnvCache) (caller : Option Byte) (envname : List Byte) :
    EnvAnswer × EnvCache :=
  match caller with
  | none => (.failed 0xFF, cache)
  | some app =>
      if envname.headD 0 = 0 then (.failed 0x01, cache)
      else if cache.sEnvId < MAX_FILES ∧ cache.sEnvAppNum = app then
        (searchValue cache.sEnvData cache.sEnvLen (nameOf envname), cache)
      else
        match sSearchFile flist ENV_FILE app with
        | none => (.failed 0x01, cache)
        | some fd =>
            let cache := cache.load (((flist fd).map FileItem.bytes).getD [])
            if cache.sEnvLen ≤ 0 then (.failed 0x01, cache)
            else
              (searchValue cache.sEnvData cache.sEnvLen (nameOf envname),
                { cache with sEnvAppNum := app, sEnvId := fd })

/-- `PutEnv` once the file is open and in the cache: the code, the files and the cache. -/
def putRecord (flist : FileList) (cache : EnvCache) (fd : Fin MAX_FILES) (item : FileItem)
    (envname text : List Byte) (room : Bool) : Nat × FileList × EnvCache :=
  match envSearch cache.sEnvData cache.sEnvLen (nameOf envname) with
  | some record =>
      let offset := 128 * record
      if sameValue cache.sEnvData record text ∧ offset + 128 ≤ cache.sEnvLen then (0, flist, cache)
      else
        let (written, flist, cache) :=
          kWrite flist cache fd item offset (envRecord envname text) room
        if written then
          (0, flist, { cache with
            sEnvData := blit cache.sEnvData offset (envRecord envname text) })
        else (0x02, flist, { cache with sEnvId := 0xFFFF })
  | none =>
      if cache.sEnvLen ≥ ENV_SIZE then (0x02, flist, cache)
      else
        let cache := { cache with sEnvId := 0xFFFF, sEnvData := fun _ => 0 }
        let (written, flist, cache) :=
          kWrite flist cache fd item item.bytes.length (envRecord envname text) room
        (if written then 0 else 0x02, flist, cache)

/-- The file that `PutEnv` opened, read into the cache if another one is there. -/
def EnvCache.reload (cache : EnvCache) (fd : Nat) (bytes : List Byte) : EnvCache :=
  if cache.sEnvId ≠ fd then { cache.load bytes with sEnvId := fd } else cache

/-- `PutEnv`; `room` says whether the flash has pages left for a write. -/
def putEnv (flist : FileList) (cache : EnvCache) (caller : Option Byte)
    (envname value : List Byte) (room : Bool) : Nat × FileList × EnvCache :=
  match caller with
  | none => (0xFF, flist, cache)
  | some app =>
      if envname.headD 0 = 0 then (0x01, flist, cache)
      else
        let cache := { cache with sEnvAppNum := app }
        match sOpenCreate flist ENV_FILE app with
        | none => (0x02, flist, cache)
        | some (fd, flist) =>
            let item := (flist fd).getD ⟨ENV_FILE, app, []⟩
            putRecord flist (cache.reload fd item.bytes) fd item envname (cstr value) room

/-! ## Runs -/

/-- The calls on the environment, and the other calls on files. -/
inductive EnvEvent where
  | getEnv (caller : Option Byte) (envname : List Byte)
  | putEnv (caller : Option Byte) (envname value : List Byte) (room : Bool)
  | create (fileName : List Byte) (attr : Byte)
  | write (fd : Fin MAX_FILES) (offset : Nat) (written : List Byte) (room : Bool)
  | truncate (fd : Fin MAX_FILES) (len : Nat)
  | remove (fd : Fin MAX_FILES)

/-- The files and the cache, and the text that the last successful `PutEnv` of an
application stored under a name, for as long as no other call changes the application's
file. -/
structure EnvSystem where
  flist : FileList
  cache : EnvCache
  stored : Byte → List Byte → Option (List Byte)

/-- Another call changed a file. -/
def EnvSystem.changed (s : EnvSystem) (fd : Fin MAX_FILES) (item : FileItem)
    (after : Option FileItem) : EnvSystem where
  flist := Function.update s.flist fd after
  cache := if item.fileName = ENV_FILE then invalidEnvCache s.cache else s.cache
  stored :=
    if item.fileName = ENV_FILE then Function.update s.stored item.attr fun _ => none
    else s.stored

/-- One call. -/
def envStep (s : EnvSystem) : EnvEvent → EnvSystem
  | .getEnv caller envname => { s with cache := (getEnv s.flist s.cache caller envname).2 }
  | .putEnv caller envname value room =>
      let (code, flist, cache) := putEnv s.flist s.cache caller envname value room
      { flist, cache,
        stored := match caller with
          | some app =>
              if code = 0 then
                Function.update s.stored app
                  (Function.update (s.stored app) (nameOf envname)
                    (some ((cstr value).take 119)))
              else s.stored
          | none => s.stored }
  | .create fileName attr =>
      if fileName = [] then s
      else
        match sOpenCreate s.flist fileName attr with
        | some (_, flist) => { s with flist }
        | none => s
  | .write fd offset written room =>
      match s.flist fd with
      | some item =>
          if written = [] ∨ item.bytes.length < offset then s
          else if room then
            s.changed fd item (some { item with bytes := overwrite item.bytes offset written })
          else { s with cache := (kWrite s.flist s.cache fd item offset written false).2.2 }
      | none => s
  | .truncate fd len =>
      match s.flist fd with
      | some item =>
          if len < item.bytes.length then
            s.changed fd item (some { item with bytes := item.bytes.take len })
          else s
      | none => s
  | .remove fd =>
      match s.flist fd with
      | some item => s.changed fd item none
      | none => s

/-- The terminal starts with the files that it has. -/
def envStart (flist : FileList) : EnvSystem := ⟨flist, .initial, fun _ _ => none⟩

end PosFirmware.File
