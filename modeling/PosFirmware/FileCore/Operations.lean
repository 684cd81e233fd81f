import PosFirmware.FileCore.Exchange

/-! # File operations

Creating, opening, renaming, removing, seeking, reading, writing and truncating. Writing
never changes a page that holds data: the page is copied to a free one, the chain leads
through the copy, and the old page is given up.
-/

namespace PosFirmware.FileCore

open PosFirmware.Foundation

variable {D : Type}

/-! ## Names -/

/-- `UpperCase` on a name of 16 characters at most, over a buffer of zeros: the buffer and
the length. -/
def upperCase (source : List Byte) : List Byte × Nat :=
  let name := (source.take 16).takeWhile (· ≠ 0)
  let upper := name.map fun c => if 0x61 ≤ c ∧ c ≤ 0x7A then c - 32 else c
  (upper ++ List.replicate (17 - upper.length) 0, upper.length)

/-- The comparison of a name with that of an entry: `strcmp` where it is shorter than 16
characters, `memcmp` of 16 bytes else. -/
def sameName (name : List Byte × Nat) (fileName : List Byte) : Bool :=
  if name.2 < 16 then name.1.take (name.2 + 1) = fileName.take (name.2 + 1)
  else name.1.take 16 = fileName.take 16

/-- The entries searched by `s_SearchFile`. -/
def searchFile (tables : Tables) (name : List Byte × Nat) (attr : Byte) : Option Nat :=
  (List.range MAX_FILES).find? fun fd =>
    (tables.kFlist fd).attr = attr ∧ sameName name (tables.kFlist fd).fileName

/-- `s_SearchFile`, for the number of the calling application; with no attribute, the
application's own files. -/
def sSearchFile (appNum : Option Byte) (filename : List Byte) (fattr : Option Byte) :
    Prog (Fs D) (Option Nat) := do
  match appNum with
  | none => pure none
  | some appNum =>
      if filename.headD 0 = 0 then
        setErrno .FILE_NOEXIST
        pure none
      else
        match searchFile (← tables) (upperCase filename) (fattr.getD appNum) with
        | some fd => pure (some fd)
        | none =>
            onlyIf fattr.isNone (setErrno .FILE_NOEXIST)
            pure none

variable (board : Board D)

def sCreateFile (fd : Nat) (filename : List Byte) (attr type : Byte) : Prog (Fs D) Unit := do
  inside fd MAX_FILES
  let name := (upperCase filename).1
  onTables fun tables => tables.setItem fd fun _ =>
    ⟨name.take 16, attr, type, NULL_BLOCK, 0⟩
  live (kLogCeateFile board fd attr type name)

/-- The parameter `mode` of the functions that open a file. -/
def O_RDWR : Nat := 1
def O_CREATE : Nat := 2
def O_ENCRYPT : Nat := 4

/-- The handle of an opened file. -/
def openedStatus (fd startBlock : Nat) (len : Int) : FileStatus where
  openFlag := WRITE_FILE
  fd := fd
  filePtr := 0
  len := len
  upBlockPtr := NULL_BLOCK
  curBlockPtr := startBlock
  filePtrOff := if startBlock = NULL_BLOCK then PAGE_SIZE else 0
  cmdSet := CMD_SET

/-- The last part of `s_open`. -/
def openAt (fd : Nat) : Prog (Fs D) Int := do
  onTables fun tables => tables.setStatus fd fun status =>
    openedStatus fd (tables.kFlist fd).startBlock status.len
  pure fd

def sOpen (appNum : Option Byte) (filename : List Byte) (mode : Nat) (attr type : Byte) :
    Prog (Fs D) Int := do
  if filename.headD 0 = 0 then
    setErrno .FILE_NOEXIST
    pure (-1)
  else
    match ← sSearchFile appNum filename (some attr) with
    | some fd =>
        if mode = O_CREATE ∨ mode = O_CREATE + O_ENCRYPT then
          setErrno .FILE_EXIST
          pure (-1)
        else
          openAt fd
    | none =>
        if mode = O_RDWR ∨ mode = O_RDWR + O_ENCRYPT then
          setErrno .FILE_NOEXIST
          pure (-1)
        else
          let before ← tables
          match (List.range MAX_FILES).find? fun fd =>
              (before.kFlist fd).fileName.headD 0 = 0 with
          | none =>
              setErrno .TOO_MANY_FILES
              pure (-1)
          | some fd =>
              sCreateFile board fd filename attr type
              openAt fd

def sRenameFile (fd : Nat) (filename : List Byte) (attr type : Byte) : Prog (Fs D) Unit := do
  inside fd MAX_FILES
  onTables fun tables => tables.setItem fd fun item =>
    { item with fileName := (upperCase filename).1.take 16, attr := attr, type := type }
  sSaveFAT board

/-- The pages of a chain given up, from one of them on. -/
def giveUpChain : Nat → Nat → Prog (Fs D) Unit
  | 0, _ => Prog.halt
  | fuel + 1, page =>
      if page = NULL_BLOCK then pure ()
      else do
        let next ← Prog.read fun fs => fs.tables.kFAT page
        onTables fun tables => tables.giveUp page
        giveUpChain fuel next

def sRemoveId (fd : Nat) : Prog (Fs D) Unit := do
  inside fd MAX_FILES
  onTables fun tables =>
    (tables.setItem fd fun item =>
      { item with fileName := 0 :: item.fileName.drop 1, attr := 0xfe }).setStatus fd
        fun status => { status with openFlag := 0 }
  let startBlock ← Prog.read fun fs => (fs.tables.kFlist fd).startBlock
  giveUpChain board.fuel startBlock
  live (kLogRemoveFile board fd)

/-! ## Seeking and reading -/

/-- The handle `fd` is that of an open file. -/
def sCheckFid (fd : Int) : Prog (Fs D) Bool := do
  if fd < 0 ∨ (MAX_FILES : Int) ≤ fd then
    setErrno .INVALID_HANDLE
    pure false
  else if ((← tables).kFstatus fd.toNat).openFlag = 0 then
    setErrno .FILE_NOT_OPENED
    pure false
  else
    pure true

/-- The page that holds an offset into a chain, the page before it, and the offset within
it. -/
def walk (fat : Nat → Nat) : Nat → Int → Nat → Nat → Nat × Nat × Int
  | 0, offset, tmpBlock, upBlock => (tmpBlock, upBlock, offset)
  | fuel + 1, offset, tmpBlock, upBlock =>
      if (PAGE_SIZE : Int) < offset then
        walk fat fuel (offset - PAGE_SIZE) (fat tmpBlock) tmpBlock
      else
        (tmpBlock, upBlock, offset)

/-- The end of `s_seek`: the handle after a walk over the chain. -/
def FileStatus.seekFrom (status : FileStatus) (fat : Nat → Nat) (tmpBlock : Nat)
    (filePtr offset : Int) : FileStatus :=
  let reached := walk fat (offset.toNat / PAGE_SIZE) offset tmpBlock NULL_BLOCK
  { status with
    filePtr := filePtr
    upBlockPtr := reached.2.1
    curBlockPtr := reached.1
    filePtrOff := if reached.1 ≠ NULL_BLOCK then ushort reached.2.2 else status.filePtrOff }

/-- `origin` of `seek`. -/
inductive Origin
  | SEEK_SET
  | SEEK_CUR
  | SEEK_END
  deriving DecidableEq

/-- `s_seek` on the handle; near the cursor it stays in the page. -/
def FileStatus.seek (status : FileStatus) (item : FileItem) (fat : Nat → Nat) (offset : Int) :
    Origin → FileStatus
  | .SEEK_SET => status.seekFrom fat item.startBlock offset offset
  | .SEEK_END =>
      status.seekFrom fat item.startBlock (int (offset + item.size)) (int (offset + item.size))
  | .SEEK_CUR =>
      if offset ≤ 0 then
        if 0 ≤ int (status.filePtrOff + offset) then
          { status with
            filePtr := int (status.filePtr + offset)
            filePtrOff := ushort (status.filePtrOff + offset) }
        else
          status.seekFrom fat item.startBlock (int (offset + status.filePtr))
            (int (offset + status.filePtr))
      else if int (status.filePtrOff + offset) ≤ PAGE_SIZE then
        { status with
          filePtrOff := ushort (status.filePtrOff + offset)
          filePtr := int (status.filePtr + offset) }
      else
        status.seekFrom fat status.curBlockPtr (int (status.filePtr + offset))
          (int (offset + status.filePtrOff))

def sSeek (fd : Nat) (offset : Int) (origin : Origin) : Prog (Fs D) Unit :=
  onTables fun tables => tables.setStatus fd fun status =>
    status.seek (tables.kFlist fd) tables.kFAT offset origin

def seek (fd offset : Int) (origin : Option Origin) : Prog (Fs D) Int := do
  if ← sCheckFid fd then
    let before ← tables
    match origin with
    | none =>
        setErrno .INVALID_MODE
        pure (-1)
    | some origin =>
        let tmpLen : Int := match origin with
          | .SEEK_SET => 0
          | .SEEK_CUR => (before.kFstatus fd.toNat).filePtr
          | .SEEK_END => (before.kFlist fd.toNat).size
        if int (tmpLen + offset) < 0 then
          setErrno .TOP_OVERFLOW
          pure (-1)
        else if (before.kFlist fd.toNat).size < int (tmpLen + offset) then
          setErrno .END_OVERFLOW
          pure (-1)
        else
          sSeek fd.toNat offset origin
          pure 0
  else
    pure (-1)

/-- The pages behind the cursor's read one after the other; the bytes, and where the cursor
gets. -/
def readPages : Nat → Nat → Int → Prog (Fs D) (List Byte × Nat × Nat × Int)
  | 0, _, _ => Prog.halt
  | fuel + 1, upBlock, len => do
      let tmpBlock ← Prog.read fun fs => fs.tables.kFAT upBlock
      if len ≤ PAGE_SIZE then
        let bytes ← sReadFlash board (pageAddr tmpBlock) len.toNat
        pure (bytes, tmpBlock, upBlock, len)
      else
        let bytes ← sReadFlash board (pageAddr tmpBlock) PAGE_SIZE
        let rest ← readPages fuel tmpBlock (len - PAGE_SIZE)
        pure (bytes ++ rest.1, rest.2)

def sRead (fd : Nat) (len : Int) : Prog (Fs D) (Int × List Byte) := do
  let before ← tables
  let item := before.kFlist fd
  let status := before.kFstatus fd
  let len := if item.size < int (status.filePtr + len) then int (item.size - status.filePtr)
    else len
  let cursor := pageAddr status.curBlockPtr + status.filePtrOff
  let tmpLen := ushort (PAGE_SIZE - status.filePtrOff)
  if len ≤ 0 then
    pure (0, [])
  else if len ≤ tmpLen then
    let bytes ← sReadFlash board cursor len.toNat
    onTables fun tables => tables.setStatus fd fun status => { status with
      filePtrOff := ushort (status.filePtrOff + len), filePtr := int (status.filePtr + len) }
    pure (len, bytes)
  else
    let front ← (if tmpLen = 0 then pure [] else sReadFlash board cursor tmpLen)
    let rest ← readPages board ((len - tmpLen).toNat / PAGE_SIZE + 1) status.curBlockPtr
      (len - tmpLen)
    onTables fun tables => tables.setStatus fd fun status => { status with
      filePtr := int (status.filePtr + len)
      filePtrOff := ushort rest.2.2.2
      curBlockPtr := rest.2.1
      upBlockPtr := rest.2.2.1 }
    pure (len, front ++ rest.1)

def read (fd len : Int) : Prog (Fs D) (Int × List Byte) := do
  if ← sCheckFid fd then
    sRead board fd.toNat len
  else
    pure (-1, [])

/-! ## Opening, closing and removing by name -/

/-- `open`, of the calling application's own user file. -/
def openFile (appNum : Option Byte) (filename : List Byte) (mode : Nat) : Prog (Fs D) Int := do
  match appNum with
  | none => pure (-1)
  | some num =>
      if mode < 1 ∨ 6 < mode ∨ mode = O_ENCRYPT then
        setErrno .INVALID_MODE
        pure (-1)
      else
        sOpen board appNum filename mode num 0x04

def APP_MAX_NUM : Nat := 24

/-- The digits of `"%d"`. -/
def decimal (value : Nat) : List Byte := text (toString value)

/-- `ex_open`: a user file of another application, if that one is there. -/
def exOpen (appNum : Option Byte) (filename : List Byte) (mode : Nat) (attr type : Byte) :
    Prog (Fs D) Int := do
  match appNum with
  | none => pure (-1)
  | some num =>
      if mode < 1 ∨ 6 < mode ∨ mode = O_ENCRYPT then
        setErrno .INVALID_MODE
        pure (-1)
      else if type = 4 ∧ attr ≠ 0xff ∧ attr.toNat < APP_MAX_NUM ∧ num.toNat < APP_MAX_NUM then
        match ← sSearchFile appNum (text "AppFile" ++ decimal attr.toNat) (some 0xff) with
        | some _ => sOpen board appNum filename mode attr type
        | none =>
            setErrno .NO_PERMISSION
            pure (-1)
      else
        setErrno .NO_PERMISSION
        pure (-1)

def close (fd : Int) : Prog (Fs D) Int := do
  if ← sCheckFid fd then
    onTables fun tables => tables.setStatus fd.toNat fun status => { status with openFlag := 0 }
    pure 0
  else
    pure (-1)

def FILE_ATTR_PUBSO : Byte := 0xE0
def FILE_ATTR_PUBFILE : Byte := 0xE1

/-- `closefile`, of files that applications own. -/
def closefile (fd : Int) : Prog (Fs D) Int := do
  if ← sCheckFid fd then
    let attr ← Prog.read fun fs => (fs.tables.kFlist fd.toNat).attr
    if attr ≠ FILE_ATTR_PUBSO ∧ attr ≠ FILE_ATTR_PUBFILE ∧ APP_MAX_NUM < attr.toNat then
      pure (-1)
    else
      onTables fun tables => tables.setStatus fd.toNat fun status => { status with openFlag := 0 }
      pure 0
  else
    pure (-1)

/-- `s_remove`. -/
def sRemove (appNum : Option Byte) (filename : List Byte) (fattr : Option Byte) :
    Prog (Fs D) Int := do
  match ← sSearchFile appNum filename fattr with
  | none => pure (-1)
  | some fd =>
      sRemoveId board fd
      pure 0

/-- `remove`, and `ex_remove` with an attribute: an open file stays. -/
def removeFile (appNum : Option Byte) (filename : List Byte) (fattr : Option Byte) :
    Prog (Fs D) Int := do
  match ← sSearchFile appNum filename fattr with
  | none => pure (-1)
  | some fd =>
      if ((← tables).kFstatus fd).openFlag ≠ 0 then
        setErrno .FILE_OPENED
        pure (-1)
      else
        sRemoveId board fd
        pure 0

end PosFirmware.FileCore
