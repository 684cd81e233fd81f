import PosFirmware.Flash.Nand

/-!
# The configuration store

`ReadTerminalInfo` and `WriteTerminalInfo` of `CfgLowlevel.c`. Three blocks of the flash each
hold a log of records, one record a page; the newest record of a keyword is the one with the
highest page. A keyword is read by a vote over its three newest records, byte by byte.
-/

namespace PosFirmware.Config

open PosFirmware.Flash

def CONFIG_BASE_ADDR : Nat := 0x20000
def CONFIG_END_ADDR : Nat := 0x80000
def CONFIG_BLOCK_NUM : Nat := 3
def CONFIG_PAGE_NUM : Nat := BLOCK_SIZE / PAGE_SIZE
def MAX_INDEX : Nat := 20
def KEYWORD_LEN : Nat := 16

/-- `KeywordTable`, the first `KEYWORD_LEN` bytes of each entry. -/
def keywordTable : List (List Byte) :=
  [ -- $(CFG_SN), $(EXSN), $(MACADDR), $(CFG_FILE)
    [36, 40, 67, 70, 71, 95, 83, 78, 41, 32, 32, 32, 32, 32, 32, 32],
    [36, 40, 69, 88, 83, 78, 41, 32, 32, 32, 32, 32, 32, 32, 32, 32],
    [36, 40, 77, 65, 67, 65, 68, 68, 82, 41, 32, 32, 32, 32, 32, 32],
    [36, 40, 67, 70, 71, 95, 70, 73, 76, 69, 41, 32, 32, 32, 32, 32],
    -- $(LCDGRAY), $(UA_PUK), $(US_PUK)
    [36, 40, 76, 67, 68, 71, 82, 65, 89, 41, 32, 32, 32, 32, 32, 32],
    [36, 40, 85, 65, 95, 80, 85, 75, 41, 32, 32, 32, 32, 32, 32, 32],
    [36, 40, 85, 83, 95, 80, 85, 75, 41, 32, 32, 32, 32, 32, 32, 32],
    -- $(BEEP_VOL), $(KEY_TONE), $(RF_PARA): a tab, and filled up with zeros
    [36, 40, 66, 69, 69, 80, 95, 86, 79, 76, 41, 9, 32, 0, 0, 0],
    [36, 40, 75, 69, 89, 95, 84, 79, 78, 69, 41, 9, 32, 0, 0, 0],
    [36, 40, 82, 70, 95, 80, 65, 82, 65, 41, 32, 9, 32, 0, 0, 0],
    -- $(US_PUK1), $(US_PUK2), $(CUSTOMER_SN), $(TUSN)
    [36, 40, 85, 83, 95, 80, 85, 75, 49, 41, 32, 32, 32, 32, 32, 32],
    [36, 40, 85, 83, 95, 80, 85, 75, 50, 41, 32, 32, 32, 32, 32, 32],
    [36, 40, 67, 85, 83, 84, 79, 77, 69, 82, 95, 83, 78, 41, 32, 32],
    [36, 40, 84, 85, 83, 78, 41, 32, 32, 32, 32, 32, 32, 32, 32, 32] ]

/-- `Key_num`. -/
def keyNum : Nat := keywordTable.length

/-- A buffer with the bytes of a list at its start. -/
def listBuffer (bytes : List Byte) : Buffer := fun i => bytes.getD i 0

/-- A buffer of zeros. -/
def zeros : Buffer := fun _ => 0

/-- Whether the buffer starts with a keyword. -/
def hasKeyword (indexi : Nat) (pt : Buffer) : Bool :=
  sameBytes pt (listBuffer (keywordTable.getD indexi [])) KEYWORD_LEN

/-- The length field of a record. -/
def recordLen (pt : Buffer) : Nat := (pt KEYWORD_LEN).toNat + (pt (KEYWORD_LEN + 1)).toNat * 256

/-- The check byte of the first bytes of a content. -/
def lrcOf (content : Buffer) (len : Nat) : Byte :=
  (List.range len).foldl (fun lrc j => lrc ^^^ content j) 0

variable {δ : Type} (chip : Chip δ)

/-! ## Pages -/

/-- An array of `PAGE_SIZE` bytes on the stack into which a page was copied. -/
def pageArray (data : Buffer) : Buffer := memcpy chip.stackBuf 0 data 0 PAGE_SIZE

/-- Whether an address lies outside the store. -/
def outsideConfig (pageAddr : Nat) : Prop :=
  pageAddr < CONFIG_BASE_ADDR ∨ CONFIG_END_ADDR < pageAddr

instance (pageAddr : Nat) : Decidable (outsideConfig pageAddr) :=
  inferInstanceAs (Decidable (_ ∨ _))

/-- `cfg_nand_read`, and what it copies to `dst_addr`, if it copies anything. -/
def cfgNandRead (state : δ) (pageAddr : Nat) : Int × Option Buffer :=
  if outsideConfig pageAddr then (0, none)
  else
    let rbuf := chip.pageRd state (pageAddr * 2)
    if ∀ i < 64, rbuf (PAGE_SIZE + i) = 0xFF then (0, some (pageArray chip rbuf))
    else
      match eccCorrect chip.sha1 (wordsOf rbuf) with
      | (ret, some dataout) => (ret, some (pageArray chip (byteAt dataout)))
      | (ret, none) => (ret, none)

/-- Whether a page that was read back is what was programmed. -/
def verify (src : Buffer) (read : Int × Option Buffer) : Int :=
  if read.1 ≠ 0 ∨ ¬ sameBytes src (read.2.getD chip.stackBuf) PAGE_SIZE then -1 else 0

/-- `cfg_nand_write`: the page is read back. -/
def cfgNandWrite (state : δ) (pageAddr : Nat) (src : Buffer) : Int × δ :=
  if outsideConfig pageAddr then (0, state)
  else
    let state := chip.pagePrg state (pageAddr * 2) (pageImage chip src) (PAGE_SIZE + 64)
    (verify chip src (cfgNandRead chip state pageAddr), state)

/-- `cfg_nand_erase`. -/
def cfgNandErase (state : δ) (blockNum : Nat) : δ :=
  if blockNum < CONFIG_BASE_ADDR / BLOCK_SIZE ∨ CONFIG_END_ADDR / BLOCK_SIZE - 1 < blockNum then
    state
  else chip.blkErase state blockNum

/-- The address of a page of a block of the store. -/
def pageAt (block page : Nat) : Nat := CONFIG_BASE_ADDR + block * BLOCK_SIZE + page * PAGE_SIZE

/-! ## Search -/

/-- The body of the loop of `search` for a page that was read. -/
def searchPage (index : Nat → Option Nat) (i : Nat) (pt : Buffer) : Nat → Option Nat :=
  if pt 0 ≠ 0x24 then index
  else
    -- a keyword that was found before is not looked for
    match (List.range keyNum).find? fun indexi => (index indexi).isNone && hasKeyword indexi pt with
    | none => index
    | some indexi =>
      let len := recordLen pt
      if PAGE_SIZE < len then index
      else if lrcOf (fun j => pt (KEYWORD_LEN + 2 + j)) len = pt (KEYWORD_LEN + 2 + len) then
        Function.update index indexi (some i)
      else index

/-- The body of the loop of `search`. -/
def searchRead (index : Nat → Option Nat) (i : Nat) (read : Int × Option Buffer) :
    Nat → Option Nat :=
  if read.1 ≠ 0 then index else searchPage index i (read.2.getD zeros)

/-- `search`, from the last page to the first. -/
def search (state : δ) (block : Nat) (index : Nat → Option Nat) : Nat → Option Nat :=
  (List.range CONFIG_PAGE_NUM).reverse.foldl
    (fun index i => searchRead index i (cfgNandRead chip state (pageAt block i))) index

/-- Whether a page was read and starts with `$`. -/
def isUsed (read : Int × Option Buffer) : Bool :=
  read.1 = 0 && (read.2.getD chip.stackBuf) 0 = 0x24

/-- `search_blank_page`: the page behind the last one that is used. -/
def searchBlankPage (state : δ) (block : Nat) : Nat :=
  ((List.range CONFIG_PAGE_NUM).reverse.find? fun i =>
    isUsed chip (cfgNandRead chip state (pageAt block i))).elim 0 (· + 1)

/-- The variables of `Search_Keyword`, with `config_store_buff` by its pages. -/
structure Keywords where
  tmpbuf : Nat → Buffer
  index : Nat → Option Nat
  store : Nat → Buffer
  num : Nat

/-- A record was read from block `i` into its buffer. -/
def keepCopy (copies : (Nat → Buffer) × Nat) (i : Nat) (read : Int × Option Buffer) :
    (Nat → Buffer) × Nat :=
  let tmpbuf := Function.update copies.1 i (read.2.getD (copies.1 i))
  if read.1 ≠ 0 then (tmpbuf, copies.2) else (tmpbuf, copies.2 + 1)

/-- The newest record of a keyword is read from a block. A block without one leaves what the
buffer held. -/
def readCopy (state : δ) (indexTmp : Nat → Option Nat) (indexi : Nat)
    (copies : (Nat → Buffer) × Nat) (i : Nat) : (Nat → Buffer) × Nat :=
  match indexTmp indexi with
  | none => copies
  | some page => keepCopy copies i (cfgNandRead chip state (pageAt i page))

/-- The vote over one byte. -/
def vote (b0 b1 b2 : Byte) : Byte :=
  if b0 = b1 then b0 else if b0 = b2 then b0 else if b1 = b2 then b1 else b0 ||| b1

/-- The vote over the three arrays. -/
def voteAll (tmpbuf : Nat → Buffer) : Buffer := fun i => vote (tmpbuf 0 i) (tmpbuf 1 i) (tmpbuf 2 i)

/-- The copies of a keyword were read: two are enough. -/
def mergeCopies (found : Keywords) (indexi : Nat) (copies : (Nat → Buffer) × Nat) : Keywords :=
  if copies.2 < 2 then { found with tmpbuf := copies.1 }
  else
    let merged := voteAll copies.1
    { tmpbuf := Function.update copies.1 0 merged
      index := Function.update found.index indexi (some found.num)
      store := Function.update found.store found.num merged
      num := found.num + 1 }

/-- The body of the second loop of `Search_Keyword`. -/
def mergeKeyword (state : δ) (indexTmp : Nat → Nat → Option Nat) (found : Keywords)
    (indexi : Nat) : Keywords :=
  mergeCopies found indexi ((List.range CONFIG_BLOCK_NUM).foldl
    (fun copies i => readCopy chip state (indexTmp i) indexi copies i) (found.tmpbuf, 0))

/-- `Search_Keyword`. -/
def searchKeyword (state : δ) : Keywords :=
  let indexTmp := fun i => search chip state i fun _ => none
  (List.range keyNum).foldl (mergeKeyword chip state indexTmp)
    { tmpbuf := fun _ => pageArray chip zeros, index := fun _ => none, store := fun _ => zeros,
      num := 0 }

/-! ## Reading -/

/-- `ReadTerminalInfo`: an error, or the bytes it copies to `context`. -/
def readTerminalInfo (state : δ) (id len : Nat) : Except Int (List Byte) :=
  if keyNum ≤ id ∨ len < 1 then .error (-1)
  else
    let found := searchKeyword chip state
    if found.num = 0 then .error (-2)
    else
      match found.index id with
      | none => .error (-3)
      | some page =>
        let tmpBuf := found.store page
        let len1 := recordLen tmpBuf
        let len1 := if len < len1 then len else len1
        .ok ((List.range len1).map fun i => tmpBuf (KEYWORD_LEN + 2 + i))

/-! ## Writing -/

/-- A record in a buffer. -/
def recordIn (buf : Buffer) (index : Nat) (context : List Byte) : Buffer :=
  let len := context.length
  let buf := memcpy buf 0 (listBuffer (keywordTable.getD index [])) 0 KEYWORD_LEN
  let buf := memcpy buf KEYWORD_LEN (listBuffer [BitVec.ofNat 8 len, BitVec.ofNat 8 (len / 256)]) 0 2
  let buf := memcpy buf (KEYWORD_LEN + 2) (listBuffer context) 0 len
  Function.update buf (KEYWORD_LEN + 2 + len) (lrcOf (listBuffer context) len)

/-- The loop that writes a buffer to the next page that takes it: the page, or
`CONFIG_PAGE_NUM` when `left` pages did not. -/
def writeFirst (block : Nat) (src : Buffer) : (left page : Nat) → δ → Nat × δ
  | 0, page, state => (page, state)
  | left + 1, page, state =>
    let written := cfgNandWrite chip state (pageAt block page) src
    if written.1 = 0 then (page, written.2) else writeFirst block src left (page + 1) written.2

/-- The loop of `WriteToFlash`. -/
def appendToBlocks (src : Buffer) : List Nat → (failedFlag : Nat) → δ → Int × δ
  | [], failedFlag, state => if 1 < failedFlag then (-3, state) else (0, state)
  | i :: rest, failedFlag, state =>
    let blankPage := searchBlankPage chip state i
    if blankPage = CONFIG_PAGE_NUM then (-3, state)
    else
      let written := writeFirst chip i src (CONFIG_PAGE_NUM - blankPage) blankPage state
      appendToBlocks src rest (if written.1 = CONFIG_PAGE_NUM then failedFlag + 1 else failedFlag)
        written.2

/-- `WriteToFlash`. -/
def writeToFlash (state : δ) (index : Nat) (context : List Byte) : Int × δ :=
  if keyNum ≤ index then (-1, state)
  else if PAGE_SIZE < KEYWORD_LEN + 2 + context.length + 1 then (-2, state)
  else
    appendToBlocks chip (recordIn chip.stackBuf index context) (List.range CONFIG_BLOCK_NUM) 0 state

/-- A record of `config_store_buff` is written to a block that is rewritten. -/
def copyRecord (found : Keywords) (index block : Nat) (written : Nat × δ) (i : Nat) : Nat × δ :=
  match found.index i with
  | none => written
  | some page =>
    if i = index then written
    else
      let copied := writeFirst chip block (memcpy zeros 0 (found.store page) 0 PAGE_SIZE)
        (CONFIG_PAGE_NUM - written.1) written.1 written.2
      (if copied.1 = CONFIG_PAGE_NUM then copied.1 else copied.1 + 1, copied.2)

/-- The body of the loop of `WriteTerminalInfo` that erases a block and writes it anew. -/
def rewriteBlock (found : Keywords) (index : Nat) (context : List Byte) (failed : Nat × δ)
    (block : Nat) : Nat × δ :=
  let state := cfgNandErase chip failed.2 (CONFIG_BASE_ADDR / BLOCK_SIZE + block)
  let copied := (List.range MAX_INDEX).foldl (copyRecord chip found index block) (0, state)
  let written := writeFirst chip block (recordIn zeros index context) (CONFIG_PAGE_NUM - copied.1)
    copied.1 copied.2
  (if written.1 = CONFIG_PAGE_NUM then failed.1 + 1 else failed.1, written.2)

/-- The blocks are erased when no keyword was found. -/
def eraseIfEmpty (state : δ) (found : Keywords) : δ :=
  if found.num = 0 then
    (List.range CONFIG_BLOCK_NUM).foldl
      (fun state j => cfgNandErase chip state (CONFIG_BASE_ADDR / BLOCK_SIZE + j)) state
  else state

/-- Whether the record of a keyword has this content. -/
def isLatest (found : Keywords) (index : Nat) (context : List Byte) : Bool :=
  match found.index index with
  | none => false
  | some page =>
    recordLen (found.store page) = context.length &&
      sameBytes (fun i => found.store page (KEYWORD_LEN + 2 + i)) (listBuffer context)
        context.length

/-- The blocks are written anew, one after the other. -/
def rewriteBlocks (state : δ) (index : Nat) (context : List Byte) : Int × δ :=
  let found := searchKeyword chip state
  let rewritten := (List.range CONFIG_BLOCK_NUM).foldl (rewriteBlock chip found index context)
    (0, state)
  (if 1 < rewritten.1 then -4 else 0, rewritten.2)

/-- `WriteTerminalInfo`. -/
def writeTerminalInfo (state : δ) (index : Nat) (context : List Byte) : Int × δ :=
  let found := searchKeyword chip state
  let state := eraseIfEmpty chip state found
  if isLatest found index context then (0, state)
  else
    let appended := writeToFlash chip state index context
    if appended.1 ≠ -3 then appended else rewriteBlocks chip appended.2 index context

end PosFirmware.Config
