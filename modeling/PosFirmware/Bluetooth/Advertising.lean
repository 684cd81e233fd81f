import PosFirmware.Bluetooth.Inquiry
import PosFirmware.Foundation.Strings
import Mathlib.Data.List.TakeDrop

/-! # Advertised names

The name that `handle_advertising_event` of `bt_init.c` stores for an LE device, with the iterator
of `ad_parser.c` it walks through the advertising data with. `name_stored_iff` says which reports
are read inside their data and have their own name stored.
-/

namespace PosFirmware.Bluetooth.Scan

open Foundation

def LE_MAX_DEVICES : Nat := 16
def LE_MAX_NAME_LEN : Nat := 14

def BLUETOOTH_DATA_TYPE_SHORTENED_LOCAL_NAME : Byte := 0x08
def BLUETOOTH_DATA_TYPE_COMPLETE_LOCAL_NAME : Byte := 0x09

/-- `Unknown Device`. -/
def dataDefault : List Byte :=
  [0x55, 0x6e, 0x6b, 0x6e, 0x6f, 0x77, 0x6e, 0x20, 0x44, 0x65, 0x76, 0x69, 0x63, 0x65]

/-- `struct le_device`, with the memory from its name on. -/
structure LeDevice where
  address : List Byte
  name : Nat → Byte

/-- The devices that were found, and which of `gap_stop_scan` and `le_set_inquiry_complete` were
called. -/
structure LeScan where
  leDevices : Nat → LeDevice
  leDeviceInfoLocal : Nat → List Byte
  leDeviceCount : Nat
  gBleScanSize : Int
  gBleTimeout : BitVec 32
  gScanTimeT1 : BitVec 32
  stopped : Bool
  inquiryComplete : Bool

def byteAt (mem : List Byte) (p : Nat) : Byte := mem.getD p 0

def strcpy (dest : Nat → Byte) (string : List Byte) (i : Nat) : Byte :=
  if i ≤ string.length then string.getD i 0 else dest i

/-! ## The advertising data -/

def adIteratorHasMore (length offset : Nat) : Prop := offset < length

instance (length offset : Nat) : Decidable (adIteratorHasMore length offset) :=
  inferInstanceAs (Decidable (offset < length))

def adIteratorNext (data : List Byte) (offset : Nat) : Nat :=
  min (offset + 1 + (byteAt data offset).toNat) 0xff

def adIteratorGetDataType (data : List Byte) (offset : Nat) : Byte := byteAt data (offset + 1)

/-- The memory from the data of a structure on. -/
def adIteratorGetData (data : List Byte) (offset : Nat) : List Byte := data.drop (offset + 2)

def isLocalName (data_type : Byte) : Prop :=
  data_type = BLUETOOTH_DATA_TYPE_SHORTENED_LOCAL_NAME ∨
    data_type = BLUETOOTH_DATA_TYPE_COMPLETE_LOCAL_NAME

instance (data_type : Byte) : Decidable (isLocalName data_type) :=
  inferInstanceAs (Decidable (_ ∨ _))

/-- Which bytes of the data a walk read, which strings it copied to the name and from which
structures, and whether it came to its end. -/
structure AdWalk where
  reads : List Nat
  copied : List (Nat × List Byte)
  ended : Bool

/-- The string in a structure is read to its end for the log, whatever the type is. -/
def AdWalk.before (walk : AdWalk) (data : List Byte) (offset : Nat) : AdWalk :=
  { walk with
    reads := offset :: (offset + 1) ::
      List.range' (offset + 2) ((stringOf 0 (adIteratorGetData data offset)).length + 1) ++
        walk.reads
    copied := if isLocalName (adIteratorGetDataType data offset) then
        (offset, stringOf 0 (adIteratorGetData data offset)) :: walk.copied
      else walk.copied }

/-- The loop over the structures; a string that does not end in the memory is never left. -/
def adLoop (data : List Byte) (length : Nat) : Nat → Nat → AdWalk
  | 0, offset => ⟨[], [], decide ¬adIteratorHasMore length offset⟩
  | turns + 1, offset =>
      if adIteratorHasMore length offset then
        if 0 ∈ adIteratorGetData data offset then
          (adLoop data length turns (adIteratorNext data offset)).before data offset
        else ⟨offset :: (offset + 1) :: List.range' (offset + 2) (data.length - offset), [], false⟩
      else ⟨[], [], true⟩

/-! ## The event -/

def reportAddress (packet : List Byte) : List Byte :=
  ((List.range 6).map fun i => byteAt packet (4 + i)).reverse

/-- `leGetDeviceIndexForAddress`. -/
def LeScan.leGetDeviceIndexForAddress (s : LeScan) (addr : List Byte) : Option Nat :=
  (List.range s.leDeviceCount).find? fun j => (s.leDevices j).address = addr

/-- The scan is stopped after its time. -/
def LeScan.timed (s : LeScan) (gScanTimeT2 : BitVec 32) : LeScan :=
  if s.gBleTimeout * 1000 < gScanTimeT2 - s.gScanTimeT1 then
    { s with stopped := true, inquiryComplete := true }
  else s

/-- A new entry, to whose name some strings were copied one after the other. -/
def LeScan.add (s : LeScan) (addr : List Byte) (copied : List (List Byte)) : LeScan :=
  { s with
    leDevices := Function.update s.leDevices s.leDeviceCount
      ⟨addr, copied.foldl strcpy (s.leDevices s.leDeviceCount).name⟩
    leDeviceInfoLocal := Function.update s.leDeviceInfoLocal s.leDeviceCount addr
    leDeviceCount := s.leDeviceCount + 1 }

/-- The devices after an event, which bytes of the packet were read, and the strings that were
copied to the name; the default name comes from no structure. -/
structure Advertised where
  after : LeScan
  reads : List Nat
  copied : List (Option Nat × List Byte)
  ended : Bool

def namesOf (walk : AdWalk) : List (Option Nat × List Byte) :=
  if walk.copied = [] then [(none, dataDefault)]
  else walk.copied.map fun copy => (some copy.1, copy.2)

/-- `handle_advertising_event` on a packet at the beginning of a memory. -/
def handleAdvertisingEvent (packet : List Byte) (gScanTimeT2 : BitVec 32) (s : LeScan) :
    Advertised :=
  if LE_MAX_DEVICES ≤ s.leDeviceCount then ⟨s, [], [], true⟩
  else if s.gBleScanSize ≤ s.leDeviceCount then ⟨{ s with stopped := true }, [], [], true⟩
  else if (s.leGetDeviceIndexForAddress (reportAddress packet)).isSome then
    ⟨s.timed gScanTimeT2, List.range' 4 6, [], true⟩
  else
    let walk := adLoop (packet.drop 12) (byteAt packet 11).toNat 256 0
    ⟨(s.timed gScanTimeT2).add (reportAddress packet) ((namesOf walk).map Prod.snd),
      List.range' 3 7 ++ 11 :: walk.reads.map (12 + ·), namesOf walk, walk.ended⟩

/-! ## What is to be stored -/

/-- The data that the report has. -/
def advData (packet : List Byte) (size : Nat) : List Byte :=
  (packet.drop 12).take (min (byteAt packet 11).toNat (size - 12))

/-- Where the structures begin that lie before the announced length. -/
def structures (adv : List Byte) (length : Nat) : Nat → Nat → List Nat
  | 0, _ => []
  | turns + 1, offset =>
      if offset < length then
        offset :: structures adv length turns (offset + 1 + (byteAt adv offset).toNat)
      else []

/-- Those whose type is one of a local name. -/
def names (adv : List Byte) (length : Nat) : List Nat :=
  (structures adv length 256 0).filter fun offset => isLocalName (adIteratorGetDataType adv offset)

/-- The last local name; a structure without a type has none. -/
def localName (adv : List Byte) (length : Nat) : Option Nat :=
  ((names adv length).filter fun offset => byteAt adv offset ≠ 0).getLast?

/-- The name in a structure, cut to the field, or the default name. -/
def ownName (adv : List Byte) : Option Nat → List Byte
  | none => dataDefault
  | some offset => (stringOf 0 ((adIteratorGetData adv offset).take
      ((byteAt adv offset).toNat - 1))).take (LE_MAX_NAME_LEN - 1)

/-- A string and the zero behind it. -/
def Stored (name : Nat → Byte) (string : List Byte) : Prop :=
  ∀ i ≤ string.length, name i = string.getD i 0

/-- A report adds a device if there is room for it and it is new. -/
def LeScan.Takes (s : LeScan) (packet : List Byte) : Prop :=
  s.leDeviceCount < LE_MAX_DEVICES ∧ (s.leDeviceCount : Int) < s.gBleScanSize ∧
    s.leGetDeviceIndexForAddress (reportAddress packet) = none

/-- A report is read inside its data, a name is written inside the new entry, which is the only
one that changes, and the name is the one of the report. -/
structure StoresName (packet : List Byte) (size room : Nat) (s : LeScan) (out : Advertised) :
    Prop where
  ended : out.ended = true
  inside : ∀ p ∈ out.reads, p < size ∧ p < 12 + (byteAt packet 11).toNat
  written : ∀ copy ∈ out.copied, copy.2.length < room
  others : ∀ i, i ≠ s.leDeviceCount → out.after.leDevices i = s.leDevices i ∧
    out.after.leDeviceInfoLocal i = s.leDeviceInfoLocal i
  skipped : ¬s.Takes packet →
    out.after.leDevices = s.leDevices ∧ out.after.leDeviceCount = s.leDeviceCount
  entry : s.Takes packet → out.after.leDeviceCount = s.leDeviceCount + 1 ∧
    (out.after.leDevices s.leDeviceCount).address = reportAddress packet
  source : s.Takes packet → out.copied.getLast?.map Prod.fst =
    some (localName (advData packet size) (byteAt packet 11).toNat)
  stored : s.Takes packet → Stored (out.after.leDevices s.leDeviceCount).name
    (ownName (advData packet size) (localName (advData packet size) (byteAt packet 11).toNat))

/-- The string in the last name ends inside its structure and the field. -/
def LastFits (adv : List Byte) (room : Nat) : Option Nat → Prop
  | none => dataDefault.length < room
  | some offset => (stringOf 0 (adIteratorGetData adv offset)).length < (byteAt adv offset).toNat ∧
      (stringOf 0 (adIteratorGetData adv offset)).length < LE_MAX_NAME_LEN

/-- There is a zero in the data behind each structure, the names have room in the entry, and the
last one is its structure's. -/
structure NameFits (adv : List Byte) (length room : Nat) : Prop where
  terminated : ∀ offset ∈ structures adv length 256 0, 0 ∈ adIteratorGetData adv offset
  hasRoom : ∀ offset ∈ names adv length, (stringOf 0 (adIteratorGetData adv offset)).length < room
  last : LastFits adv room (names adv length).getLast?

variable {data adv : List Byte} {length offset turns : Nat} {string : List Byte}
  {dest : Nat → Byte} {walk : AdWalk}

/-! ## The walk -/

theorem adLoop_end (last : length ≤ offset) : adLoop data length turns offset = ⟨[], [], true⟩ := by
  have no : ¬adIteratorHasMore length offset := Nat.not_lt.mpr last
  cases turns with
  | zero => rw [adLoop, decide_eq_true no]
  | succ turns => rw [adLoop, if_neg no]

theorem structures_end (last : length ≤ offset) : structures adv length turns offset = [] := by
  cases turns with
  | zero => rfl
  | succ turns => rw [structures, if_neg (Nat.not_lt.mpr last)]

theorem getData_take (count : Nat) : adIteratorGetData (data.take count) offset =
    (adIteratorGetData data offset).take (count - (offset + 2)) := List.drop_take

theorem structure_read {count : Nat} (here : 0 ∈ adIteratorGetData (data.take count) offset) :
    0 ∈ adIteratorGetData data offset ∧
      offset + 2 + (stringOf 0 (adIteratorGetData data offset)).length < count ∧
      stringOf 0 (adIteratorGetData (data.take count) offset) =
        stringOf 0 (adIteratorGetData data offset) ∧
      byteAt (data.take count) offset = byteAt data offset ∧
      byteAt (data.take count) (offset + 1) = byteAt data (offset + 1) := by
  rw [getData_take] at here ⊢
  obtain ⟨whole, short⟩ := stop_mem_take_iff.mp here
  have byte : ∀ p < count, byteAt (data.take count) p = byteAt data p := fun p below => by
    rw [byteAt, byteAt, List.getD_eq_getElem?_getD, List.getD_eq_getElem?_getD,
      List.getElem?_take_of_lt below]
  refine ⟨whole, by omega, ?_, byte _ (by omega), byte _ (by omega)⟩
  rw [stringOf_take, List.take_of_length_le (Nat.le_of_lt short)]

theorem before_inside {count : Nat} : (∀ p ∈ (walk.before data offset).reads, p < count) ↔
    offset + 2 + (stringOf 0 (adIteratorGetData data offset)).length < count ∧
      ∀ p ∈ walk.reads, p < count := by
  rw [AdWalk.before, List.cons_append, List.cons_append, List.forall_mem_cons,
    List.forall_mem_cons, List.forall_mem_append]
  constructor
  · rintro ⟨-, -, string, rest⟩
    exact ⟨string _ (List.mem_range'_1.mpr ⟨Nat.le_add_right _ _, Nat.lt_succ_self _⟩), rest⟩
  · rintro ⟨last, rest⟩
    refine ⟨by omega, by omega, fun p member => ?_, rest⟩
    have := List.mem_range'_1.mp member
    omega

theorem structures_next {count : Nat} (small : length ≤ 0xff) (more : offset < length)
    (here : 0 ∈ adIteratorGetData (data.take count) offset) :
    structures (data.take count) length (turns + 1) offset =
      offset :: structures (data.take count) length turns (adIteratorNext data offset) := by
  rw [structures, if_pos more, (structure_read here).2.2.2.1, adIteratorNext]
  rcases Nat.le_total (offset + 1 + (byteAt data offset).toNat) 0xff with within | beyond
  · rw [Nat.min_eq_left within]
  · rw [Nat.min_eq_right beyond, structures_end (Nat.le_trans small beyond), structures_end small]

theorem adLoop_next (more : offset < length) (here : 0 ∈ adIteratorGetData data offset) :
    adLoop data length (turns + 1) offset =
      (adLoop data length turns (adIteratorNext data offset)).before data offset := by
  rw [adLoop, if_pos (show adIteratorHasMore length offset from more), if_pos here]

theorem next_enough (small : length ≤ 0xff) (enough : length ≤ offset + (turns + 1)) :
    length ≤ adIteratorNext data offset + turns := by
  unfold adIteratorNext
  omega

/-- A walk stays inside the data if there is a zero behind each structure, and copies the
strings in the names. -/
theorem adLoop_terminated {count : Nat} (small : length ≤ 0xff) (enough : length ≤ offset + turns)
    (terminated : ∀ o ∈ structures (data.take count) length turns offset,
      0 ∈ adIteratorGetData (data.take count) o) :
    (adLoop data length turns offset).ended = true ∧
      (∀ p ∈ (adLoop data length turns offset).reads, p < count) ∧
      (adLoop data length turns offset).copied =
        ((structures (data.take count) length turns offset).filter fun o =>
          isLocalName (adIteratorGetDataType (data.take count) o)).map fun o =>
            (o, stringOf 0 (adIteratorGetData (data.take count) o)) := by
  induction turns generalizing offset with
  | zero =>
      rw [Nat.add_zero] at enough
      rw [adLoop_end enough, structures_end enough]
      exact ⟨rfl, fun p member => absurd member List.not_mem_nil, rfl⟩
  | succ turns ih =>
      rcases Nat.lt_or_ge offset length with more | last
      · have here : 0 ∈ adIteratorGetData (data.take count) offset := by
          apply terminated
          rw [structures, if_pos more]
          exact List.mem_cons_self
        obtain ⟨whole, short, same, -, type⟩ := structure_read here
        rw [structures_next small more here] at terminated ⊢
        obtain ⟨ended, inside, copied⟩ := ih (next_enough small enough)
          fun o member => terminated o (List.mem_cons_of_mem _ member)
        rw [adLoop_next more whole]
        refine ⟨ended, before_inside.mpr ⟨short, inside⟩, ?_⟩
        have sameType : adIteratorGetDataType (data.take count) offset =
            adIteratorGetDataType data offset := type
        rw [List.filter_cons, sameType, AdWalk.before, copied]
        by_cases name : isLocalName (adIteratorGetDataType data offset)
        · rw [if_pos name, if_pos (decide_eq_true name), List.map_cons, same]
        · rw [if_neg name, if_neg (by rwa [decide_eq_true_iff])]
      · rw [adLoop_end last, structures_end last]
        exact ⟨rfl, fun p member => absurd member List.not_mem_nil, rfl⟩

theorem terminated_of_inside {count : Nat} (small : length ≤ 0xff)
    (ended : (adLoop data length turns offset).ended = true)
    (inside : ∀ p ∈ (adLoop data length turns offset).reads, p < count) :
    ∀ o ∈ structures (data.take count) length turns offset,
      0 ∈ adIteratorGetData (data.take count) o := by
  induction turns generalizing offset with
  | zero => exact fun o member => absurd member List.not_mem_nil
  | succ turns ih =>
      rcases Nat.lt_or_ge offset length with more | last
      · by_cases whole : 0 ∈ adIteratorGetData data offset
        · rw [adLoop_next more whole] at ended inside
          obtain ⟨short, rest⟩ := before_inside.mp inside
          have here : 0 ∈ adIteratorGetData (data.take count) offset := by
            rw [getData_take]
            exact stop_mem_take_iff.mpr ⟨whole, by omega⟩
          rw [structures_next small more here]
          exact List.forall_mem_cons.mpr ⟨here, ih ended rest⟩
        · rw [adLoop, if_pos (show adIteratorHasMore length offset from more), if_neg whole]
            at ended
          exact absurd ended Bool.false_ne_true
      · rw [structures_end last]
        exact fun o member => absurd member List.not_mem_nil

/-! ## The name -/

theorem stored_strcpy (free : 0 ∉ string) {own : List Byte} (ownFree : 0 ∉ own) :
    Stored (strcpy dest string) own ↔ own = string := by
  have byte : ∀ {l : List Byte} {i : Nat} (below : i < l.length), l.getD i 0 = l.get ⟨i, below⟩ :=
    fun below => List.getD_eq_getElem _ _ below
  have zero : ∀ l : List Byte, l.getD l.length 0 = 0 := fun l =>
    List.getD_eq_default _ _ (Nat.le_refl _)
  constructor
  · intro stored
    have same : own.length = string.length := by
      rcases Nat.lt_trichotomy own.length string.length with short | same | long
      · have ends := stored own.length (Nat.le_refl _)
        rw [strcpy, if_pos (Nat.le_of_lt short), zero, byte short] at ends
        exact absurd (ends ▸ List.get_mem string _) free
      · exact same
      · have ends := stored string.length (Nat.le_of_lt long)
        rw [strcpy, if_pos (Nat.le_refl _), zero, byte long] at ends
        exact absurd (ends.symm ▸ List.get_mem own _) ownFree
    refine List.ext_get same fun i below below' => ?_
    have copied := stored i (Nat.le_of_lt below)
    rw [strcpy, if_pos (Nat.le_of_lt below'), byte below, byte below'] at copied
    exact copied.symm
  · rintro rfl i within
    rw [strcpy, if_pos within]

theorem default_free : (0 : Byte) ∉ dataDefault := by decide

theorem ownName_free (own : Option Nat) : 0 ∉ ownName adv own := by
  cases own with
  | none => exact default_free
  | some offset => exact fun member => stop_not_mem_stringOf _ (List.mem_of_mem_take member)

theorem own_iff {front : List Nat} {room : Nat} (all : names adv length = front ++ [offset]) :
    (some offset = localName adv length ∧
        ownName adv (localName adv length) = stringOf 0 (adIteratorGetData adv offset)) ↔
      LastFits adv room (some offset) := by
  rw [localName, all, List.filter_append, LastFits]
  by_cases none : byteAt adv offset = 0
  · rw [List.filter_singleton, none]
    refine iff_of_false (fun own => ?_) fun fits => absurd fits.1 (Nat.not_lt_zero _)
    have member := List.mem_of_getLast? own.1.symm
    rw [decide_eq_false (not_not_intro rfl), cond_false, List.append_nil] at member
    exact absurd none (of_decide_eq_true (List.mem_filter.mp member).2)
  · have positive : (byteAt adv offset).toNat ≠ 0 := fun zero =>
      none (BitVec.eq_of_toNat_eq zero)
    rw [List.filter_singleton, decide_eq_true none, cond_true, List.getLast?_concat,
      and_iff_right rfl, ownName, stringOf_take, List.take_take, List.take_eq_self_iff,
      LE_MAX_NAME_LEN]
    omega

theorem namesOf_iff (dest : Nat → Byte) {room : Nat} (copied : walk.copied =
      (names adv length).map fun o => (o, stringOf 0 (adIteratorGetData adv o))) :
    ((∀ copy ∈ namesOf walk, copy.2.length < room) ∧
        (namesOf walk).getLast?.map Prod.fst = some (localName adv length) ∧
        Stored (((namesOf walk).map Prod.snd).foldl strcpy dest)
          (ownName adv (localName adv length))) ↔
      (∀ offset ∈ names adv length, (stringOf 0 (adIteratorGetData adv offset)).length < room) ∧
        LastFits adv room (names adv length).getLast? := by
  rcases List.eq_nil_or_concat' (names adv length) with empty | ⟨front, offset, all⟩
  · have noName : localName adv length = none := by
      rw [localName, empty]
      rfl
    have default : namesOf walk = [(none, dataDefault)] := by
      rw [namesOf, copied, empty, List.map_nil, if_pos rfl]
    rw [empty, default, noName]
    constructor
    · rintro ⟨written, -, -⟩
      exact ⟨fun o member => absurd member List.not_mem_nil, written _ List.mem_cons_self⟩
    · rintro ⟨-, wide⟩
      refine ⟨fun copy member => ?_, rfl, (stored_strcpy default_free default_free).mpr rfl⟩
      obtain rfl := List.mem_singleton.mp member
      exact wide
  · have copies : namesOf walk = (names adv length).map fun o =>
        (some o, stringOf 0 (adIteratorGetData adv o)) := by
      rw [namesOf, copied, if_neg, List.map_map]
      · rfl
      · rw [all, List.map_append]
        exact List.append_ne_nil_of_right_ne_nil _ (List.cons_ne_nil _ _)
    have strings : ((namesOf walk).map Prod.snd).foldl strcpy dest =
        strcpy ((front.map fun o => stringOf 0 (adIteratorGetData adv o)).foldl strcpy dest)
          (stringOf 0 (adIteratorGetData adv offset)) := by
      rw [copies, List.map_map, all, List.map_append, List.foldl_append]
      rfl
    have last : (namesOf walk).getLast?.map Prod.fst = some (some offset) := by
      rw [copies, all, List.map_append, List.map_singleton, List.getLast?_concat]
      rfl
    have written : (∀ copy ∈ namesOf walk, copy.2.length < room) ↔
        ∀ o ∈ names adv length, (stringOf 0 (adIteratorGetData adv o)).length < room := by
      rw [copies]
      exact List.forall_mem_map
    rw [strings, last, written, Option.some_inj,
      stored_strcpy (stop_not_mem_stringOf _) (ownName_free _), own_iff all, all,
      List.getLast?_concat]

/-! ## The report -/

section

variable {packet : List Byte} {size room : Nat} {s : LeScan} {gScanTimeT2 : BitVec 32}

theorem timed_devices (s : LeScan) (gScanTimeT2 : BitVec 32) :
    (s.timed gScanTimeT2).leDevices = s.leDevices ∧
    (s.timed gScanTimeT2).leDeviceInfoLocal = s.leDeviceInfoLocal ∧
    (s.timed gScanTimeT2).leDeviceCount = s.leDeviceCount := by
  rw [LeScan.timed]
  split
  · exact ⟨rfl, rfl, rfl⟩
  · exact ⟨rfl, rfl, rfl⟩

theorem storesName_skipped {after : LeScan} {reads : List Nat} (skipped : ¬s.Takes packet)
    (devices : after.leDevices = s.leDevices)
    (info : after.leDeviceInfoLocal = s.leDeviceInfoLocal)
    (count : after.leDeviceCount = s.leDeviceCount) :
    StoresName packet size room s ⟨after, reads, [], true⟩ ↔
      ∀ p ∈ reads, p < size ∧ p < 12 + (byteAt packet 11).toNat := by
  refine ⟨fun stores => stores.inside, fun inside => ⟨rfl, inside, ?_, ?_, ?_, ?_, ?_, ?_⟩⟩
  · exact fun copy member => absurd member List.not_mem_nil
  · exact fun i _ => ⟨congrFun devices i, congrFun info i⟩
  · exact fun _ => ⟨devices, count⟩
  · exact fun takes => absurd takes skipped
  · exact fun takes => absurd takes skipped
  · exact fun takes => absurd takes skipped

theorem address_inside : (∀ p ∈ List.range' 4 6, p < size ∧ p < 12 + (byteAt packet 11).toNat) ↔
    10 ≤ size := by
  constructor
  · exact fun inside => (inside 9 (by decide)).1
  · intro whole p member
    have := List.mem_range'_1.mp member
    omega

theorem report_inside {reads : List Nat} :
    (∀ p ∈ List.range' 3 7 ++ 11 :: reads.map (12 + ·),
        p < size ∧ p < 12 + (byteAt packet 11).toNat) ↔
      12 ≤ size ∧ ∀ p ∈ reads, p < min (byteAt packet 11).toNat (size - 12) := by
  rw [List.forall_mem_append, List.forall_mem_cons, List.forall_mem_map]
  constructor
  · rintro ⟨-, ⟨header, -⟩, data⟩
    refine ⟨header, fun p member => ?_⟩
    have := data p member
    omega
  · rintro ⟨header, data⟩
    refine ⟨fun p member => ?_, by omega, fun p member => ?_⟩
    · have := List.mem_range'_1.mp member
      omega
    · have := data p member
      omega

theorem storesName_taken (takes : s.Takes packet) :
    StoresName packet size room s
        ⟨(s.timed gScanTimeT2).add (reportAddress packet)
          ((namesOf (adLoop (packet.drop 12) (byteAt packet 11).toNat 256 0)).map Prod.snd),
        List.range' 3 7 ++
          11 :: (adLoop (packet.drop 12) (byteAt packet 11).toNat 256 0).reads.map (12 + ·),
        namesOf (adLoop (packet.drop 12) (byteAt packet 11).toNat 256 0),
        (adLoop (packet.drop 12) (byteAt packet 11).toNat 256 0).ended⟩ ↔
      12 ≤ size ∧ NameFits (advData packet size) (byteAt packet 11).toNat room := by
  have small : (byteAt packet 11).toNat ≤ 0xff := Nat.le_of_lt_succ (byteAt packet 11).isLt
  have enough : (byteAt packet 11).toNat ≤ 0 + 256 := by omega
  obtain ⟨devices, info, count⟩ := timed_devices s gScanTimeT2
  have entry : ∀ strings, ((s.timed gScanTimeT2).add (reportAddress packet) strings).leDevices
      s.leDeviceCount = ⟨reportAddress packet, strings.foldl strcpy
        (s.leDevices s.leDeviceCount).name⟩ := fun strings => by
    rw [LeScan.add, devices, count]
    exact Function.update_self _ _ _
  constructor
  · rintro ⟨ended, inside, written, -, -, -, source, stored⟩
    obtain ⟨header, data⟩ := report_inside.mp inside
    have terminated := terminated_of_inside small ended data
    obtain ⟨-, -, copied⟩ := adLoop_terminated small enough terminated
    have stored := stored takes
    rw [entry] at stored
    obtain ⟨hasRoom, last⟩ := (namesOf_iff _ copied).mp ⟨written, source takes, stored⟩
    exact ⟨header, terminated, hasRoom, last⟩
  · rintro ⟨header, terminated, hasRoom, last⟩
    obtain ⟨ended, data, copied⟩ := adLoop_terminated small enough terminated
    obtain ⟨written, source, stored⟩ := (namesOf_iff
      (s.leDevices s.leDeviceCount).name copied).mpr ⟨hasRoom, last⟩
    refine ⟨ended, report_inside.mpr ⟨header, data⟩, written, fun i other => ?_, ?_, ?_, ?_, ?_⟩
    · rw [LeScan.add, devices, info, count]
      exact ⟨Function.update_of_ne other _ _, Function.update_of_ne other _ _⟩
    · exact fun skipped => absurd takes skipped
    · exact fun _ => ⟨congrArg (· + 1) count, congrArg LeDevice.address (entry _)⟩
    · exact fun _ => source
    · intro _
      rw [entry]
      exact stored

end

/-- **Advertised names.** A report is read inside its data and its own name is stored inside the
entry exactly if it adds no device, or its strings end inside its data, its names have room and the
last one fits its structure and the field. -/
theorem name_stored_iff (packet : List Byte) (size room : Nat) (gScanTimeT2 : BitVec 32)
    (s : LeScan) :
    StoresName packet size room s (handleAdvertisingEvent packet gScanTimeT2 s) ↔
      LE_MAX_DEVICES ≤ s.leDeviceCount ∨ s.gBleScanSize ≤ s.leDeviceCount ∨
        10 ≤ size ∧ (s.leGetDeviceIndexForAddress (reportAddress packet)).isSome ∨
        12 ≤ size ∧ NameFits (advData packet size) (byteAt packet 11).toNat room := by
  rw [handleAdvertisingEvent]
  rcases Nat.lt_or_ge s.leDeviceCount LE_MAX_DEVICES with below | full
  · rw [if_neg (Nat.not_le.mpr below), or_iff_right (Nat.not_le.mpr below)]
    by_cases enough : s.gBleScanSize ≤ s.leDeviceCount
    · rw [if_pos enough]
      refine iff_of_true ?_ (.inl enough)
      have skipped : ¬s.Takes packet := fun takes => absurd enough (Int.not_le.mpr takes.2.1)
      apply (storesName_skipped skipped ?_ ?_ ?_).mpr
      · exact fun p member => absurd member List.not_mem_nil
      · rfl
      · rfl
      · rfl
    · rw [if_neg enough, or_iff_right enough]
      by_cases known : (s.leGetDeviceIndexForAddress (reportAddress packet)).isSome
      · obtain ⟨devices, info, count⟩ := timed_devices s gScanTimeT2
        rw [if_pos known, storesName_skipped _ devices info count, address_inside]
        · constructor
          · exact fun whole => .inl ⟨whole, known⟩
          · rintro (⟨whole, -⟩ | ⟨whole, -⟩)
            · exact whole
            · exact Nat.le_trans (by decide) whole
        · intro takes
          rw [takes.2.2] at known
          exact absurd known (by decide)
      · have new := Option.not_isSome_iff_eq_none.mp known
        rw [if_neg known, or_iff_right fun listed => absurd listed.2 known]
        exact storesName_taken ⟨below, Int.not_le.mp enough, new⟩
  · rw [if_pos full]
    refine iff_of_true ?_ (.inl full)
    have skipped : ¬s.Takes packet := fun takes => absurd full (Nat.not_le.mpr takes.1)
    apply (storesName_skipped skipped rfl rfl rfl).mpr
    exact fun p member => absurd member List.not_mem_nil

/-- A report of a device with the complete local name `Payment Terminal A920`; the memory behind it
ends in zeros. -/
def longName : List Byte :=
  [0xe2, 33, 0, 0, 1, 2, 3, 4, 5, 6, 0xc8, 23, 22, 0x09, 0x50, 0x61, 0x79, 0x6d, 0x65, 0x6e, 0x74,
    0x20, 0x54, 0x65, 0x72, 0x6d, 0x69, 0x6e, 0x61, 0x6c, 0x20, 0x41, 0x39, 0x32, 0x30, 0, 0]

def noneListed : LeScan :=
  ⟨fun _ => ⟨[], fun _ => 0⟩, fun _ => [], 0, 10, 60, 0, false, false⟩

/-- The name is copied without regard to the field and runs out of the entry. -/
theorem long_name_overflows : ¬StoresName longName 35 16 noneListed
    (handleAdvertisingEvent longName 1000 noneListed) := by
  intro stores
  exact absurd stores.written (by decide +kernel)

end PosFirmware.Bluetooth.Scan
