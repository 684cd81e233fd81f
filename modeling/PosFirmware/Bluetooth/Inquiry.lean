import Mathlib.Logic.Function.Basic
import Mathlib.Data.List.Basic

/-! # Inquiry results

The collection of the devices that answered an inquiry in `inquiry_packet_handler` of
`bt_init.c`. A walk through an event notes which bytes it reads and where it looks for an address.
`inquiry_collects_iff` says which events are collected right.
-/

namespace PosFirmware.Bluetooth.Scan

abbrev Byte := BitVec 8

def MAX_DEVICES : Nat := 16

def HCI_EVENT_INQUIRY_RESULT : Byte := 0x02
def HCI_EVENT_INQUIRY_RESULT_WITH_RSSI : Byte := 0x22

/-- What an event says of a device. -/
structure Response where
  address : List Byte
  clockOffset : BitVec 16
  classOfDevice : BitVec 32
  pageScanRepetitionMode : Byte
  rssi : Byte
  deriving DecidableEq

inductive DeviceState
  | remoteNameRequest
  | remoteNameInquired
  | remoteNameFetched

/-- `struct device`. -/
structure Device extends Response where
  name : List Byte
  state : DeviceState

/-- The devices that were found, and whether `gap_inquiry_stop` was called. -/
structure Inquiry where
  devices : Nat → Device
  deviceInfoLocal : Nat → Device
  deviceCount : Nat
  gScanSize : Int
  stopped : Bool

/-! ## The event -/

/-- `little_endian_read_16`. -/
def littleEndianRead16 (packet : Nat → Byte) (pos : Nat) : BitVec 16 :=
  (packet pos).zeroExtend 16 ||| (packet (pos + 1)).zeroExtend 16 <<< 8

/-- `little_endian_read_24`. -/
def littleEndianRead24 (packet : Nat → Byte) (pos : Nat) : BitVec 32 :=
  (packet pos).zeroExtend 32 ||| (packet (pos + 1)).zeroExtend 32 <<< 8 |||
    (packet (pos + 2)).zeroExtend 32 <<< 16

/-- `reverse_bd_addr`. -/
def addressAt (packet : Nat → Byte) (offset : Nat) : List Byte :=
  ((List.range 6).map fun i => packet (offset + i)).reverse

/-- The response whose record begins at an offset. -/
def responseAt (packet : Nat → Byte) (offset : Nat) : Response :=
  if packet 0 = HCI_EVENT_INQUIRY_RESULT then
    { address := addressAt packet offset
      pageScanRepetitionMode := packet (offset + 6)
      classOfDevice := littleEndianRead24 packet (offset + 9)
      clockOffset := littleEndianRead16 packet (offset + 12) &&& 0x7fff
      rssi := 0 }
  else
    { address := addressAt packet offset
      pageScanRepetitionMode := packet (offset + 6)
      classOfDevice := littleEndianRead24 packet (offset + 8)
      clockOffset := littleEndianRead16 packet (offset + 11) &&& 0x7fff
      rssi := packet (offset + 13) }

/-- Which bytes of a record are read, besides its address. -/
def fieldReads (packet : Nat → Byte) (offset : Nat) : List Nat :=
  if packet 0 = HCI_EVENT_INQUIRY_RESULT then
    [offset + 6, offset + 9, offset + 10, offset + 11, offset + 12, offset + 13]
  else [offset + 6, offset + 8, offset + 9, offset + 10, offset + 11, offset + 12, offset + 13]

/-! ## The list of devices -/

/-- The first entries of `devices`. -/
def Inquiry.listed (s : Inquiry) : List Response :=
  (List.range s.deviceCount).map fun i => (s.devices i).toResponse

/-- `getDeviceIndexForAddress`. -/
def Inquiry.getDeviceIndexForAddress (s : Inquiry) (addr : List Byte) : Option Nat :=
  (List.range s.deviceCount).find? fun j => (s.devices j).address = addr

/-- A new entry; its name is left as it is. -/
def Inquiry.add (s : Inquiry) (response : Response) : Inquiry :=
  { s with
    devices := Function.update s.devices s.deviceCount
      { s.devices s.deviceCount with toResponse := response, state := .remoteNameRequest }
    deviceInfoLocal := Function.update s.deviceInfoLocal s.deviceCount
      { s.deviceInfoLocal s.deviceCount with address := response.address }
    deviceCount := s.deviceCount + 1 }

/-- The devices after a walk, which bytes it read and where it looked for an address. -/
structure Walk where
  after : Inquiry
  reads : List Nat
  looked : List Nat

def Walk.before (walk : Walk) (offset : Nat) (reads : List Nat) : Walk :=
  { walk with
    reads := (List.range 6).map (offset + ·) ++ reads ++ walk.reads
    looked := offset :: walk.looked }

/-- The loop over the responses that are left. -/
def inquiryLoop (packet : Nat → Byte) : Nat → Nat → Inquiry → Walk
  | 0, _, s => ⟨s, [], []⟩
  | n + 1, offset, s =>
      if s.deviceCount < MAX_DEVICES then
        match s.getDeviceIndexForAddress (addressAt packet offset) with
        | some _ => (inquiryLoop packet n (offset + 6) s).before offset []
        | none =>
            let s := s.add (responseAt packet offset)
            if s.gScanSize ≤ s.deviceCount then
              Walk.before ⟨{ s with stopped := true }, [], []⟩ offset (fieldReads packet offset)
            else (inquiryLoop packet n (offset + 14) s).before offset (fieldReads packet offset)
      else ⟨s, [], []⟩

/-- `inquiry_packet_handler` on an inquiry result, with or without RSSI. -/
def inquiryPacketHandler (packet : Nat → Byte) (s : Inquiry) : Walk :=
  let walk := inquiryLoop packet (packet 2).toNat 3 s
  { walk with reads := 0 :: 2 :: walk.reads }

/-! ## What is to be collected -/

/-- The responses whose records lie in the event. -/
def responses (packet : Nat → Byte) (size : Nat) : Nat → Nat → List Response
  | 0, _ => []
  | n + 1, offset =>
      if offset + 14 ≤ size then responseAt packet offset :: responses packet size n (offset + 14)
      else []

/-- One entry for each response that is not listed, up to a limit. -/
def collect (limit : Nat) : List Response → List Response → List Response
  | listed, [] => listed
  | listed, response :: rest =>
      if listed.length < limit ∧ response.address ∉ listed.map Response.address then
        collect limit (listed ++ [response]) rest
      else collect limit listed rest

/-- `min(gScanSize, MAX_DEVICES)`. -/
def Inquiry.limit (s : Inquiry) : Nat := (min s.gScanSize MAX_DEVICES).toNat

/-- A walk over responses reads inside the event, looks at each response in its own record, leaves
the entries and collects the responses. -/
structure Collects (packet : Nat → Byte) (size n offset : Nat) (s : Inquiry) (walk : Walk) : Prop where
  inside : ∀ p ∈ walk.reads, p < size
  own : ∀ k < walk.looked.length, walk.looked[k]? = some (offset + 14 * k)
  kept : ∀ i < s.deviceCount, walk.after.devices i = s.devices i ∧
    walk.after.deviceInfoLocal i = s.deviceInfoLocal i
  collected : walk.after.listed = collect s.limit s.listed (responses packet size n offset)

/-- The records that are looked at lie in the event, a device that is listed is found in the last
one only, and there is room for an entry as long as new devices are found. -/
def WalkFits (packet : Nat → Byte) (size : Nat) (gScanSize : Int) :
    Nat → Nat → List Response → Prop
  | 0, _, _ => True
  | n + 1, offset, listed =>
      MAX_DEVICES ≤ listed.length ∨
        if addressAt packet offset ∈ listed.map Response.address then offset + 6 ≤ size ∧ n = 0
        else offset + 14 ≤ size ∧ (listed.length : Int) < gScanSize ∧
          (gScanSize ≤ listed.length + 1 ∨
            WalkFits packet size gScanSize n (offset + 14) (listed ++ [responseAt packet offset]))

variable {packet : Nat → Byte} {size n offset limit : Nat} {s : Inquiry} {listed rest : List Response}

theorem responseAt_address : (responseAt packet offset).address = addressAt packet offset := by
  unfold responseAt
  split <;> rfl

theorem listed_length : s.listed.length = s.deviceCount := by
  rw [Inquiry.listed, List.length_map, List.length_range]

theorem add_devices (response : Response) :
    ((s.add response).devices s.deviceCount).toResponse = response := by
  have here : (s.add response).devices s.deviceCount =
      { s.devices s.deviceCount with toResponse := response, state := .remoteNameRequest } :=
    Function.update_self _ _ _
  rw [here]

theorem add_devices_other (response : Response) {i : Nat} (below : i < s.deviceCount) :
    (s.add response).devices i = s.devices i ∧
      (s.add response).deviceInfoLocal i = s.deviceInfoLocal i :=
  ⟨Function.update_of_ne (Nat.ne_of_lt below) _ _, Function.update_of_ne (Nat.ne_of_lt below) _ _⟩

theorem listed_add (response : Response) : (s.add response).listed = s.listed ++ [response] := by
  rw [Inquiry.listed, show (s.add response).deviceCount = s.deviceCount + 1 from rfl,
    List.range_succ, List.map_append, List.map_singleton, add_devices]
  refine congrArg (· ++ [response]) (List.map_congr_left fun i member => ?_)
  rw [(add_devices_other response (List.mem_range.mp member)).1]

theorem index_isSome_iff {addr : List Byte} : (s.getDeviceIndexForAddress addr).isSome ↔
    addr ∈ s.listed.map Response.address := by
  rw [Inquiry.getDeviceIndexForAddress, List.find?_isSome, Inquiry.listed, List.map_map,
    List.mem_map]
  constructor
  · rintro ⟨j, member, same⟩
    exact ⟨j, member, of_decide_eq_true same⟩
  · rintro ⟨j, member, same⟩
    exact ⟨j, member, decide_eq_true same⟩

theorem collect_full (full : limit ≤ listed.length) : collect limit listed rest = listed := by
  induction rest with
  | nil => rfl
  | cons response rest ih => rw [collect, if_neg fun new => absurd new.1 (Nat.not_lt.mpr full), ih]

/-! ## The walk -/

/-- The turns of the loop: the list is full, the device is listed, it is the last one that was
asked for, or one of several. -/
theorem inquiryLoop_full (full : MAX_DEVICES ≤ s.listed.length) :
    inquiryLoop packet (n + 1) offset s = ⟨s, [], []⟩ := by
  rw [inquiryLoop, if_neg]
  rw [← listed_length]
  exact Nat.not_lt.mpr full

theorem inquiryLoop_known (room : s.listed.length < MAX_DEVICES)
    (known : addressAt packet offset ∈ s.listed.map Response.address) :
    inquiryLoop packet (n + 1) offset s = (inquiryLoop packet n (offset + 6) s).before offset [] := by
  obtain ⟨index, found⟩ := Option.isSome_iff_exists.mp (index_isSome_iff.mpr known)
  rw [inquiryLoop, if_pos (by rwa [← listed_length]), found]

theorem inquiryLoop_new (room : s.listed.length < MAX_DEVICES)
    (new : addressAt packet offset ∉ s.listed.map Response.address) :
    inquiryLoop packet (n + 1) offset s =
      if s.gScanSize ≤ s.listed.length + 1 then
        Walk.before ⟨{ s.add (responseAt packet offset) with stopped := true }, [], []⟩ offset
          (fieldReads packet offset)
      else (inquiryLoop packet n (offset + 14) (s.add (responseAt packet offset))).before offset
        (fieldReads packet offset) := by
  have found : s.getDeviceIndexForAddress (addressAt packet offset) = none := by
    rw [← Option.not_isSome_iff_eq_none, index_isSome_iff]
    exact new
  rw [inquiryLoop, if_pos (by rwa [← listed_length]), found, listed_length]
  rfl

theorem inquiryLoop_kept (n offset : Nat) (s : Inquiry) :
    (∀ i < s.deviceCount, (inquiryLoop packet n offset s).after.devices i = s.devices i ∧
        (inquiryLoop packet n offset s).after.deviceInfoLocal i = s.deviceInfoLocal i) ∧
      s.listed.length ≤ (inquiryLoop packet n offset s).after.listed.length := by
  induction n generalizing offset s with
  | zero => exact ⟨fun _ _ => ⟨rfl, rfl⟩, Nat.le_refl _⟩
  | succ n ih =>
      rcases Nat.lt_or_ge s.listed.length MAX_DEVICES with room | full
      · by_cases known : addressAt packet offset ∈ s.listed.map Response.address
        · rw [inquiryLoop_known room known]
          exact ih (offset + 6) s
        · rw [inquiryLoop_new room known]
          have longer : (s.add (responseAt packet offset)).listed.length = s.listed.length + 1 := by
            rw [listed_add, List.length_append]
            rfl
          split
          · exact ⟨fun i below => add_devices_other _ below,
              Nat.le_of_lt (Nat.lt_of_lt_of_eq (Nat.lt_succ_self _) longer.symm)⟩
          · obtain ⟨kept, more⟩ := ih (offset + 14) (s.add (responseAt packet offset))
            refine ⟨fun i below => ?_, by rw [longer] at more; exact Nat.le_of_succ_le more⟩
            obtain ⟨device, info⟩ := kept i (Nat.lt_succ_of_lt below)
            obtain ⟨earlier, earlierInfo⟩ := add_devices_other (responseAt packet offset) below
            exact ⟨device.trans earlier, info.trans earlierInfo⟩
      · rw [inquiryLoop_full full]
        exact ⟨fun _ _ => ⟨rfl, rfl⟩, Nat.le_refl _⟩

theorem fieldReads_inside : (∀ p ∈ (List.range 6).map (offset + ·) ++ fieldReads packet offset,
    p < size) ↔ offset + 14 ≤ size := by
  unfold fieldReads
  split
  · simp [List.range_succ]
    omega
  · simp [List.range_succ]
    omega

theorem collects_known (room : s.listed.length < MAX_DEVICES)
    (known : addressAt packet offset ∈ s.listed.map Response.address) :
    Collects packet size (n + 1) offset s
        ((inquiryLoop packet n (offset + 6) s).before offset []) ↔
      offset + 6 ≤ size ∧ n = 0 := by
  have listed : ∀ rest, collect s.limit s.listed (responseAt packet offset :: rest) =
      collect s.limit s.listed rest := fun rest => by
    rw [collect, if_neg fun new => absurd (responseAt_address ▸ known) new.2]
  constructor
  · rintro ⟨inside, own, -, -⟩
    have last : offset + 5 < size := by
      apply inside
      apply List.mem_append_left
      apply List.mem_append_left
      exact List.mem_map.mpr ⟨5, by decide, rfl⟩
    refine ⟨last, ?_⟩
    cases n with
    | zero => rfl
    | succ n =>
        have next : ((inquiryLoop packet (n + 1) (offset + 6) s).looked)[0]? = some (offset + 6) := by
          by_cases again : addressAt packet (offset + 6) ∈ s.listed.map Response.address
          · rw [inquiryLoop_known room again]
            rfl
          · rw [inquiryLoop_new room again]
            split <;> rfl
        have second := own 1 (Nat.succ_lt_succ (List.getElem?_eq_some_iff.mp next).1)
        have same : some (offset + 6) = some (offset + 14) := next.symm.trans second
        exact absurd (Option.some.inj same) (by omega)
  · rintro ⟨last, rfl⟩
    refine ⟨fun p member => ?_, fun k below => ?_, fun _ _ => ⟨rfl, rfl⟩, ?_⟩
    · rcases List.mem_append.mp member with address | rest
      · rw [List.append_nil] at address
        obtain ⟨i, below, rfl⟩ := List.mem_map.mp address
        have := List.mem_range.mp below
        omega
      · exact absurd rest List.not_mem_nil
    · obtain rfl : k = 0 := Nat.lt_one_iff.mp below
      rfl
    · rw [responses]
      split
      · exact (listed []).symm
      · rfl

theorem before_own {walk : Walk} {reads : List Nat} :
    (∀ k < (walk.before offset reads).looked.length,
        (walk.before offset reads).looked[k]? = some (offset + 14 * k)) ↔
      ∀ k < walk.looked.length, walk.looked[k]? = some (offset + 14 + 14 * k) := by
  have shift : ∀ k, offset + 14 * (k + 1) = offset + 14 + 14 * k := fun k => by omega
  constructor
  · intro own k below
    rw [← shift]
    exact own (k + 1) (Nat.succ_lt_succ below)
  · intro own k below
    cases k with
    | zero => rfl
    | succ k =>
        rw [shift]
        exact own k (Nat.lt_of_succ_lt_succ below)

theorem collect_new (room : s.listed.length < MAX_DEVICES)
    (new : addressAt packet offset ∉ s.listed.map Response.address)
    (whole : offset + 14 ≤ size) (wanted : (s.listed.length : Int) < s.gScanSize) :
    collect s.limit s.listed (responses packet size (n + 1) offset) =
      collect s.limit (s.add (responseAt packet offset)).listed
        (responses packet size n (offset + 14)) := by
  have below : s.listed.length < s.limit :=
    Int.lt_toNat.mpr (Int.lt_min.mpr ⟨wanted, Int.ofNat_lt.mpr room⟩)
  rw [responses, if_pos whole, collect, if_pos ⟨below, responseAt_address ▸ new⟩, listed_add]

theorem collects_new (room : s.listed.length < MAX_DEVICES)
    (new : addressAt packet offset ∉ s.listed.map Response.address)
    (rest : Collects packet size n (offset + 14) (s.add (responseAt packet offset))
        (inquiryLoop packet n (offset + 14) (s.add (responseAt packet offset))) ↔
      WalkFits packet size s.gScanSize n (offset + 14) (s.add (responseAt packet offset)).listed) :
    Collects packet size (n + 1) offset s (inquiryLoop packet (n + 1) offset s) ↔
      offset + 14 ≤ size ∧ (s.listed.length : Int) < s.gScanSize ∧
        (s.gScanSize ≤ s.listed.length + 1 ∨
          WalkFits packet size s.gScanSize n (offset + 14)
            (s.listed ++ [responseAt packet offset])) := by
  have kept := (@inquiryLoop_kept packet (n + 1) offset s).1
  have longer : (s.add (responseAt packet offset)).listed.length = s.listed.length + 1 := by
    rw [listed_add, List.length_append]
    rfl
  rw [listed_add] at rest
  rw [inquiryLoop_new room new] at kept ⊢
  by_cases stop : s.gScanSize ≤ s.listed.length + 1
  · rw [if_pos stop] at kept ⊢
    constructor
    · rintro ⟨inside, -, -, collected⟩
      refine ⟨fieldReads_inside.mp (List.forall_mem_append.mp inside).1, ?_, .inl stop⟩
      by_contra unwanted
      have full : s.limit ≤ s.listed.length :=
        Int.toNat_le.mpr (Int.le_trans (Int.min_le_left _ _) (Int.not_lt.mp unwanted))
      have same : (s.add (responseAt packet offset)).listed = s.listed :=
        collected.trans (collect_full full)
      rw [same] at longer
      exact Nat.succ_ne_self _ longer.symm
    · rintro ⟨whole, wanted, -⟩
      refine ⟨?_, ?_, kept, ?_⟩
      · exact List.forall_mem_append.mpr
          ⟨fieldReads_inside.mpr whole, fun p member => absurd member List.not_mem_nil⟩
      · exact before_own.mpr fun k below => absurd below (Nat.not_lt_zero k)
      · rw [collect_new room new whole wanted]
        refine (collect_full (Nat.le_trans ?_ (Nat.le_of_eq longer.symm))).symm
        exact Int.toNat_le.mpr (Int.le_trans (Int.min_le_left _ _) stop)
  · rw [if_neg stop] at kept ⊢
    have wanted : (s.listed.length : Int) < s.gScanSize := by omega
    constructor
    · rintro ⟨inside, own, -, collected⟩
      obtain ⟨here, later⟩ := List.forall_mem_append.mp inside
      have whole := fieldReads_inside.mp here
      refine ⟨whole, wanted, .inr (rest.mp ⟨later, before_own.mp own, ?_, ?_⟩)⟩
      · exact (inquiryLoop_kept n (offset + 14) _).1
      · exact collected.trans (collect_new room new whole wanted)
    · rintro ⟨whole, -, fits⟩
      obtain ⟨inside, own, -, collected⟩ := rest.mpr (fits.resolve_left stop)
      refine ⟨?_, before_own.mpr own, kept, ?_⟩
      · exact List.forall_mem_append.mpr ⟨fieldReads_inside.mpr whole, inside⟩
      · exact collected.trans (collect_new room new whole wanted).symm

theorem inquiryLoop_collects_iff : Collects packet size n offset s (inquiryLoop packet n offset s) ↔
    WalkFits packet size s.gScanSize n offset s.listed := by
  induction n generalizing offset s with
  | zero =>
      refine iff_of_true ⟨?_, ?_, fun _ _ => ⟨rfl, rfl⟩, rfl⟩ trivial
      · exact fun p member => absurd member List.not_mem_nil
      · exact fun k below => absurd below (Nat.not_lt_zero k)
  | succ n ih =>
      rw [WalkFits]
      rcases Nat.lt_or_ge s.listed.length MAX_DEVICES with room | full
      · rw [or_iff_right (Nat.not_le.mpr room)]
        by_cases known : addressAt packet offset ∈ s.listed.map Response.address
        · rw [if_pos known, inquiryLoop_known room known]
          exact collects_known room known
        · rw [if_neg known]
          exact collects_new room known ih
      · rw [inquiryLoop_full full]
        refine iff_of_true ⟨?_, ?_, fun _ _ => ⟨rfl, rfl⟩, ?_⟩ (.inl full)
        · exact fun p member => absurd member List.not_mem_nil
        · exact fun k below => absurd below (Nat.not_lt_zero k)
        · refine (collect_full (Nat.le_trans ?_ full)).symm
          exact Int.toNat_le.mpr (Int.min_le_right _ _)

/-- **Inquiry results.** An event's responses are collected exactly if the event holds its number
of responses and the walk fits it. -/
theorem inquiry_collects_iff (packet : Nat → Byte) (size : Nat) (s : Inquiry) :
    Collects packet size (packet 2).toNat 3 s (inquiryPacketHandler packet s) ↔
      3 ≤ size ∧ WalkFits packet size s.gScanSize (packet 2).toNat 3 s.listed := by
  rw [← inquiryLoop_collects_iff]
  constructor
  · rintro ⟨inside, own, kept, collected⟩
    have number : 2 < size := inside 2 (by simp [inquiryPacketHandler])
    refine ⟨number, fun p member => ?_, own, kept, collected⟩
    exact inside p (List.mem_cons_of_mem _ (List.mem_cons_of_mem _ member))
  · rintro ⟨number, inside, own, kept, collected⟩
    refine ⟨fun p member => ?_, own, kept, collected⟩
    rcases List.mem_cons.mp member with rfl | member
    · exact Nat.lt_of_lt_of_le (by decide) number
    rcases List.mem_cons.mp member with rfl | member
    · exact number
    · exact inside p member

/-- Two responses, of the devices `06:05:04:03:02:01` and `ff:ee:dd:cc:bb:aa`. -/
def twoResponses (p : Nat) : Byte :=
  [0x02, 29, 2, 1, 2, 3, 4, 5, 6, 1, 0, 0, 0x0c, 0x02, 0x5a, 0x34, 0x12,
    0xaa, 0xbb, 0xcc, 0xdd, 0xee, 0xff, 1, 0, 0, 0x04, 0x01, 0x1f, 0x78, 0x56].getD p 0

/-- The first of them is listed. -/
def oneListed : Inquiry :=
  let device : Device :=
    { address := [6, 5, 4, 3, 2, 1], clockOffset := 0, classOfDevice := 0x5a020c,
      pageScanRepetitionMode := 1, rssi := 0, name := [], state := .remoteNameRequest }
  ⟨fun _ => device, fun _ => device, 1, 10, false⟩

/-- The record of the listed device is skipped by its address only, and a device that does not
exist is collected in place of the second one. -/
theorem listed_device_misplaces : ¬ Collects twoResponses 31 (twoResponses 2).toNat 3 oneListed
    (inquiryPacketHandler twoResponses oneListed) := by
  rintro ⟨-, -, -, collected⟩
  exact absurd collected (by decide)

end PosFirmware.Bluetooth.Scan
