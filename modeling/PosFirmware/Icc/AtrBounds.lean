import PosFirmware.Icc.Atr

/-!
# The bounds of the answer to reset

`Announced` says which interface bytes T0 and the TDi behind it announce. The loop of
`sci_emv_atr_analyser` reads exactly these (`Walk.announced`), but nothing stops it at the eighth
group: it keeps its promises exactly when no byte of a ninth group arrives and what arrives fits
the buffer of the caller (`sciEmvAtrAnalyser_behaves_iff`).
-/

namespace PosFirmware.Icc

open PosFirmware.Foundation

/-! ## What a card announces -/

/-- The number of bytes that T0 or a TDi announces in front of the next TDi. -/
def announcedCount (y : Byte) : Nat :=
  (y.getLsbD 4).toNat + (y.getLsbD 5).toNat + (y.getLsbD 6).toNat

/-- The interface bytes announced by T0 or a TDi, with the union of the protocols of the TDi. -/
inductive Announced : Byte → List Byte → Byte → Prop
  | last (y : Byte) (group : List Byte) (ends : y.getLsbD 7 = false)
      (count : group.length = announcedCount y) : Announced y group 0
  | next (y : Byte) (group : List Byte) (td : Byte) (rest : List Byte) (protocols : Byte)
      (continues : y.getLsbD 7 = true) (count : group.length = announcedCount y)
      (behind : Announced td rest protocols) :
      Announced y (group ++ td :: rest) ((td &&& 0x0F) ||| protocols)

/-- The first bytes that arrive, all of them intact. -/
def Arrives (queue : Nat → Reception) (bytes : List Byte) : Prop :=
  ∀ i value, bytes[i]? = some value → queue i = .byte value

/-- The byte is one of the two values of TS. -/
def IsConvention (ts : Byte) : Prop := ts = CONV_CH ∨ ts = INCONV_CH

/-- A place in the chain: the bytes of the group still to come, the groups before and the protocols
met. -/
structure Place where
  flag : Byte
  group : Nat
  protocols : Byte

/-- An interface byte, when one is to come. -/
def Place.next (place : Place) (ch : Byte) : Option Place :=
  if place.flag = 0 then none
  else if tstBit place.flag 4 then some { place with flag := clrBit place.flag 4 }
  else if tstBit place.flag 5 then some { place with flag := clrBit place.flag 5 }
  else if tstBit place.flag 6 then some { place with flag := clrBit place.flag 6 }
  else some ⟨ch &&& 0xF0, place.group + 1, place.protocols ||| (ch &&& 0x0F)⟩

/-- The places that interface bytes lead to from another. -/
inductive Walk (start : Place) : List Byte → Place → Prop
  | here : Walk start [] start
  | step {bytes : List Byte} {place after : Place} (ch : Byte) (past : Walk start bytes place)
      (moves : place.next ch = some after) : Walk start (bytes ++ [ch]) after

/-- The place behind T0. -/
def Place.first (t0 : Byte) : Place := ⟨t0 &&& 0xF0, 0, 0⟩

/-- The bits of a place are those of the upper half. -/
def Place.Upper (place : Place) : Prop := place.flag &&& 0xF0 = place.flag

/-- The bytes of the group still to come. -/
def Place.left (place : Place) : Nat :=
  announcedCount place.flag + (place.flag.getLsbD 7).toNat

theorem Place.first_upper (t0 : Byte) : (Place.first t0).Upper := by
  change t0 &&& 0xF0 &&& 0xF0 = t0 &&& 0xF0
  rw [BitVec.and_assoc, BitVec.and_self]

private theorem clrBit_facts : ∀ flag : Byte, flag &&& 0xF0 = flag → ∀ bit ∈ [4, 5, 6],
    tstBit flag bit = true →
      clrBit flag bit &&& 0xF0 = clrBit flag bit ∧
      (clrBit flag bit).getLsbD 7 = flag.getLsbD 7 ∧
      announcedCount (clrBit flag bit) + 1 = announcedCount flag := by
  decide +kernel

private theorem flag_td : ∀ flag : Byte, flag &&& 0xF0 = flag → flag ≠ 0 →
    tstBit flag 4 = false → tstBit flag 5 = false → tstBit flag 6 = false →
      announcedCount flag = 0 ∧ flag.getLsbD 7 = true := by
  decide +kernel

theorem Place.next_cases {place after : Place} {ch : Byte} (upper : place.Upper)
    (moves : place.next ch = some after) :
    after.Upper ∧
      ((after.group = place.group ∧ after.protocols = place.protocols ∧
          after.flag.getLsbD 7 = place.flag.getLsbD 7 ∧
          announcedCount after.flag + 1 = announcedCount place.flag) ∨
        (announcedCount place.flag = 0 ∧ place.flag.getLsbD 7 = true ∧
          after = ⟨ch &&& 0xF0, place.group + 1, place.protocols ||| (ch &&& 0x0F)⟩)) := by
  unfold Place.next at moves
  split_ifs at moves with none_ ta tb tc
  all_goals obtain rfl := Option.some.inj moves
  · obtain ⟨kept, last, count⟩ := clrBit_facts place.flag upper 4 (by simp) ta
    exact ⟨kept, .inl ⟨rfl, rfl, last, count⟩⟩
  · obtain ⟨kept, last, count⟩ := clrBit_facts place.flag upper 5 (by simp) tb
    exact ⟨kept, .inl ⟨rfl, rfl, last, count⟩⟩
  · obtain ⟨kept, last, count⟩ := clrBit_facts place.flag upper 6 (by simp) tc
    exact ⟨kept, .inl ⟨rfl, rfl, last, count⟩⟩
  · obtain ⟨count, last⟩ := flag_td place.flag upper none_ (by simpa using ta) (by simpa using tb)
      (by simpa using tc)
    exact ⟨Place.first_upper ch, .inr ⟨count, last, rfl⟩⟩

theorem Place.next_of_open {place : Place} (opened : place.flag ≠ 0) (ch : Byte) :
    ∃ after, place.next ch = some after := by
  unfold Place.next
  rw [if_neg opened]
  split_ifs
  all_goals exact ⟨_, rfl⟩

theorem Place.open_of_next {place after : Place} {ch : Byte} (moves : place.next ch = some after) :
    place.flag ≠ 0 := by
  rintro closed
  rw [Place.next, if_pos closed] at moves
  exact absurd moves (by simp)

theorem Walk.upper {t0 : Byte} {bytes : List Byte} {place : Place}
    (walk : Walk (.first t0) bytes place) : place.Upper := by
  induction walk with
  | here => exact Place.first_upper t0
  | step ch _ moves past => exact (Place.next_cases past moves).1

private theorem left_first_le : ∀ ch : Byte, (Place.first ch).left ≤ 4 := by decide +kernel

theorem Walk.length_le {t0 : Byte} {bytes : List Byte} {place : Place}
    (walk : Walk (.first t0) bytes place) :
    bytes.length + place.left ≤ 4 * (place.group + 1) := by
  induction walk with
  | here => simpa [Place.first] using left_first_le t0
  | @step bytes place after ch before moves past =>
    rw [List.length_append, List.length_singleton]
    obtain ⟨-, ⟨group, -, last, count⟩ | ⟨count, last, rfl⟩⟩ :=
      Place.next_cases before.upper moves
    · unfold Place.left at past ⊢
      rw [group, last]
      omega
    · have small := left_first_le ch
      have whole : place.left = 1 := by rw [Place.left, count, last, Bool.toNat_true]
      change _ + (Place.first ch).left ≤ 4 * (place.group + 1 + 1)
      omega

private theorem upper_announces : ∀ y : Byte, announcedCount (y &&& 0xF0) = announcedCount y ∧
    (y &&& 0xF0).getLsbD 7 = y.getLsbD 7 := by
  decide +kernel

theorem Announced.of_upper {y : Byte} {bytes : List Byte} {protocols : Byte}
    (announced : Announced (y &&& 0xF0) bytes protocols) : Announced y bytes protocols := by
  obtain ⟨count_, last⟩ := upper_announces y
  cases announced with
  | last _ _ ends count => exact .last y bytes (last ▸ ends) (count_ ▸ count)
  | next _ group td rest protocols continues count behind =>
    exact .next y group td rest protocols (last ▸ continues) (count_ ▸ count) behind

theorem Announced.cons {flag after : Byte} {bytes : List Byte} {protocols : Byte} (ch : Byte)
    (last : after.getLsbD 7 = flag.getLsbD 7) (count : announcedCount after + 1 = announcedCount flag)
    (announced : Announced after bytes protocols) : Announced flag (ch :: bytes) protocols := by
  cases announced with
  | last _ _ ends count_ =>
    exact .last flag (ch :: bytes) (last ▸ ends) (by rw [List.length_cons, count_, count])
  | next _ group td rest protocols continues count_ behind =>
    exact .next flag (ch :: group) td rest protocols (last ▸ continues)
      (by rw [List.length_cons, count_, count]) behind

theorem Walk.announced_append {t0 : Byte} {bytes : List Byte} {place : Place}
    (walk : Walk (.first t0) bytes place) {rest : List Byte} {protocols : Byte}
    (completes : Announced place.flag rest protocols) :
    Announced t0 (bytes ++ rest) (place.protocols ||| protocols) := by
  induction walk generalizing rest protocols with
  | here =>
    change Announced t0 rest (0#8 ||| protocols)
    rw [BitVec.zero_or]
    exact completes.of_upper
  | @step bytes place after ch before moves past =>
    rw [List.append_assoc, List.singleton_append]
    obtain ⟨-, ⟨-, same, last, count⟩ | ⟨count, last, rfl⟩⟩ :=
      Place.next_cases before.upper moves
    · rw [same]
      exact past (completes.cons ch last count)
    · rw [BitVec.or_assoc]
      exact past (.next place.flag [] ch rest protocols last count.symm completes.of_upper)

/-- **A walk that is complete took what T0 announces.** -/
theorem Walk.announced {t0 : Byte} {bytes : List Byte} {place : Place}
    (walk : Walk (.first t0) bytes place) (closed : place.flag = 0) :
    Announced t0 bytes place.protocols := by
  have ends : Announced place.flag [] 0 := by
    rw [closed]
    exact .last 0 [] (by decide) (by decide)
  simpa using walk.announced_append ends

/-! ## Receptions -/

theorem atrSpill_byte {ptype rxout : Nat} {queue : Nat → Reception} {value : Byte}
    (received : queue rxout = .byte value) :
    atrSpill ptype queue 1 rxout = ⟨[value], 0, rxout + 1⟩ := by
  simp [atrSpill, sciQueueSpill, spillLoop, received, Spill.store]

theorem atrSpill_code (ptype : Nat) (queue : Nat → Reception) (length rxout : Nat) :
    (atrSpill ptype queue length rxout).result ≠ ATR_FAULT := by
  unfold atrSpill
  dsimp only
  split_ifs with kept
  · rcases kept with zero | parity
    · rw [zero]
      decide
    · rw [parity]
      decide
  · decide
  · decide

theorem atrSpill_bytes (ptype : Nat) (queue : Nat → Reception) (length rxout : Nat) :
    (atrSpill ptype queue length rxout).bytes = (sciQueueSpill ptype queue length rxout).bytes :=
  rfl

private theorem atrSpill_result {ptype : Nat} {queue : Nat → Reception} {length rxout : Nat}
    (ok : (atrSpill ptype queue length rxout).result = 0) :
    (sciQueueSpill ptype queue length rxout).result = 0 := by
  unfold atrSpill at ok
  dsimp only at ok
  split_ifs at ok with kept
  · exact ok
  · exact absurd ok (by decide)
  · exact absurd ok (by decide)

private theorem spillLoop_arrives {ptype : Nat} {queue : Nat → Reception} {left : Nat}
    {result : Int} {rxout : Nat} (ok : (spillLoop ptype queue left result rxout).result = 0) :
    result = 0 ∧ (spillLoop ptype queue left result rxout).rxout = rxout + left ∧
      Arrives (fun i => queue (rxout + i)) (spillLoop ptype queue left result rxout).bytes := by
  induction left generalizing result rxout with
  | zero => exact ⟨ok, rfl, fun i value at_ => by simp [spillLoop] at at_⟩
  | succ left past =>
    unfold spillLoop at ok ⊢
    cases received : queue rxout with
    | timeout =>
      rw [received] at ok
      exact absurd ok (adjustTimeoutType_ne_zero ptype rxout)
    | parity value =>
      rw [received] at ok
      dsimp only at ok
      split_ifs at ok
      · exact absurd ok (show ICC_ERR_PARS ≠ 0 by decide)
      · exact absurd (past ok).1 (by decide)
    | byte value =>
      rw [received] at ok
      obtain ⟨zero, place, arrives⟩ := past ok
      refine ⟨zero, ?_, ?_⟩
      · exact place.trans (by omega)
      · intro i other at_
        cases i with
        | zero =>
          obtain rfl : value = other := by simpa [Spill.store] using at_
          exact received
        | succ i =>
          change queue (rxout + (i + 1)) = _
          rw [show rxout + (i + 1) = rxout + 1 + i by omega]
          exact arrives i other (by simpa [Spill.store] using at_)

theorem atrSpill_ok {ptype : Nat} {queue : Nat → Reception} {length rxout : Nat}
    (ok : (atrSpill ptype queue length rxout).result = 0) :
    (atrSpill ptype queue length rxout).bytes.length = length ∧
      (atrSpill ptype queue length rxout).rxout = rxout + length ∧
      Arrives (fun i => queue (rxout + i)) (atrSpill ptype queue length rxout).bytes := by
  have whole := atrSpill_result ok
  obtain ⟨-, place, arrives⟩ := spillLoop_arrives whole
  exact ⟨sciQueueSpill_length_of_ok whole, place, arrives⟩

theorem atrSpill_one (ptype : Nat) (queue : Nat → Reception) (rxout : Nat) :
    (∃ value, queue rxout = .byte value ∧
        atrSpill ptype queue 1 rxout = ⟨[value], 0, rxout + 1⟩) ∨
      (∀ value, queue rxout ≠ .byte value) ∧ (atrSpill ptype queue 1 rxout).result ≠ 0 := by
  by_cases ok : (atrSpill ptype queue 1 rxout).result = 0
  · obtain ⟨one, -, arrives⟩ := atrSpill_ok ok
    obtain ⟨value, only⟩ := List.length_eq_one_iff.mp one
    have received : queue rxout = .byte value := arrives 0 value (by rw [only]; rfl)
    exact .inl ⟨value, received, atrSpill_byte received⟩
  · refine .inr ⟨fun value received => ok ?_, ok⟩
    rw [atrSpill_byte received]

theorem Arrives.append {queue : Nat → Reception} {front back : List Byte}
    (arrives : Arrives queue front) (behind : Arrives (fun i => queue (front.length + i)) back) :
    Arrives queue (front ++ back) := by
  intro i value at_
  rcases Nat.lt_or_ge i front.length with inside | past
  · rw [List.getElem?_append_left inside] at at_
    exact arrives i value at_
  · rw [List.getElem?_append_right past] at at_
    have here : queue (front.length + (i - front.length)) = .byte value :=
      behind (i - front.length) value at_
    rwa [Nat.add_sub_cancel' past] at here

theorem Arrives.single {queue : Nat → Reception} {ch : Byte} (received : queue 0 = .byte ch) :
    Arrives queue [ch] := by
  intro i value at_
  cases i with
  | zero =>
    obtain rfl : ch = value := by simpa using at_
    exact received
  | succ i => exact absurd at_ (by simp)

theorem Arrives.front {queue : Nat → Reception} {front back : List Byte}
    (arrives : Arrives queue (front ++ back)) : Arrives queue front := by
  intro i value at_
  refine arrives i value ?_
  rw [List.getElem?_append_left (List.getElem?_eq_some_iff.mp at_).1]
  exact at_

theorem Arrives.last {queue : Nat → Reception} {front : List Byte} {ch : Byte}
    (arrives : Arrives queue (front ++ [ch])) : queue front.length = .byte ch :=
  arrives front.length ch (by simp)

/-! ## The loop -/

/-- The place of the variables. -/
def AtrState.place (s : AtrState) : Place := ⟨s.flag, s.i, s.tckCond⟩

/-- The variables after T0 and some interface bytes. -/
structure Tracks (s : AtrState) (ts t0 : Byte) (bytes : List Byte) (place : Place) : Prop where
  atr : s.atr = 0 :: ts :: t0 :: bytes
  rxout : s.rxout = bytes.length + 2
  place : s.place = place
  first : s.su.t0 = t0

theorem AtrState.store_of_small {s : AtrState} {ch : Byte} {after : Place}
    (small : s.i < ATR_GROUPS) (moves : s.place.next ch = some after) :
    ∃ s', s.store ch = some s' ∧ s'.atr = s.atr ∧ s'.rxout = s.rxout ∧ s'.su.t0 = s.su.t0 ∧
      s'.place = after := by
  unfold Place.next AtrState.place at moves
  dsimp only at moves
  unfold AtrState.store storeInterface
  rw [if_pos small, if_pos small, if_pos small, if_pos small]
  split_ifs at moves with none_ ta tb tc
  all_goals obtain rfl := Option.some.inj moves
  · rw [if_pos ta]
    exact ⟨_, rfl, rfl, rfl, rfl, rfl⟩
  · rw [if_neg ta, if_pos tb]
    exact ⟨_, rfl, rfl, rfl, rfl, rfl⟩
  · rw [if_neg ta, if_neg tb, if_pos tc]
    exact ⟨_, rfl, rfl, rfl, rfl, rfl⟩
  · rw [if_neg ta, if_neg tb, if_neg tc]
    exact ⟨_, rfl, rfl, rfl, rfl, rfl⟩

theorem AtrState.store_of_large {s : AtrState} (large : ¬ s.i < ATR_GROUPS) (ch : Byte) :
    s.store ch = none := by
  unfold AtrState.store storeInterface
  rw [if_neg large, if_neg large, if_neg large, if_neg large]
  split_ifs
  all_goals rfl

variable {ptype size : Nat} {queue : Nat → Reception} {s : AtrState} {ts t0 : Byte}
  {bytes : List Byte} {place : Place}

private theorem Tracks.round (tracks : Tracks s ts t0 bytes place) (upper : place.Upper)
    (opened : place.flag ≠ 0) {ch : Byte} (received : queue (bytes.length + 2) = .byte ch) :
    atrStep ptype size queue s =
      if bytes.length + 4 ≤ size then
        ({ s with atr := s.atr ++ [ch], rxout := bytes.length + 3 }.store ch).elim
          (.returned ATR_FAULT { s with atr := s.atr ++ [ch], rxout := bytes.length + 3 }) .running
      else .returned ATR_FAULT { s with rxout := bytes.length + 3 } := by
  have flag : s.flag = place.flag := congrArg Place.flag tracks.place
  have masked : s.flag &&& 0xF0 ≠ 0 := by
    rw [flag, upper]
    exact opened
  unfold atrStep
  rw [if_neg (flag ▸ opened), tracks.rxout, atrSpill_byte received]
  dsimp only
  rw [if_neg (not_not.mpr rfl)]
  unfold AtrState.push
  dsimp only
  have stored : s.atr.length + [ch].length = bytes.length + 4 := by
    rw [tracks.atr]
    rfl
  rw [stored]
  by_cases room : bytes.length + 4 ≤ size
  · rw [if_pos room, if_pos room]
    dsimp only
    rw [if_neg masked]
    rfl
  · rw [if_neg room, if_neg room]

theorem Tracks.step (tracks : Tracks s ts t0 bytes place) (upper : place.Upper) {ch : Byte}
    {after : Place} (moves : place.next ch = some after)
    (received : queue (bytes.length + 2) = .byte ch) (small : place.group < ATR_GROUPS)
    (room : bytes.length + 4 ≤ size) :
    ∃ s', atrStep ptype size queue s = .running s' ∧ Tracks s' ts t0 (bytes ++ [ch]) after := by
  rw [tracks.round upper (Place.open_of_next moves) received, if_pos room]
  have group : s.i = place.group := congrArg Place.group tracks.place
  obtain ⟨s', stored, atr, rxout, first, reached⟩ := @AtrState.store_of_small
    { s with atr := s.atr ++ [ch], rxout := bytes.length + 3 } ch after (group ▸ small)
    ((congrArg (Place.next · ch) tracks.place).trans moves)
  rw [stored]
  refine ⟨s', rfl, ⟨?_, ?_, reached, first.trans tracks.first⟩⟩
  · rw [atr, tracks.atr]
    rfl
  · rw [rxout, List.length_append, List.length_singleton]

theorem Tracks.fault (tracks : Tracks s ts t0 bytes place) (upper : place.Upper) {ch : Byte}
    (opened : place.flag ≠ 0) (received : queue (bytes.length + 2) = .byte ch)
    (outside : ¬ (place.group < ATR_GROUPS ∧ bytes.length + 4 ≤ size)) :
    ∃ s', atrStep ptype size queue s = .returned ATR_FAULT s' := by
  rw [tracks.round upper opened received]
  split_ifs with room
  · have group : s.i = place.group := congrArg Place.group tracks.place
    rw [AtrState.store_of_large (by rw [group]; exact fun small => outside ⟨small, room⟩)]
    exact ⟨_, rfl⟩
  · exact ⟨_, rfl⟩

theorem Tracks.missing (tracks : Tracks s ts t0 bytes place) (opened : place.flag ≠ 0)
    (missing : ∀ value, queue (bytes.length + 2) ≠ .byte value) :
    ∃ code s', atrStep ptype size queue s = .returned code s' ∧ code ≠ 0 ∧ code ≠ ATR_FAULT := by
  have flag : s.flag = place.flag := congrArg Place.flag tracks.place
  obtain ⟨value, received, -⟩ | ⟨-, failed⟩ := atrSpill_one ptype queue (bytes.length + 2)
  · exact absurd received (missing value)
  · unfold atrStep
    rw [if_neg (flag ▸ opened), tracks.rxout]
    dsimp only
    rw [if_pos failed]
    exact ⟨_, _, rfl, failed, atrSpill_code _ _ _ _⟩

/-! ## The end of the answer -/

/-- A complete answer to reset: its bytes are those announced, the check byte is there when a
TDi announces a protocol other than T=0, and it is right. -/
def Answer (queue : Nat → Reception) (s : AtrState) : Prop :=
  ∃ ts t0 bytes historical tck protocols,
    Arrives queue (ts :: t0 :: bytes ++ historical ++ tck) ∧
    s.rxout = (ts :: t0 :: bytes ++ historical ++ tck).length ∧
    s.atr = BitVec.ofNat 8 (ts :: t0 :: bytes ++ historical).length ::
      (ts :: t0 :: bytes ++ historical) ∧
    Announced t0 bytes protocols ∧ historical.length = (t0 &&& 0x0F).toNat ∧
    (protocols = 0 → tck = []) ∧
    (protocols ≠ 0 → ∃ check, tck = [check] ∧ xorAll (t0 :: bytes ++ historical ++ [check]) = 0)

theorem xorAll_append_self (bytes : List Byte) : xorAll (bytes ++ [xorAll bytes]) = 0 := by
  unfold xorAll
  rw [List.foldl_append, List.foldl_cons, List.foldl_nil, BitVec.xor_self]
  rfl

theorem AtrState.check_answer {historical : List Byte}
    (arrives : Arrives queue (ts :: t0 :: bytes ++ historical))
    (atr : s.atr = 0 :: (ts :: t0 :: bytes ++ historical))
    (rxout : s.rxout = (ts :: t0 :: bytes ++ historical).length)
    (announced : Announced t0 bytes s.tckCond) (length : historical.length = (t0 &&& 0x0F).toNat) :
    ∃ code s', s.check ptype queue = .returned code s' ∧ code ≠ ATR_FAULT ∧
      (code = 0 → Answer queue s') := by
  have counted : s.count.atr = BitVec.ofNat 8 (ts :: t0 :: bytes ++ historical).length ::
      (ts :: t0 :: bytes ++ historical) := by
    unfold AtrState.count
    rw [atr]
    rfl
  unfold AtrState.check
  by_cases absent : s.tckCond = 0
  · rw [if_pos absent]
    refine ⟨0, s.count, rfl, by decide, fun _ => ⟨ts, t0, bytes, historical, [], s.tckCond, ?_⟩⟩
    rw [List.append_nil]
    exact ⟨arrives, rxout, counted, announced, length, fun _ => rfl, fun other => absurd absent other⟩
  · rw [if_neg absent]
    obtain ⟨check, received, spilled⟩ | ⟨-, failed⟩ := atrSpill_one ptype queue s.rxout
    · rw [spilled]
      dsimp only
      rw [if_neg (not_not.mpr rfl)]
      split_ifs with wrong
      · exact ⟨_, _, rfl, by decide, fun ok => absurd ok (by decide)⟩
      · have right : check = xorAll (t0 :: bytes ++ historical) := by
          have same := not_not.mp wrong
          rw [atr] at same
          exact same
        refine ⟨0, _, rfl, by decide, fun _ =>
          ⟨ts, t0, bytes, historical, [check], s.tckCond, ?_, ?_, counted, announced, length,
            fun none_ => absurd none_ absent, fun _ => ⟨check, rfl, ?_⟩⟩⟩
        · exact arrives.append (.single (rxout ▸ received))
        · rw [List.length_append, ← rxout]
          rfl
        · rw [right]
          exact xorAll_append_self _
    · dsimp only
      rw [if_pos failed]
      exact ⟨_, _, rfl, atrSpill_code _ _ _ _, fun ok => absurd ok failed⟩

private theorem lowerHalf_le : ∀ t0 : Byte, (t0 &&& 0x0F).toNat ≤ ATR_HBYTES := by decide +kernel

theorem Tracks.close (tracks : Tracks s ts t0 bytes place) (closed : place.flag = 0)
    (arrives : Arrives queue (ts :: t0 :: bytes)) (announced : Announced t0 bytes place.protocols)
    (room : bytes.length + 3 +
      (sciQueueSpill ptype queue (t0 &&& 0x0F).toNat (bytes.length + 2)).bytes.length ≤ size) :
    ∃ code s', atrStep ptype size queue s = .returned code s' ∧ code ≠ ATR_FAULT ∧
      (code = 0 → Answer queue s') := by
  have flag : s.flag = 0 := (congrArg Place.flag tracks.place).trans closed
  have few := lowerHalf_le t0
  unfold atrStep
  rw [if_pos flag]
  unfold AtrState.history AtrState.push
  rw [tracks.rxout, tracks.first, tracks.atr]
  dsimp only
  rw [if_pos (by simpa [atrSpill_bytes] using room)]
  dsimp only
  by_cases ok : (atrSpill ptype queue (t0 &&& 0x0F).toNat (bytes.length + 2)).result = 0
  · obtain ⟨length, rxout, behind⟩ := atrSpill_ok ok
    rw [if_neg (not_not.mpr ok), if_neg (by omega)]
    have protocols : s.tckCond = place.protocols := congrArg Place.protocols tracks.place
    have announced_ : Announced t0 bytes s.tckCond := protocols ▸ announced
    refine AtrState.check_answer (arrives.append behind) rfl ?_ announced_ length
    dsimp only
    rw [rxout, List.length_append, length]
    rfl
  · rw [if_pos ok]
    exact ⟨_, _, rfl, atrSpill_code _ _ _ _, fun zero => absurd zero ok⟩

theorem Tracks.overflow (tracks : Tracks s ts t0 bytes place) (closed : place.flag = 0)
    (full : ¬ bytes.length + 3 +
      (sciQueueSpill ptype queue (t0 &&& 0x0F).toNat (bytes.length + 2)).bytes.length ≤ size) :
    ∃ s', atrStep ptype size queue s = .returned ATR_FAULT s' := by
  have flag : s.flag = 0 := (congrArg Place.flag tracks.place).trans closed
  unfold atrStep
  rw [if_pos flag]
  unfold AtrState.history AtrState.push
  rw [tracks.rxout, tracks.first, tracks.atr]
  dsimp only
  rw [if_neg (by simpa [atrSpill_bytes] using full)]
  exact ⟨_, rfl⟩

/-! ## The whole function -/

/-- What the function is to do: it returns, it writes inside of the arrays, and it reports success
on complete answers only. -/
structure Behaves (ptype size : Nat) (queue : Nat → Reception) (terminalConv : Nat) : Prop where
  returns : Outcome.Returns (atrStep ptype size queue) (atrStart ptype size queue terminalConv)
  inside : ∀ rounds s,
    sciEmvAtrAnalyser ptype size queue terminalConv rounds ≠ .returned ATR_FAULT s
  exact_ : ∀ rounds s,
    sciEmvAtrAnalyser ptype size queue terminalConv rounds = .returned 0 s → Answer queue s

/-- What arrives has room: the interface bytes are of the first eight groups, and the buffer of
the caller holds the bytes in front of the check byte, with a byte for their number. -/
structure Roomy (ptype size : Nat) (queue : Nat → Reception) : Prop where
  number : 1 ≤ size
  ts : ∀ ts, Arrives queue [ts] → IsConvention ts → 2 ≤ size
  t0 : ∀ ts t0, Arrives queue [ts, t0] → IsConvention ts → 3 ≤ size
  interface : ∀ ts t0 bytes ch place, Arrives queue (ts :: t0 :: bytes ++ [ch]) →
    IsConvention ts → Walk (.first t0) bytes place → place.flag ≠ 0 →
      place.group < ATR_GROUPS ∧ bytes.length + 4 ≤ size
  historical : ∀ ts t0 bytes place, Arrives queue (ts :: t0 :: bytes) →
    IsConvention ts → Walk (.first t0) bytes place → place.flag = 0 →
      bytes.length + 3 +
        (sciQueueSpill ptype queue (t0 &&& 0x0F).toNat (bytes.length + 2)).bytes.length ≤ size

/-- The variables after some interface bytes that arrived. -/
def Reached (queue : Nat → Reception) (s : AtrState) (bytes : List Byte) : Prop :=
  ∃ ts t0 place, Arrives queue (ts :: t0 :: bytes) ∧ IsConvention ts ∧
    Walk (.first t0) bytes place ∧ Tracks s ts t0 bytes place ∧ place.group ≤ ATR_GROUPS

/-- What holds of the outcome of each round. -/
def Sane (queue : Nat → Reception) : Outcome AtrState → Prop
  | .running s => ∃ bytes, Reached queue s bytes
  | .returned code s => code ≠ ATR_FAULT ∧ (code = 0 → Answer queue s)

theorem Reached.length (reached : Reached queue s bytes) :
    s.atr.length = bytes.length + 3 ∧ bytes.length ≤ 36 := by
  obtain ⟨ts, t0, place, -, -, walk, tracks, few⟩ := reached
  have short := walk.length_le
  unfold ATR_GROUPS at few
  refine ⟨?_, by omega⟩
  rw [tracks.atr]
  rfl

theorem AtrState.first_received (atr : s.atr = [0, ts]) (rxout : s.rxout = 1)
    (protocols : s.tckCond = 0) (received : queue 1 = .byte t0) :
    ∃ s₁ s₂, s.first ptype size queue =
        (if 3 ≤ size then .running s₁ else .returned ATR_FAULT s₂) ∧
      Tracks s₁ ts t0 [] (.first t0) := by
  unfold AtrState.first AtrState.push
  rw [rxout, atrSpill_byte received, atr]
  dsimp only
  rw [if_neg (not_not.mpr rfl)]
  refine ⟨⟨{ s.su with t0 := t0 }, [0, ts, t0], t0 &&& 0xF0, 0, s.tckCond, s.terminalConv, 2⟩,
    { s with atr := [0, ts], rxout := 2 }, ?_, ⟨rfl, rfl, ?_, rfl⟩⟩
  · by_cases room : 3 ≤ size
    · rw [if_pos room, if_pos (show [0, ts].length + [t0].length ≤ size from room)]
      rfl
    · rw [if_neg room, if_neg (show ¬ [0, ts].length + [t0].length ≤ size from room)]
  · rw [AtrState.place, protocols]
    rfl

theorem atrStart_received (terminalConv : Nat) (number : 1 ≤ size) (received : queue 0 = .byte ts)
    (convention : IsConvention ts) :
    ∃ s₁ s₂ : AtrState, atrStart ptype size queue terminalConv =
        (if 2 ≤ size then s₁.first ptype size queue else .returned ATR_FAULT s₂) ∧
      s₁.atr = [0, ts] ∧ s₁.rxout = 1 ∧ s₁.tckCond = 0 := by
  have told : ¬ (ts ≠ CONV_CH ∧ ts ≠ INCONV_CH) := fun other => convention.elim other.1 other.2
  unfold atrStart AtrState.push
  dsimp only
  rw [if_pos (show ([] : List Byte).length + [(0 : Byte)].length ≤ size from number)]
  dsimp only
  rw [atrSpill_byte received]
  dsimp only
  rw [if_neg (not_not.mpr rfl), List.headD_cons, if_neg told]
  refine ⟨⟨{ EmvAtr.blank with ts := ts }, [0, ts], 0, 0, 0, if ts = CONV_CH then 0 else 1, 1⟩,
    ⟨.blank, [0], 0, 0, 0, if ts = CONV_CH then 0 else 1, 1⟩, ?_, rfl, rfl, rfl⟩
  have stored : (([] : List Byte) ++ [0]).length + [ts].length = 2 := rfl
  rw [stored]
  by_cases room : 2 ≤ size
  · rw [if_pos room, if_pos room]
    rfl
  · rw [if_neg room, if_neg room]
    rfl

theorem atrStart_refused (terminalConv : Nat) (number : 1 ≤ size)
    (refused : ∀ ts, queue 0 = .byte ts → ¬ IsConvention ts) :
    ∃ code s', atrStart ptype size queue terminalConv = .returned code s' ∧ code ≠ 0 ∧
      code ≠ ATR_FAULT := by
  unfold atrStart AtrState.push
  dsimp only
  rw [if_pos (show ([] : List Byte).length + [(0 : Byte)].length ≤ size from number)]
  dsimp only
  obtain ⟨ts, received, spilled⟩ | ⟨-, failed⟩ := atrSpill_one ptype queue 0
  · have wrong : ts ≠ CONV_CH ∧ ts ≠ INCONV_CH := not_or.mp (refused ts received)
    rw [spilled]
    dsimp only
    rw [if_neg (not_not.mpr rfl), List.headD_cons, if_pos wrong]
    exact ⟨_, _, rfl, by decide, by decide⟩
  · rw [if_pos failed]
    exact ⟨_, _, rfl, failed, atrSpill_code _ _ _ _⟩

theorem atrStart_sane (roomy : Roomy ptype size queue) (terminalConv : Nat) :
    Sane queue (atrStart ptype size queue terminalConv) := by
  by_cases here : ∃ ts, queue 0 = .byte ts ∧ IsConvention ts
  · obtain ⟨ts, received, convention⟩ := here
    obtain ⟨s₁, s₂, starts, atr, rxout, protocols⟩ :=
      @atrStart_received ptype size queue ts terminalConv roomy.number received convention
    rw [starts, if_pos (roomy.ts ts (.single received) convention)]
    obtain ⟨t0, next, -⟩ | ⟨missing, failed⟩ := atrSpill_one ptype queue 1
    · have both : Arrives queue [ts, t0] := (Arrives.single received).append (.single next)
      obtain ⟨s₃, s₄, first, tracks⟩ :=
        @AtrState.first_received ptype size queue s₁ ts t0 atr rxout protocols next
      rw [first, if_pos (roomy.t0 ts t0 both convention)]
      exact ⟨[], ts, t0, .first t0, both, convention, .here, tracks, Nat.zero_le _⟩
    · unfold AtrState.first
      rw [rxout]
      dsimp only
      rw [if_pos failed]
      exact ⟨atrSpill_code _ _ _ _, fun ok => absurd ok failed⟩
  · obtain ⟨code, s', returned, failed, inside⟩ := @atrStart_refused ptype size queue terminalConv
      roomy.number fun ts received convention => here ⟨ts, received, convention⟩
    rw [returned]
    exact ⟨inside, fun ok => absurd ok failed⟩

theorem Reached.step (roomy : Roomy ptype size queue) (reached : Reached queue s bytes) :
    (∃ s' ch, atrStep ptype size queue s = .running s' ∧ Reached queue s' (bytes ++ [ch])) ∨
      ∃ code s', atrStep ptype size queue s = .returned code s' ∧ code ≠ ATR_FAULT ∧
        (code = 0 → Answer queue s') := by
  obtain ⟨ts, t0, place, arrives, convention, walk, tracks, few⟩ := reached
  by_cases closed : place.flag = 0
  · exact .inr (tracks.close closed arrives (walk.announced closed)
      (roomy.historical ts t0 bytes place arrives convention walk closed))
  · obtain ⟨ch, received, -⟩ | ⟨missing, -⟩ := atrSpill_one ptype queue (bytes.length + 2)
    · have more : Arrives queue (ts :: t0 :: bytes ++ [ch]) := arrives.append (.single received)
      obtain ⟨small, room⟩ := roomy.interface ts t0 bytes ch place more convention walk closed
      obtain ⟨after, moves⟩ := Place.next_of_open closed ch
      obtain ⟨s', runs, tracks'⟩ := tracks.step walk.upper moves received small room
      refine .inl ⟨s', ch, runs, ts, t0, after, more, convention, walk.step ch moves, tracks', ?_⟩
      obtain ⟨-, ⟨group, -⟩ | ⟨-, -, rfl⟩⟩ := Place.next_cases walk.upper moves
      · exact group ▸ few
      · exact small
    · obtain ⟨code, s', returned, failed, inside⟩ := tracks.missing closed missing
      exact .inr ⟨code, s', returned, inside, fun ok => absurd ok failed⟩

theorem Roomy.behaves (roomy : Roomy ptype size queue) (terminalConv : Nat) :
    Behaves ptype size queue terminalConv := by
  have sane : ∀ rounds, Sane queue (sciEmvAtrAnalyser ptype size queue terminalConv rounds) := by
    refine Outcome.run_keeps (atrStart_sane roomy terminalConv) ?_
    rintro s ⟨bytes, reached⟩
    obtain ⟨s', ch, runs, reached'⟩ | ⟨code, s', returned, inside⟩ := reached.step roomy
    · exact runs ▸ ⟨bytes ++ [ch], reached'⟩
    · exact returned ▸ inside
  refine ⟨?_, fun rounds s returned => ?_, fun rounds s returned => ?_⟩
  · -- The bytes stored are what every round raises.
    refine @Outcome.returns_of_measure _ _ _ (fun s => ∃ bytes, Reached queue s bytes)
      (fun s => 40 - s.atr.length) 0 (fun rounds s _ reached => ?_) ?_
    · have here := sane rounds
      rwa [sciEmvAtrAnalyser, reached] at here
    rintro s after ⟨bytes, reached⟩ runs
    obtain ⟨s', ch, runs', reached'⟩ | ⟨code, s', returned, -⟩ := reached.step roomy
    · obtain rfl : s' = after := Outcome.running.inj (runs'.symm.trans runs)
      have before := reached.length
      have stored := reached'.length.1
      rw [List.length_append, List.length_singleton] at stored
      omega
    · exact absurd (returned.symm.trans runs) (by simp)
  · have here := sane rounds
    rw [returned] at here
    exact here.1 rfl
  · have here := sane rounds
    rw [returned] at here
    exact here.2 rfl

variable {terminalConv : Nat}

theorem Behaves.number (behaves : Behaves ptype size queue terminalConv) : 1 ≤ size := by
  by_contra none_
  apply behaves.inside 0 ⟨.blank, [], 0, 0, 0, terminalConv, 0⟩
  change atrStart ptype size queue terminalConv = _
  unfold atrStart AtrState.push
  dsimp only
  rw [if_neg (show ¬ ([] : List Byte).length + [(0 : Byte)].length ≤ size from none_)]

theorem Behaves.roomForTs (behaves : Behaves ptype size queue terminalConv) (arrives : Arrives queue [ts])
    (convention : IsConvention ts) : 2 ≤ size := by
  by_contra full
  obtain ⟨s₁, s₂, starts, -⟩ := @atrStart_received ptype size queue ts terminalConv behaves.number
    (arrives 0 ts rfl) convention
  exact behaves.inside 0 s₂ (starts.trans (if_neg full))

theorem Behaves.roomForT0 (behaves : Behaves ptype size queue terminalConv)
    (arrives : Arrives queue [ts, t0]) (convention : IsConvention ts) :
    3 ≤ size ∧ ∃ s, atrStart ptype size queue terminalConv = .running s ∧
      Tracks s ts t0 [] (.first t0) := by
  have room := behaves.roomForTs (@Arrives.front queue [ts] [t0] arrives) convention
  obtain ⟨s₁, s₂, starts, atr, rxout, protocols⟩ :=
    @atrStart_received ptype size queue ts terminalConv behaves.number (arrives 0 ts rfl) convention
  obtain ⟨s₃, s₄, first, tracks⟩ :=
    @AtrState.first_received ptype size queue s₁ ts t0 atr rxout protocols (arrives 1 t0 rfl)
  rw [if_pos room, first] at starts
  have enough : 3 ≤ size := by
    by_contra full
    exact behaves.inside 0 s₄ (starts.trans (if_neg full))
  exact ⟨enough, s₃, starts.trans (if_pos enough), tracks⟩

theorem Behaves.room (behaves : Behaves ptype size queue terminalConv) {ch : Byte}
    (reached : sciEmvAtrAnalyser ptype size queue terminalConv bytes.length = .running s)
    (tracks : Tracks s ts t0 bytes place) (upper : place.Upper) (opened : place.flag ≠ 0)
    (received : queue (bytes.length + 2) = .byte ch) :
    place.group < ATR_GROUPS ∧ bytes.length + 4 ≤ size := by
  by_contra outside
  obtain ⟨s', fault⟩ := tracks.fault upper opened received outside
  apply behaves.inside (bytes.length + 1) s'
  unfold sciEmvAtrAnalyser at reached ⊢
  rw [Outcome.run_succ, reached, Outcome.next_running, fault]

theorem Behaves.follows (behaves : Behaves ptype size queue terminalConv)
    (arrives : Arrives queue (ts :: t0 :: bytes)) (convention : IsConvention ts)
    (walk : Walk (.first t0) bytes place) :
    ∃ s, sciEmvAtrAnalyser ptype size queue terminalConv bytes.length = .running s ∧
      Tracks s ts t0 bytes place := by
  induction walk with
  | here => exact (behaves.roomForT0 arrives convention).2
  | @step bytes place after ch before moves past =>
    rw [← List.cons_append, ← List.cons_append] at arrives
    obtain ⟨s, reached, tracks⟩ := past arrives.front
    have received : queue (bytes.length + 2) = .byte ch := arrives.last
    obtain ⟨small, room⟩ := behaves.room reached tracks before.upper (Place.open_of_next moves)
      received
    obtain ⟨s', runs, tracks'⟩ := tracks.step before.upper moves received small room
    refine ⟨s', ?_, tracks'⟩
    unfold sciEmvAtrAnalyser at reached ⊢
    rw [List.length_append, List.length_singleton, Outcome.run_succ, reached,
      Outcome.next_running, runs]

theorem Behaves.roomy (behaves : Behaves ptype size queue terminalConv) :
    Roomy ptype size queue where
  number := behaves.number
  ts _ arrives convention := behaves.roomForTs arrives convention
  t0 _ _ arrives convention := (behaves.roomForT0 arrives convention).1
  interface ts t0 bytes ch place arrives convention walk opened := by
    obtain ⟨s, reached, tracks⟩ := behaves.follows arrives.front convention walk
    exact behaves.room reached tracks walk.upper opened arrives.last
  historical ts t0 bytes place arrives convention walk closed := by
    obtain ⟨s, reached, tracks⟩ := behaves.follows arrives convention walk
    by_contra full
    obtain ⟨s', fault⟩ := @Tracks.overflow ptype size queue s ts t0 bytes place tracks closed full
    apply behaves.inside (bytes.length + 1) s'
    unfold sciEmvAtrAnalyser at reached ⊢
    rw [Outcome.run_succ, reached, Outcome.next_running, fault]

/-- **The bounds of an answer to reset.** The function returns, writes inside of its arrays and
takes only complete answers for a success, exactly when no byte of a ninth group arrives and what
arrives fits the buffer of the caller. -/
theorem sciEmvAtrAnalyser_behaves_iff (ptype size : Nat) (queue : Nat → Reception)
    (terminalConv : Nat) : Behaves ptype size queue terminalConv ↔ Roomy ptype size queue :=
  ⟨Behaves.roomy, fun roomy => roomy.behaves terminalConv⟩

/-- A card that announces a ninth TDi: it is stored behind the end of `td`. -/
theorem sciEmvAtrAnalyser_ninthGroup :
    ¬ Behaves 0 64 (queueOf (0x3B :: List.replicate 10 0x80)) 0 := by
  intro behaves
  have code : ∃ s, sciEmvAtrAnalyser 0 64 (queueOf (0x3B :: List.replicate 10 0x80)) 0 9 =
      .returned ATR_FAULT s := ⟨_, rfl⟩
  obtain ⟨s, fault⟩ := code
  exact behaves.inside 9 s fault

end PosFirmware.Icc
