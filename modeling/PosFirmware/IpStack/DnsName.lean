import PosFirmware.IpStack.Dns

/-! # Names of a DNS packet

A name is a row of labels closed by a zero byte, or by a pointer to where its rest
stands earlier in the packet. `dns_pkt_to_name` reads a name without a pointer, and so the
name of every query (`dnsName_iff`). At a pointer it takes the low byte alone for the
offset, follows no second pointer, and leaves the name open in the buffer
(`dnsName_pointer`).
-/

namespace PosFirmware.IpStack

open PosFirmware.Foundation

/-! ## Names -/

/-- The text of a name. -/
def dotted : List (List Byte) → List Byte
  | [] => []
  | label :: rest => label ++ rest.flatMap (dot :: ·)

/-- Labels stand in the packet one after the other, each of `most` bytes at most, from a
place up to another. -/
def Laid (mem : Nat → Byte) (most : Nat) : Nat → List (List Byte) → Nat → Prop
  | p, [], q => q = p
  | p, label :: rest, q =>
      label ≠ [] ∧ label.length ≤ most ∧ (mem p).toNat = label.length ∧
        slice mem (p + 1) label.length = label ∧ Laid mem most (p + (label.length + 1)) rest q

/-- A pointer, and where it points to. -/
def IsPointer (mem : Nat → Byte) (q : Nat) : Prop := 192 ≤ (mem q).toNat

instance (mem : Nat → Byte) (q : Nat) : Decidable (IsPointer mem q) :=
  inferInstanceAs (Decidable (_ ≤ _))

def pointee (mem : Nat → Byte) (q : Nat) : Nat :=
  ((mem q).toNat - 192) * 256 + (mem (q + 1)).toNat

/-- The encodings of a name at a place, and the position right after: its labels, closed
by a zero byte or by a pointer to an encoding of the rest earlier in the packet. -/
inductive Encodes (mem : Nat → Byte) : Nat → List (List Byte) → Nat → Prop where
  | root {p : Nat} (closed : mem p = 0) : Encodes mem p [] (p + 1)
  | label {p q : Nat} {label : List Byte} {rest : List (List Byte)} (some : label ≠ [])
      (short : label.length ≤ 63) (length : (mem p).toNat = label.length)
      (bytes : slice mem (p + 1) label.length = label)
      (after : Encodes mem (p + (label.length + 1)) rest q) : Encodes mem p (label :: rest) q
  | pointer {p q : Nat} {rest : List (List Byte)} (pointer : IsPointer mem p)
      (earlier : pointee mem p < p) (there : Encodes mem (pointee mem p) rest q) :
      Encodes mem p rest (p + 2)

/-- A buffer holds a text, closed by a zero. -/
def HoldsText (buffer : Nat → Byte) (text : List Byte) : Prop :=
  slice buffer 0 (text.length + 1) = text ++ [0]

instance (buffer : Nat → Byte) (text : List Byte) : Decidable (HoldsText buffer text) :=
  inferInstanceAs (Decidable (_ = _))

/-- `dns_pkt_to_name` reads a name: it returns the position right after, and the buffer
holds the text. -/
def ReadsName (mem : Nat → Byte) (p size : Nat) (buffer : Nat → Byte) (labels : List (List Byte))
    (q : Nat) : Prop :=
  ∃ s, dnsPktToName mem p size buffer DNS_NAME_SIZE = .out s ∧ s.buf = q ∧
    HoldsText s.buffer (dotted labels)

/-! ## The condition -/

/-- What the labels before a pointer and those at the low byte of its offset leave in the
buffer is the text: the labels there are closed by a zero byte; or they fill the buffer, and
the packet ends with the pointer or goes on with a zero byte, which closes the text. -/
def PointerReads (mem : Nat → Byte) (last : Nat) (buffer : Nat → Byte) (text copied : List Byte)
    (q r : Nat) : Prop :=
  let filled := blit (Function.update buffer 0 0) 0 copied
  (copied.length < DNS_NAME_SIZE ∧ mem r = 0 ∧ HoldsText filled text) ∨
    copied.length = DNS_NAME_SIZE ∧
      ((last = q + 2 ∧ HoldsText filled text) ∨
        (q + 2 < last ∧ mem (q + 2) = 0 ∧
          HoldsText (Function.update filled DNS_NAME_SIZE 0) text))

/-- The name has no pointer, or what stands at the low byte of the offset of its first
pointer completes the text. -/
def NameCondition (mem : Nat → Byte) (p size : Nat) (buffer : Nat → Byte)
    (labels : List (List Byte)) : Prop :=
  (∃ q, Laid mem 63 p labels q ∧ mem q = 0) ∨
    ∃ front q segments r, Laid mem 63 p front q ∧ IsPointer mem q ∧
      Laid mem 255 (mem (q + 1)).toNat segments r ∧
      PointerReads mem (p + size) buffer (dotted labels) (dotted (front ++ segments)) q r

theorem laid_le {mem : Nat → Byte} {most p q : Nat} {labels : List (List Byte)}
    (laid : Laid mem most p labels q) : p ≤ q := by
  induction labels generalizing p with
  | nil => exact laid.ge
  | cons label rest past => exact (Nat.le_add_right ..).trans (past laid.2.2.2.2)

/-! ## The text written so far -/

theorem dotted_concat (front : List (List Byte)) (label : List Byte) :
    dotted (front ++ [label]) = if front = [] then label else dotted front ++ dot :: label := by
  cases front with
  | nil => simp [dotted]
  | cons first rest => simp [dotted]

theorem dotted_append_length (front back : List (List Byte)) :
    (dotted front).length ≤ (dotted (front ++ back)).length := by
  cases front with
  | nil => exact Nat.zero_le _
  | cons first rest =>
      simp only [dotted, List.cons_append, List.flatMap_append, List.length_append]
      omega

/-- The labels read so far stand in the buffer, behind which it is as it was. -/
structure Written (buffer : Nat → Byte) (labels : List (List Byte)) (s : NameScan) : Prop where
  name : s.name = (dotted labels).length
  nameSize : s.nameSize = (DNS_NAME_SIZE : Int) - s.name
  count : s.count = labels.length
  filled : s.buffer = blit (Function.update buffer 0 0) 0 (dotted labels)

variable {mem buffer : Nat → Byte} {s : NameScan} {front : List (List Byte)}

theorem Written.copyLabel {label : List Byte} {src : Nat} (written : Written buffer front s)
    (bytes : slice mem src label.length = label) :
    Written buffer (front ++ [label]) (s.separate.copyLabel mem src label.length) := by
  have size := written.nameSize
  by_cases first : front = []
  · have zero : ¬ s.count > 0 := by
      rw [written.count, first]
      decide
    have empty : s.name = 0 := by rw [written.name, first]; rfl
    rw [NameScan.separate, if_neg zero]
    refine ⟨?_, ?_, ?_, ?_⟩
    · rw [dotted_concat, if_pos first]
      change s.name + label.length = _
      omega
    · change s.nameSize - (label.length : Int) =
        (DNS_NAME_SIZE : Int) - (s.name + label.length : Nat)
      omega
    · change s.count + 1 = _
      rw [written.count, List.length_append, List.length_singleton]
    · change blit s.buffer s.name (slice mem src label.length) = _
      rw [dotted_concat, if_pos first, bytes, written.filled, empty, first]
      exact blit_append _ 0 [] label
  · have some' : s.count > 0 := by
      rw [written.count]
      exact List.length_pos_iff.mpr first
    rw [NameScan.separate, if_pos some']
    refine ⟨?_, ?_, ?_, ?_⟩
    · rw [dotted_concat, if_neg first, List.length_append, List.length_cons, ← written.name]
      change s.name + 1 + label.length = _
      omega
    · change s.nameSize - 1 - (label.length : Int) =
        (DNS_NAME_SIZE : Int) - (s.name + 1 + label.length : Nat)
      omega
    · change s.count + 1 = _
      rw [written.count, List.length_append, List.length_singleton]
    · change blit (Function.update s.buffer s.name dot) (s.name + 1)
        (slice mem src label.length) = _
      have whole : dotted front ++ dot :: label = (dotted front ++ [dot]) ++ label := by simp
      rw [dotted_concat, if_neg first, bytes, ← blit_singleton, written.filled, written.name,
        whole, ← blit_append, ← blit_append, List.length_append, Nat.zero_add, Nat.zero_add,
        List.length_singleton]

@[simp] theorem separate_buf (s : NameScan) : s.separate.buf = s.buf := by
  unfold NameScan.separate
  split <;> rfl

@[simp] theorem separate_bufSize (s : NameScan) : s.separate.bufSize = s.bufSize := by
  unfold NameScan.separate
  split <;> rfl

theorem separate_nameSize_le (s : NameScan) : s.separate.nameSize ≤ s.nameSize := by
  unfold NameScan.separate
  split
  · change s.nameSize - 1 ≤ _
    omega
  · exact le_rfl

theorem Written.of_eq {s' : NameScan} (written : Written buffer front s) (name : s'.name = s.name)
    (nameSize : s'.nameSize = s.nameSize) (count : s'.count = s.count)
    (filled : s'.buffer = s.buffer) : Written buffer front s' :=
  ⟨name.trans written.name, by rw [nameSize, name, written.nameSize],
    count.trans written.count, filled.trans written.filled⟩

theorem Written.room (written : Written buffer front s) (label : List Byte) :
    s.separate.nameSize - label.length =
      (DNS_NAME_SIZE : Int) - (dotted (front ++ [label])).length := by
  have size := written.nameSize
  have name := written.name
  have count := written.count
  rw [dotted_concat]
  by_cases first : front = []
  · rw [first] at name count
    rw [NameScan.separate, if_neg (by rw [count]; decide), if_pos first, size, name]
    rfl
  · rw [NameScan.separate, if_pos (by rw [count]; exact List.length_pos_iff.mpr first),
      if_neg first, List.length_append, List.length_cons]
    change s.nameSize - 1 - (label.length : Int) = _
    omega

theorem Written.nameSize_pos (written : Written buffer front s) {label : List Byte}
    (some' : label ≠ []) (fits : (dotted (front ++ [label])).length ≤ DNS_NAME_SIZE) :
    0 < s.nameSize ∧ (label.length : Int) ≤ s.separate.nameSize := by
  have room := written.room label
  have long := List.length_pos_iff.mpr some'
  have size := separate_nameSize_le s
  omega

/-! ## The name that a pointer points to -/

theorem followPointer_laid {segments : List (List Byte)} {t r : Nat}
    (laid : Laid mem 255 t segments r) (written : Written buffer front s)
    (fits : (dotted (front ++ segments)).length ≤ DNS_NAME_SIZE) {fuel : Nat}
    (enough : s.nameSize.toNat ≤ fuel) :
    ∃ s' fuel', followPointer mem fuel t s = followPointer mem fuel' r s' ∧
      Written buffer (front ++ segments) s' ∧ s'.buf = s.buf ∧ s'.bufSize = s.bufSize ∧
      s'.nameSize.toNat ≤ fuel' := by
  induction segments generalizing t s front fuel with
  | nil =>
      obtain rfl := laid
      exact ⟨s, fuel, rfl, by rwa [List.append_nil], rfl, rfl, enough⟩
  | cons label rest past =>
      obtain ⟨some', -, length, bytes, after⟩ := laid
      have whole : front ++ label :: rest = (front ++ [label]) ++ rest := by simp
      rw [whole] at fits ⊢
      have first := (dotted_append_length (front ++ [label]) rest).trans fits
      have looked : Written buffer front (s.look t) := written.of_eq rfl rfl rfl rfl
      have size := List.length_pos_iff.mpr some'
      obtain ⟨room, enough'⟩ := looked.nameSize_pos some' first
      obtain ⟨fuel, rfl⟩ : ∃ less, fuel = less + 1 :=
        ⟨fuel - 1, by change 0 < s.nameSize at room; omega⟩
      have copied := looked.copyLabel bytes
      have left := copied.nameSize
      obtain ⟨s', fuel', run, written', buf, bufSize, more⟩ := past after copied fits (by
        change (s.look t).separate.nameSize - (label.length : Int) = _ at left
        change ((s.look t).separate.nameSize - (label.length : Int)).toNat ≤ fuel
        have smaller : _ ≤ s.nameSize := separate_nameSize_le (s.look t)
        omega)
      refine ⟨s', fuel', ?_, written', ?_, ?_, more⟩
      · rw [← run, followPointer, if_pos (show s.nameSize > 0 from room)]
        simp only [length]
        rw [if_neg (by omega), if_neg (by omega)]
      · rw [buf]
        exact separate_buf _
      · rw [bufSize]
        exact separate_bufSize _

/-- What becomes of the name that a pointer points to: it does not fit, or its labels are
copied up to a zero byte, or until they fill the buffer. -/
theorem followPointer_cases (written : Written buffer front s)
    (fits : (dotted front).length ≤ DNS_NAME_SIZE) {fuel : Nat} (enough : s.nameSize.toNat ≤ fuel)
    (t : Nat) :
    (∃ s', followPointer mem fuel t s = .null s') ∨
    ∃ segments r s', Laid mem 255 t segments r ∧ Written buffer (front ++ segments) s' ∧
      s'.buf = s.buf ∧ s'.bufSize = s.bufSize ∧
      (((dotted (front ++ segments)).length < DNS_NAME_SIZE ∧ mem r = 0 ∧
          followPointer mem fuel t s = .out (s'.look r)) ∨
        ((dotted (front ++ segments)).length = DNS_NAME_SIZE ∧
          followPointer mem fuel t s = .past s')) := by
  induction fuel generalizing t s front with
  | zero =>
      have size := written.nameSize
      have name := written.name
      refine .inr ⟨[], t, s, rfl, by rwa [List.append_nil], rfl, rfl, .inr ⟨?_, rfl⟩⟩
      rw [List.append_nil]
      omega
  | succ fuel past =>
      have size := written.nameSize
      have name := written.name
      rw [followPointer]
      split
      next room =>
        dsimp only
        split
        next zero =>
          refine .inr ⟨[], t, s, rfl, by rwa [List.append_nil], rfl, rfl, .inl ⟨?_, ?_, rfl⟩⟩
          · rw [List.append_nil]
            omega
          · exact BitVec.eq_of_toNat_eq zero
        next some' =>
          have looked : Written buffer front (s.look t) := written.of_eq rfl rfl rfl rfl
          have bytes : slice mem (t + 1) (slice mem (t + 1) (mem t).toNat).length =
              slice mem (t + 1) (mem t).toNat := by rw [slice_length]
          have copied := looked.copyLabel bytes
          have left := looked.room (slice mem (t + 1) (mem t).toNat)
          rw [slice_length] at copied left
          split
          next => exact .inl ⟨_, rfl⟩
          next enough' =>
            have smaller : _ ≤ s.nameSize := separate_nameSize_le (s.look t)
            obtain null | ⟨segments, r, s', laid, written', buf, bufSize, ending⟩ :=
              past copied (by omega) (by
                change ((s.look t).separate.nameSize - ((mem t).toNat : Int)).toNat ≤ fuel
                omega) (t + ((mem t).toNat + 1))
            · exact .inl null
            · have whole : front ++ slice mem (t + 1) (mem t).toNat :: segments =
                  (front ++ [slice mem (t + 1) (mem t).toNat]) ++ segments := by simp
              refine .inr ⟨slice mem (t + 1) (mem t).toNat :: segments, r, s', ?_, ?_, ?_, ?_, ?_⟩
              · refine ⟨List.ne_nil_of_length_pos (by rw [slice_length]; omega), ?_, ?_, bytes, ?_⟩
                · rw [slice_length]
                  have := (mem t).isLt
                  omega
                · rw [slice_length]
                · rw [slice_length]
                  exact laid
              · rw [whole]
                exact written'
              · rw [buf]
                exact separate_buf _
              · rw [bufSize]
                exact separate_bufSize _
              · rw [whole]
                exact ending
      next none =>
        refine .inr ⟨[], t, s, rfl, by rwa [List.append_nil], rfl, rfl, .inr ⟨?_, rfl⟩⟩
        rw [List.append_nil]
        omega

/-! ## The loop over a name -/

theorem pointer_bits (value : Byte) : value &&& 0xC0 = 0xC0 ↔ 192 ≤ value.toNat := by
  revert value
  decide

theorem nameLoop_laid {labels : List (List Byte)} {p q : Nat} (laid : Laid mem 63 p labels q)
    (written : Written buffer front s) (here : s.buf = p)
    (fits : (dotted (front ++ labels)).length ≤ DNS_NAME_SIZE) {compressFound : Bool}
    {fuel last : Nat} (inside : q ≤ last) (bufSize : s.bufSize = (last : Int) - p)
    (enough : s.bufSize.toNat ≤ fuel) :
    ∃ s' fuel', nameLoop mem fuel compressFound s = nameLoop mem fuel' compressFound s' ∧
      Written buffer (front ++ labels) s' ∧ s'.buf = q ∧ s'.bufSize = (last : Int) - q ∧
      s'.bufSize.toNat ≤ fuel' := by
  induction labels generalizing p s front fuel with
  | nil =>
      obtain rfl := laid
      exact ⟨s, fuel, rfl, by rwa [List.append_nil], here, bufSize, enough⟩
  | cons label rest past =>
      obtain ⟨some', short, length, bytes, after⟩ := laid
      have within : p + (label.length + 1) ≤ q := laid_le after
      have whole : front ++ label :: rest = (front ++ [label]) ++ rest := by simp
      rw [whole] at fits ⊢
      have first := (dotted_append_length (front ++ [label]) rest).trans fits
      have looked : Written buffer front (s.look p) := written.of_eq rfl rfl rfl rfl
      have size := List.length_pos_iff.mpr some'
      obtain ⟨-, room⟩ := looked.nameSize_pos some' first
      obtain ⟨fuel, rfl⟩ : ∃ less, fuel = less + 1 := ⟨fuel - 1, by omega⟩
      have copied := looked.copyLabel bytes
      let next := { (s.look p).separate.copyLabel mem (p + 1) label.length with
        bufSize := (s.look p).separate.bufSize - (label.length + 1),
        buf := p + (label.length + 1) }
      have nextSize : next.bufSize = s.bufSize - (label.length + 1) :=
        congrArg (· - ((label.length : Int) + 1)) (separate_bufSize _)
      have less : next.bufSize.toNat ≤ fuel := by omega
      obtain ⟨s', fuel', run, written', buf, bufSize', more⟩ :=
        past after (copied.of_eq rfl rfl rfl rfl : Written buffer (front ++ [label]) next) rfl fits
          (by omega) less
      refine ⟨s', fuel', ?_, written', buf, bufSize', more⟩
      have bits : ¬ mem p &&& 0xC0 = 0xC0 := fun bits => by
        have := (pointer_bits _).mp bits
        omega
      rw [← run, nameLoop, if_pos (by omega)]
      simp only [here, if_neg bits, length]
      rw [if_neg (by omega), if_neg (by
        rw [separate_bufSize]
        change ¬ ((label.length + 1 : Int) > s.bufSize ∨ _)
        omega)]

theorem nameLoop_zero {p fuel : Nat} (here : s.buf = p) (zero : mem p = 0)
    (bufSize : 0 < s.bufSize) (enough : s.bufSize.toNat ≤ fuel) (compressFound : Bool) :
    ∃ s', nameLoop mem fuel compressFound s = .out s' ∧
      s'.buf = (if compressFound then p else p + 1) ∧
      s'.buffer = Function.update s.buffer s.name 0 := by
  obtain ⟨fuel, rfl⟩ : ∃ less, fuel = less + 1 := ⟨fuel - 1, by omega⟩
  rw [nameLoop, if_pos bufSize]
  simp only [here, zero]
  rw [if_neg (by decide), if_pos (by decide)]
  exact ⟨_, rfl, rfl, rfl⟩

theorem nameLoop_pointer {q fuel : Nat} (here : s.buf = q) (pointer : IsPointer mem q)
    (bufSize : 0 < s.bufSize) (enough : s.bufSize.toNat ≤ fuel) (compressFound : Bool)
    (written : Written buffer front s) :
    ∃ s' fuel', nameLoop mem fuel compressFound s =
        (match followPointer mem s'.nameSize.toNat (mem (q + 1)).toNat s' with
          | .past s => nameLoop mem fuel' true s
          | left => left) ∧
      Written buffer front s' ∧ s'.buf = q + 2 ∧ s'.bufSize = s.bufSize - 2 ∧
      s'.bufSize.toNat ≤ fuel' := by
  obtain ⟨fuel, rfl⟩ : ∃ less, fuel = less + 1 := ⟨fuel - 1, by omega⟩
  rw [nameLoop, if_pos bufSize]
  simp only [here, if_pos ((pointer_bits _).mpr pointer)]
  refine ⟨{ (s.look q).look (q + 1) with bufSize := s.bufSize - 2, buf := q + 2 }, fuel, rfl,
    written.of_eq rfl rfl rfl rfl, rfl, rfl, ?_⟩
  change (s.bufSize - 2).toNat ≤ fuel
  omega

theorem followPointer_buf {fuel t : Nat} {s' : NameScan}
    (past : followPointer mem fuel t s = .past s') : s'.buf = s.buf := by
  induction fuel generalizing t s with
  | zero =>
      cases past
      rfl
  | succ fuel before =>
      rw [followPointer] at past
      split at past
      · dsimp only at past
        split at past
        · cases past
        · split at past
          · cases past
          · exact (before past).trans (separate_buf _)
      · cases past
        rfl

theorem followPointer_out_buf {fuel t : Nat} {s' : NameScan}
    (out : followPointer mem fuel t s = .out s') : s'.buf = s.buf := by
  induction fuel generalizing t s with
  | zero => cases out
  | succ fuel before =>
      rw [followPointer] at out
      split at out
      · dsimp only at out
        split at out
        · cases out
          rfl
        · split at out
          · cases out
          · exact (before out).trans (separate_buf _)
      · cases out

theorem nameLoop_buf {fuel : Nat} {compressFound : Bool} {s' : NameScan}
    (out : nameLoop mem fuel compressFound s = .out s') : s.buf ≤ s'.buf := by
  induction fuel generalizing s compressFound with
  | zero =>
      cases out
      exact le_rfl
  | succ fuel before =>
      rw [nameLoop] at out
      split at out
      · dsimp only at out
        split at out
        · split at out
          next past =>
            have moved := before out
            rw [followPointer_buf past] at moved
            change s.buf + 2 ≤ s'.buf at moved
            omega
          next left =>
            have still := followPointer_out_buf out
            change s'.buf = s.buf + 2 at still
            omega
        · split at out
          · cases out
            dsimp only
            split <;> omega
          · split at out
            · cases out
            · have moved := before out
              change s.buf + _ ≤ s'.buf at moved
              omega
      · cases out
        exact le_rfl

theorem nameLoop_full {fuel : Nat} (written : Written buffer front s)
    (full : (dotted front).length = DNS_NAME_SIZE) (enough : s.bufSize.toNat ≤ fuel)
    {s' : NameScan} (out : nameLoop mem fuel true s = .out s') (still : s'.buf = s.buf) :
    (s.bufSize ≤ 0 ∧ s'.buffer = s.buffer) ∨
      (0 < s.bufSize ∧ mem s.buf = 0 ∧ s'.buffer = Function.update s.buffer DNS_NAME_SIZE 0) := by
  by_cases bufSize : 0 < s.bufSize
  · by_cases zero : mem s.buf = 0
    · obtain ⟨closed, run, -, stored⟩ := nameLoop_zero rfl zero bufSize enough true
      obtain rfl := NameResult.out.inj (run.symm.trans out)
      exact .inr ⟨bufSize, zero, by rw [stored, written.name, full]⟩
    · exfalso
      by_cases pointer : IsPointer mem s.buf
      · obtain ⟨s₁, fuel', run, -, moved, -, -⟩ :=
          nameLoop_pointer rfl pointer bufSize enough true written
        rw [run] at out
        split at out
        next past =>
          have later := nameLoop_buf out
          rw [followPointer_buf past, moved] at later
          omega
        next =>
          rw [followPointer_out_buf out, moved] at still
          omega
      · obtain ⟨fuel, rfl⟩ : ∃ less, fuel = less + 1 := ⟨fuel - 1, by omega⟩
        have some' : ¬ (mem s.buf).toNat = 0 := fun none => zero (BitVec.eq_of_toNat_eq none)
        have filled : (s.look s.buf).separate.nameSize < 0 := by
          have count : 0 < s.count := by
            rw [written.count]
            refine List.length_pos_iff.mpr ?_
            rintro rfl
            exact absurd full (by decide)
          have size := written.nameSize
          rw [written.name, full] at size
          rw [NameScan.separate, if_pos (show (s.look s.buf).count > 0 from count)]
          change s.nameSize - 1 < 0
          omega
        rw [nameLoop, if_pos bufSize] at out
        simp only [if_neg fun bits => pointer ((pointer_bits _).mp bits), if_neg some'] at out
        rw [if_pos (.inr (by omega))] at out
        cases out
  · have none : nameLoop mem fuel true s = .out s := by
      cases fuel with
      | zero => rfl
      | succ fuel => rw [nameLoop, if_neg bufSize]
    obtain rfl := NameResult.out.inj (none.symm.trans out)
    exact .inl ⟨by omega, rfl⟩

/-! ## When a name is read -/

theorem Encodes.cases {p e : Nat} {labels : List (List Byte)} (encodes : Encodes mem p labels e) :
    (∃ q, Laid mem 63 p labels q ∧ mem q = 0 ∧ e = q + 1) ∨
      ∃ front back q, labels = front ++ back ∧ Laid mem 63 p front q ∧ IsPointer mem q ∧
        e = q + 2 := by
  induction encodes with
  | root closed => exact .inl ⟨_, rfl, closed, rfl⟩
  | label some' short length bytes after past =>
      obtain ⟨q, laid, closed, rfl⟩ | ⟨front, back, q, rfl, laid, pointer, rfl⟩ := past
      · exact .inl ⟨q, ⟨some', short, length, bytes, laid⟩, closed, rfl⟩
      · exact .inr ⟨_ :: front, back, q, rfl, ⟨some', short, length, bytes, laid⟩, pointer, rfl⟩
  | pointer pointer earlier there past =>
      exact .inr ⟨[], _, _, rfl, rfl, pointer, rfl⟩

theorem laid_unique {p q q' : Nat} {labels labels' : List (List Byte)}
    (laid : Laid mem 63 p labels q) (laid' : Laid mem 63 p labels' q')
    (stop : mem q = 0 ∨ IsPointer mem q) (stop' : mem q' = 0 ∨ IsPointer mem q') :
    labels = labels' ∧ q = q' := by
  have noLabel : ∀ {p : Nat} {label : List Byte}, label ≠ [] → label.length ≤ 63 →
      (mem p).toNat = label.length → ¬ (mem p = 0 ∨ IsPointer mem p) := by
    rintro p label some' short length (zero | pointer)
    · rw [zero] at length
      exact some' (List.eq_nil_of_length_eq_zero length.symm)
    · unfold IsPointer at pointer
      omega
  induction labels generalizing p labels' with
  | nil =>
      obtain rfl := laid
      cases labels' with
      | nil => exact ⟨rfl, laid'.symm⟩
      | cons label rest =>
          obtain ⟨some', short, length, -⟩ := laid'
          exact absurd stop (noLabel some' short length)
  | cons label rest past =>
      obtain ⟨some', short, length, bytes, after⟩ := laid
      cases labels' with
      | nil =>
          obtain rfl := laid'
          exact absurd stop' (noLabel some' short length)
      | cons label' rest' =>
          obtain ⟨-, -, length', bytes', after'⟩ := laid'
          have same : label.length = label'.length := length.symm.trans length'
          have equal : label = label' := by rw [← bytes, ← bytes', same]
          rw [← same] at after'
          obtain ⟨rfl, rfl⟩ := past after after'
          exact ⟨by rw [equal], rfl⟩

theorem written_start (p : Nat) (size : Int) (buffer : Nat → Byte) :
    Written buffer [] (NameScan.store ⟨p, size, buffer, 0, DNS_NAME_SIZE, 0, [], []⟩ 0) := by
  refine ⟨rfl, rfl, rfl, ?_⟩
  rw [show dotted [] = [] from rfl]
  funext i
  exact (blit_outside (by simp)).symm

theorem holdsText_closed (buffer : Nat → Byte) (text : List Byte) :
    HoldsText (Function.update (blit buffer 0 text) text.length 0) text := by
  have joined := blit_append buffer 0 text [0]
  rw [Nat.zero_add, blit_singleton] at joined
  have read : slice (blit buffer 0 (text ++ [0])) (0 + 0) (text.length + 1) =
      ((text ++ [0]).drop 0).take (text.length + 1) := slice_blit_inside (by simp)
  rw [HoldsText, joined]
  refine read.trans ?_
  simp

theorem dnsPktToName_laid {p q size : Nat} {labels : List (List Byte)}
    (laid : Laid mem 63 p labels q) (fits : (dotted labels).length ≤ DNS_NAME_SIZE)
    (inside : q ≤ p + size) (buffer : Nat → Byte) :
    ∃ s fuel, dnsPktToName mem p size buffer DNS_NAME_SIZE = nameLoop mem fuel false s ∧
      Written buffer labels s ∧ s.buf = q ∧ s.bufSize = ((p + size : Nat) : Int) - q ∧
      s.bufSize.toNat ≤ fuel :=
  nameLoop_laid laid (written_start p size buffer) rfl fits inside
    (by change (size : Int) = _; omega) (Int.toNat_natCast size).le

theorem readsName_plain {p q size : Nat} {labels : List (List Byte)} (laid : Laid mem 63 p labels q)
    (closed : mem q = 0) (fits : (dotted labels).length ≤ DNS_NAME_SIZE)
    (inside : q + 1 ≤ p + size) (buffer : Nat → Byte) :
    ReadsName mem p size buffer labels (q + 1) := by
  obtain ⟨s', fuel', run, written, here, bufSize, enough⟩ :=
    dnsPktToName_laid laid fits (Nat.le_of_succ_le inside) buffer
  obtain ⟨out, run', buf, stored⟩ := nameLoop_zero here closed (by omega) enough false
  refine ⟨out, run.trans run', buf, ?_⟩
  rw [stored, written.filled, written.name]
  exact holdsText_closed _ _

theorem nameLoop_toPointer {p q size : Nat} {front : List (List Byte)}
    (laid : Laid mem 63 p front q) (pointer : IsPointer mem q)
    (fits : (dotted front).length ≤ DNS_NAME_SIZE) (inside : q + 2 ≤ p + size)
    (buffer : Nat → Byte) :
    ∃ s fuel, dnsPktToName mem p size buffer DNS_NAME_SIZE =
        (match followPointer mem s.nameSize.toNat (mem (q + 1)).toNat s with
          | .past s => nameLoop mem fuel true s
          | left => left) ∧
      Written buffer front s ∧ s.buf = q + 2 ∧
      s.bufSize = ((p + size : Nat) : Int) - (q + 2 : Nat) ∧ s.bufSize.toNat ≤ fuel := by
  obtain ⟨s₁, fuel₁, run₁, written₁, here₁, bufSize₁, enough₁⟩ :=
    dnsPktToName_laid laid fits ((Nat.le_add_right q 2).trans inside) buffer
  obtain ⟨s₂, fuel₂, run₂, written₂, here₂, bufSize₂, enough₂⟩ :=
    nameLoop_pointer here₁ pointer (by omega) enough₁ false written₁
  exact ⟨s₂, fuel₂, run₁.trans run₂, written₂, here₂, by omega, enough₂⟩

theorem pointerReads_of_readsName {p q size : Nat} {labels : List (List Byte)}
    (laid : Laid mem 63 p front q) (pointer : IsPointer mem q)
    (fits : (dotted front).length ≤ DNS_NAME_SIZE) (inside : q + 2 ≤ p + size)
    (reads : ReadsName mem p size buffer labels (q + 2)) :
    ∃ segments r, Laid mem 255 (mem (q + 1)).toNat segments r ∧
      PointerReads mem (p + size) buffer (dotted labels) (dotted (front ++ segments)) q r := by
  obtain ⟨s, run, buf, holds⟩ := reads
  obtain ⟨s₁, fuel, scan, written, here, bufSize, enough⟩ :=
    nameLoop_toPointer laid pointer fits inside buffer
  rw [scan] at run
  obtain ⟨_, null⟩ | ⟨segments, r, s₂, laid', written', buf', bufSize', ending⟩ :=
    followPointer_cases written fits le_rfl (mem (q + 1)).toNat
  · rw [null] at run
    cases run
  · refine ⟨segments, r, laid', ?_⟩
    obtain ⟨short, zero, out⟩ | ⟨full, past⟩ := ending
    · rw [out] at run
      obtain rfl := NameResult.out.inj run
      refine .inl ⟨short, zero, ?_⟩
      rw [← written'.filled]
      exact holds
    · rw [past] at run
      have still : s.buf = s₂.buf := by rw [buf, buf', here]
      refine .inr ⟨full, ?_⟩
      obtain ⟨longer, same⟩ | ⟨room, zero, stored⟩ :=
        nameLoop_full written' full (bufSize'.symm ▸ enough) run still
      · refine .inl ⟨by omega, ?_⟩
        rw [← written'.filled, ← same]
        exact holds
      · rw [buf', here] at zero
        refine .inr ⟨by omega, zero, ?_⟩
        rw [← written'.filled, ← stored]
        exact holds

theorem readsName_of_pointerReads {p q r size : Nat} {labels segments : List (List Byte)}
    (laid : Laid mem 63 p front q) (pointer : IsPointer mem q)
    (fits : (dotted front).length ≤ DNS_NAME_SIZE) (inside : q + 2 ≤ p + size)
    (laid' : Laid mem 255 (mem (q + 1)).toNat segments r)
    (reads : PointerReads mem (p + size) buffer (dotted labels) (dotted (front ++ segments)) q r) :
    ReadsName mem p size buffer labels (q + 2) := by
  obtain ⟨s, fuel, scan, written, here, bufSize, enough⟩ :=
    nameLoop_toPointer laid pointer fits inside buffer
  have fits' : (dotted (front ++ segments)).length ≤ DNS_NAME_SIZE := by
    obtain ⟨short, -⟩ | ⟨full, -⟩ := reads
    · exact short.le
    · exact full.le
  obtain ⟨s₁, fuel₁, run, written₁, buf, bufSize₁, enough₁⟩ :=
    followPointer_laid laid' written fits' le_rfl
  have size₁ := written₁.nameSize
  have name₁ := written₁.name
  obtain ⟨short, zero, holds⟩ | ⟨full, ending⟩ := reads
  · have out : followPointer mem fuel₁ r s₁ = .out (s₁.look r) := by
      obtain ⟨less, rfl⟩ : ∃ less, fuel₁ = less + 1 := ⟨fuel₁ - 1, by omega⟩
      rw [followPointer, if_pos (by omega)]
      simp only [zero]
      rfl
    rw [run, out] at scan
    refine ⟨_, scan, buf.trans here, ?_⟩
    change HoldsText s₁.buffer _
    rw [written₁.filled]
    exact holds
  · have past : followPointer mem fuel₁ r s₁ = .past s₁ := by
      cases fuel₁ with
      | zero => rfl
      | succ less => rw [followPointer, if_neg (by omega)]
    rw [run, past] at scan
    have enough' : s₁.bufSize.toNat ≤ fuel := bufSize₁.symm ▸ enough
    obtain ⟨last, holds⟩ | ⟨more, zero, holds⟩ := ending
    · have out : nameLoop mem fuel true s₁ = .out s₁ := by
        cases fuel with
        | zero => rfl
        | succ less => rw [nameLoop, if_neg (by omega)]
      refine ⟨s₁, scan.trans out, buf.trans here, ?_⟩
      rw [written₁.filled]
      exact holds
    · obtain ⟨s₂, out, buf₂, stored⟩ :=
        nameLoop_zero (buf.trans here) zero (by omega) enough' true
      refine ⟨s₂, scan.trans out, buf₂, ?_⟩
      rw [stored, written₁.filled, name₁, full]
      exact holds

theorem readsName_iff {p e size : Nat} {labels : List (List Byte)}
    (encodes : Encodes mem p labels e) (fits : (dotted labels).length ≤ DNS_NAME_SIZE)
    (inside : e ≤ p + size) (buffer : Nat → Byte) :
    ReadsName mem p size buffer labels e ↔ NameCondition mem p size buffer labels := by
  obtain ⟨q, laid, closed, rfl⟩ | ⟨front, back, q, rfl, laid, pointer, rfl⟩ := encodes.cases
  · exact ⟨fun _ => .inl ⟨q, laid, closed⟩, fun _ => readsName_plain laid closed fits inside buffer⟩
  · have fits' := (dotted_append_length front back).trans fits
    constructor
    · intro reads
      obtain ⟨segments, r, laid', completes⟩ :=
        pointerReads_of_readsName laid pointer fits' inside reads
      exact .inr ⟨front, q, segments, r, laid, pointer, laid', completes⟩
    · rintro (⟨q', whole, closed⟩ | ⟨front', q', segments, r, laid', pointer', there, completes⟩)
      · obtain ⟨-, rfl⟩ := laid_unique laid whole (.inr pointer) (.inl closed)
        rw [IsPointer, closed] at pointer
        exact absurd pointer (by decide)
      · obtain ⟨rfl, rfl⟩ := laid_unique laid laid' (.inr pointer) (.inr pointer')
        exact readsName_of_pointerReads laid pointer fits' inside there completes

/-! ## The name of a query -/

/-- The labels of a host name. -/
structure HostLabel (label : List Byte) : Prop where
  some : label ≠ []
  short : label.length ≤ 63
  noDot : dot ∉ label
  noZero : 0 ∉ label

theorem queryChar_label {label : List Byte} (noDot : dot ∉ label) (noZero : 0 ∉ label)
    (buf : Nat → Byte) (cp2 cp3 : Nat) :
    label.foldl queryChar ⟨buf, cp2, cp3⟩ = ⟨blit buf cp2 label, cp2 + label.length, cp3⟩ := by
  induction label generalizing buf cp2 with
  | nil =>
      have same : blit buf cp2 [] = buf :=
        funext fun i => blit_outside (by rw [List.length_nil]; omega)
      rw [same]
      rfl
  | cons char rest past =>
      rw [List.mem_cons, not_or] at noDot noZero
      have copied : queryChar ⟨buf, cp2, cp3⟩ char =
          ⟨Function.update buf cp2 char, cp2 + 1, cp3⟩ := by
        rw [queryChar, if_neg (not_or.mpr ⟨Ne.symm noDot.1, Ne.symm noZero.1⟩)]
      have joined := blit_append buf cp2 [char] rest
      rw [blit_singleton, List.length_singleton] at joined
      rw [List.foldl_cons, copied, past noDot.2 noZero.2, joined, List.length_cons]
      exact congrArg (QueryScan.mk _ · cp3) (by omega)

theorem queryChar_separator (buf : Nat → Byte) (label : List Byte) (place : Nat) {cc : Byte}
    (separator : cc = dot ∨ cc = 0) (short : label.length ≤ 63) :
    ∃ buf', queryChar ⟨blit buf (place + 1) label, place + 1 + label.length, place⟩ cc =
        ⟨buf', place + 1 + label.length + 1, place + 1 + label.length⟩ ∧
      (buf' place).toNat = label.length ∧ slice buf' (place + 1) label.length = label ∧
      buf' (place + 1 + label.length) = cc ∧ ∀ i < place, buf' i = buf i := by
  rw [queryChar, if_pos separator]
  refine ⟨Function.update (Function.update (blit buf (place + 1) label) place
      (BitVec.ofNat 8 (place + 1 + label.length - place - 1))) (place + 1 + label.length) cc,
    rfl, ?_, ?_, Function.update_self .., fun i before => ?_⟩
  · rw [Function.update_of_ne (by omega), Function.update_self, BitVec.toNat_ofNat]
    omega
  · calc
      _ = slice (blit buf (place + 1) label) (place + 1 + 0) label.length :=
        slice_congr fun i inside => by
          rw [Function.update_of_ne (by omega), Function.update_of_ne (by omega), Nat.add_zero]
      _ = label := by
        rw [slice_blit_inside (by omega), List.drop_zero, List.take_length]
  · rw [Function.update_of_ne (by omega), Function.update_of_ne (by omega), blit_outside (by omega)]

/-- The characters of a name and its zero are written as labels closed by a zero byte, and
what stands before them is kept. -/
theorem queryChar_laid {label : List Byte} {rest : List (List Byte)}
    (host : ∀ each ∈ label :: rest, HostLabel each) (buf : Nat → Byte) (place : Nat) :
    ∃ q s, (dotted (label :: rest) ++ [0]).foldl queryChar ⟨buf, place + 1, place⟩ = s ∧
      Laid s.buf 63 place (label :: rest) q ∧ s.buf q = 0 ∧ s.cp2 = q + 1 ∧
      ∀ i < place, s.buf i = buf i := by
  induction rest generalizing label buf place with
  | nil =>
      obtain ⟨some', short, noDot, noZero⟩ := host label (List.mem_singleton_self label)
      obtain ⟨buf', run, length, bytes, closed, before⟩ :=
        queryChar_separator buf label place (.inr rfl) short
      refine ⟨place + 1 + label.length,
        ⟨buf', place + 1 + label.length + 1, place + 1 + label.length⟩, ?_,
        ⟨some', short, length, bytes, ?_⟩, closed, rfl, before⟩
      · rw [show dotted [label] = label from List.append_nil label, List.foldl_append,
          queryChar_label noDot noZero]
        exact run
      · exact (by omega : place + 1 + label.length = place + (label.length + 1))
  | cons next rest past =>
      obtain ⟨some', short, noDot, noZero⟩ := host label List.mem_cons_self
      obtain ⟨buf', run, length, bytes, -, before⟩ :=
        queryChar_separator buf label place (.inl rfl) short
      obtain ⟨q, s, written, laid, closed, cp2, kept⟩ :=
        past (fun each member => host each (List.mem_cons_of_mem _ member)) buf'
          (place + 1 + label.length)
      have split : dotted (label :: next :: rest) ++ [0] =
          label ++ dot :: (dotted (next :: rest) ++ [0]) := by
        simp [dotted]
      refine ⟨q, s, ?_, ⟨some', short, ?_, ?_, ?_⟩, closed, cp2, fun i lower => ?_⟩
      · rw [split, List.foldl_append, queryChar_label noDot noZero, List.foldl_cons, run]
        exact written
      · rw [kept place (by omega)]
        exact length
      · rw [← bytes, slice_length]
        exact slice_congr fun i inside => kept _ (by omega)
      · rw [show place + (label.length + 1) = place + 1 + label.length by omega]
        exact laid
      · rw [kept i (by omega), before i lower]

theorem readsName_encodeQuery {labels : List (List Byte)} {place size : Nat} {buf : Nat → Byte}
    (some' : labels ≠ []) (host : ∀ label ∈ labels, HostLabel label)
    (fits : (dotted labels).length ≤ DNS_NAME_SIZE)
    (inside : (encodeQuery buf place (dotted labels)).cp2 ≤ place + size) (buffer : Nat → Byte) :
    ReadsName (encodeQuery buf place (dotted labels)).buf place size buffer labels
      (encodeQuery buf place (dotted labels)).cp2 := by
  obtain ⟨label, rest, rfl⟩ := List.exists_cons_of_ne_nil some'
  obtain ⟨q, s, run, laid, closed, cp2, -⟩ := queryChar_laid host buf place
  rw [encodeQuery, run] at inside ⊢
  rw [cp2] at inside ⊢
  exact readsName_plain laid closed fits inside buffer

/-! ## The result -/

/-- **`dns_pkt_to_name` and the encodings of a name.** A name of the packet is read if and
only if it has no pointer, or what stands at the low byte of the offset of its first
pointer completes the text; the name that the client writes in a query is read. -/
theorem dnsName_iff {labels : List (List Byte)} (fits : (dotted labels).length ≤ DNS_NAME_SIZE)
    (buffer : Nat → Byte) :
    (∀ {mem : Nat → Byte} {p e size : Nat}, Encodes mem p labels e → e ≤ p + size →
      (ReadsName mem p size buffer labels e ↔ NameCondition mem p size buffer labels)) ∧
      ∀ {place size : Nat} {buf : Nat → Byte}, labels ≠ [] → (∀ label ∈ labels, HostLabel label) →
        (encodeQuery buf place (dotted labels)).cp2 ≤ place + size →
          ReadsName (encodeQuery buf place (dotted labels)).buf place size buffer labels
            (encodeQuery buf place (dotted labels)).cp2 :=
  ⟨fun encodes inside => readsName_iff encodes fits inside buffer,
    fun some' host inside => readsName_encodeQuery some' host fits inside buffer⟩

/-- A packet with the name `b` at offset 12 and the name `a` at offset 268, and a pointer
to the second one. -/
def farPacket : Nat → Byte :=
  blit (blit (blit (fun _ => 0) 12 [1, 0x62]) 268 [1, 0x61]) 300 [0xC1, 0x0C]

theorem farPacket_encodes : Encodes farPacket 300 [[0x61]] 302 :=
  .pointer (by decide) (by decide)
    (.label (List.cons_ne_nil _ _) (by decide) (by decide) (by decide) (.root (by decide)))

/-- The pointer there is read by its low byte: the buffer gets the name `b`. -/
theorem dnsName_pointer :
    Encodes farPacket 300 [[0x61]] 302 ∧ (dotted [[0x61]]).length ≤ DNS_NAME_SIZE ∧
      302 ≤ 300 + 2 ∧ ¬ ReadsName farPacket 300 2 (fun _ => 0) [[0x61]] 302 := by
  refine ⟨farPacket_encodes, by decide, by decide, ?_⟩
  rintro ⟨s, run, -, holds⟩
  have first : (match dnsPktToName farPacket 300 (2 : Nat) (fun _ => 0) DNS_NAME_SIZE with
      | .out s => s.buffer 0
      | _ => 0) = 0x62 := by decide +kernel
  rw [run] at first
  have text : s.buffer 0 = 0x61 := (List.cons.inj holds).1
  exact absurd (text.symm.trans first) (by decide)

/-- A packet with the name `a.b` at offset 12, and at offset 40 the label `a` and a pointer
to the label `b` there. -/
def nearPacket : Nat → Byte :=
  blit (blit (fun _ => 0) 12 [1, 0x61, 1, 0x62]) 40 [1, 0x61, 0xC0, 14]

/-- A pointer within the first 256 bytes is read into a buffer of zeros, and so is a query. -/
theorem dnsName_iff_near :
    ReadsName nearPacket 40 4 (fun _ => 0) [[0x61], [0x62]] 44 ∧
      ReadsName (encodeQuery (fun _ => 0) 12 (dotted [[0x61], [0x62]])).buf 12 5 (fun _ => 0xFF)
        [[0x61], [0x62]] 17 := by
  have host : ∀ label ∈ [[(0x61 : Byte)], [0x62]], HostLabel label := by
    intro label member
    obtain rfl | rfl : label = [0x61] ∨ label = [0x62] := by simpa using member
    · exact ⟨by decide, by decide, by decide, by decide⟩
    · exact ⟨by decide, by decide, by decide, by decide⟩
  refine ⟨?_, (dnsName_iff (by decide) _).2 (by decide) host (by decide)⟩
  refine ((dnsName_iff (by decide) _).1 ?_ (by decide)).mpr ?_
  · exact .label (List.cons_ne_nil _ _) (by decide) (by decide) (by decide)
      (.pointer (by decide) (by decide)
        (.label (List.cons_ne_nil _ _) (by decide) (by decide) (by decide) (.root (by decide))))
  · refine .inr ⟨[[0x61]], 42, [[0x62]], 16, ?_, by decide, ?_,
      .inl ⟨by decide, by decide, by decide⟩⟩
    · exact ⟨List.cons_ne_nil _ _, by decide, by decide, by decide, rfl⟩
    · exact ⟨List.cons_ne_nil _ _, by decide, by decide, by decide, rfl⟩

end PosFirmware.IpStack
