import PosFirmware.Foundation.Loop
import PosFirmware.Ppp.Device

/-!
# A control packet under work

The control protocols read a received packet, change it in place into the reply and collect
the options to refuse in the two halves of `t_buf`. Every look at the packet and every write
is checked against the bytes received or written, the end of the packet's buffer and the
halves; `safe` stays set while all of them were inside.
-/

namespace PosFirmware.Ppp

open PosFirmware.Foundation

/-- `naklimit` and `rejlimit`, the length of each half of `t_buf`. -/
def naklimit : Nat := (PPP_MSS + PPP_HEADER_SPACE + 2) / 2

/-- The packet and `t_buf`. -/
structure Skb where
  /-- The bytes from `skb->data` on. -/
  mem : Nat → Byte
  /-- `skb->len`. -/
  len : Nat
  /-- Number of bytes from `skb->data` on that were received, or written since. -/
  size : Nat
  /-- Number of bytes from `skb->data` to the end of the buffer. -/
  room : Nat
  /-- `t_buf`. -/
  tbuf : Nat → Byte
  /-- No access was outside. -/
  safe : Bool

namespace Skb

/-- A number of bytes is looked at. -/
def look (skb : Skb) (at_ n : Nat) : Skb :=
  { skb with safe := skb.safe && decide (at_ + n ≤ skb.size) }

/-- Bytes are written in place. -/
def poke (skb : Skb) (at_ : Nat) (bytes : List Byte) : Skb :=
  { skb with
    mem := blit skb.mem at_ bytes
    size := if at_ ≤ skb.size then max skb.size (at_ + bytes.length) else skb.size
    safe := skb.safe && decide (at_ + bytes.length ≤ skb.room) }

/-- A number of bytes is looked at where `saved` bytes were saved. -/
def lookSaved (skb : Skb) (at_ saved n : Nat) : Skb :=
  { skb with safe := skb.safe && decide (n ≤ saved ∨ at_ + n ≤ skb.size) }

/-- An option goes behind those in a half of `t_buf`. -/
def refuse (skb : Skb) (half listed at_ n : Nat) : Skb :=
  { skb.look at_ n with
    tbuf := blit skb.tbuf (half + listed) (slice skb.mem at_ n)
    safe := (skb.look at_ n).safe && decide (listed + n ≤ naklimit) }

/-- The options in a half of `t_buf` are the data of the reply. -/
def reply (skb : Skb) (half listed : Nat) : Skb := skb.poke 4 (slice skb.tbuf half listed)

/-- `__skb_trim`. -/
def trim (skb : Skb) (len : Nat) : Skb := { skb with len }

/-- A byte as a number. -/
def num (skb : Skb) (i : Nat) : Nat := (skb.mem i).toNat

/-- Two bytes, the high one first. -/
def num16 (skb : Skb) (i : Nat) : Nat := 256 * skb.num i + skb.num (i + 1)

/-- Four bytes, the high one first. -/
def word (skb : Skb) (i : Nat) : Word := BitVec.ofNat 32 (65536 * skb.num16 i + skb.num16 (i + 2))

/-- `i1`: the length of the data by the length field. -/
def dataLength (skb : Skb) : Int := (skb.num16 2 : Int) - 4

/-- The length field of a reply. -/
def setLength (skb : Skb) (length : Nat) : Skb :=
  skb.poke 2 [BitVec.ofNat 8 (length / 256), BitVec.ofNat 8 length]

/-- The bytes to send. -/
def bytes (skb : Skb) : List Byte := slice skb.mem 0 skb.len

/-- `__skb_pull`: a packet that is too short stays as it is. -/
def pull (skb : Skb) (n : Nat) : Skb :=
  if skb.len < n then skb
  else
    { skb with
      mem := fun i => skb.mem (n + i)
      len := skb.len - n
      size := skb.size - n
      room := skb.room - n }

end Skb

/-- What becomes of a packet. -/
inductive Fate where
  /-- `skb_free`. -/
  | freed
  /-- `ppp_xmit`, which copies the packet and frees it. -/
  | sent (proto : BitVec 16) (bytes : List Byte)
  /-- `ip_input`. -/
  | toIp

/-- What a handler leaves: its result, the link, the packet and what became of it. -/
structure Handled where
  err : Int
  dev : PppDev
  skb : Skb
  fates : List Fate

def PPP_OK : Int := 0
def PPP_REJ : Int := -1
def PPP_TERM : Int := -2

/-- A packet that is freed. -/
def freed (err : Int) (dev : PppDev) (skb : Skb) : Handled := ⟨err, dev, skb, [.freed]⟩

/-- A packet that is sent back. -/
def sent (err : Int) (proto : BitVec 16) (dev : PppDev) (skb : Skb) : Handled :=
  ⟨err, dev, skb, [.sent proto skb.bytes]⟩

/-- A packet nothing becomes of. -/
def forgotten (err : Int) (dev : PppDev) (skb : Skb) : Handled := ⟨err, dev, skb, []⟩

/-- The walk over the options of a packet: the link, the packet, where the next option is, the
length that is left and the lengths of both lists. -/
structure OptionWalk where
  dev : PppDev
  skb : Skb
  /-- `cp2`. -/
  pos : Nat
  /-- `i1`. -/
  left : Int
  naklen : Nat
  rejlen : Nat

/-- The walk starts behind the header. -/
def OptionWalk.start (dev : PppDev) (skb : Skb) : OptionWalk := ⟨dev, skb, 4, skb.dataLength, 0, 0⟩

/-- The walk over the options, by the bytes of the packet alone: it comes to an option that
meets a condition before one that stops it. -/
def walkMeets (stops : Nat → Nat → Bool) (meets : Nat → Nat → Bool) (mem : Nat → Byte) :
    Nat → Nat → Int → Bool
  | 0, _, _ => false
  | rounds + 1, pos, left =>
    let us1 := (mem pos).toNat
    let us2 := (mem (pos + 1)).toNat
    if left ≤ 0 ∨ stops us1 us2 then false
    else meets pos us1 || walkMeets stops meets mem rounds (pos + us2) (left - us2)

/-- An option is put to those to be changed. -/
def OptionWalk.nak (w : OptionWalk) (us2 : Nat) : OptionWalk :=
  { w with skb := w.skb.refuse 0 w.naklen w.pos us2, naklen := w.naklen + us2 }

/-- An option is put to those to be left out. -/
def OptionWalk.rej (w : OptionWalk) (us2 : Nat) : OptionWalk :=
  { w with skb := w.skb.refuse naklimit w.rejlen w.pos us2, rejlen := w.rejlen + us2 }

/-- A loop left the function with an error that forgets the packet. -/
def endsWithTerm : Outcome OptionWalk → Bool
  | .returned err _ => err = PPP_TERM
  | .running _ => false

/-- **A loop over options leaves the function where the bytes say so**, if each round does. -/
theorem endsWithTerm_run {round : OptionWalk → Outcome OptionWalk} {stops meets : Nat → Nat → Bool}
    {mem : Nat → Byte}
    (stopped : ∀ w : OptionWalk, w.skb.mem = mem →
      w.left ≤ 0 ∨ stops (mem w.pos).toNat (mem (w.pos + 1)).toNat = true →
      ∃ after, round w = .returned PPP_OK after)
    (met : ∀ w : OptionWalk, w.skb.mem = mem →
      ¬ (w.left ≤ 0 ∨ stops (mem w.pos).toNat (mem (w.pos + 1)).toNat = true) →
      meets w.pos (mem w.pos).toNat = true → ∃ after, round w = .returned PPP_TERM after)
    (passed : ∀ w : OptionWalk, w.skb.mem = mem →
      ¬ (w.left ≤ 0 ∨ stops (mem w.pos).toNat (mem (w.pos + 1)).toNat = true) →
      meets w.pos (mem w.pos).toNat = false →
      ∃ after, round w = .running after ∧ after.skb.mem = mem ∧
        after.pos = w.pos + (mem (w.pos + 1)).toNat ∧
        after.left = w.left - (mem (w.pos + 1)).toNat)
    (rounds : Nat) (w : OptionWalk) (same : w.skb.mem = mem) :
    endsWithTerm (Outcome.run round (.running w) rounds) =
      walkMeets stops meets mem rounds w.pos w.left := by
  induction rounds generalizing w with
  | zero => rfl
  | succ rounds past =>
    rw [Outcome.run_next, Outcome.next_running, walkMeets]
    split
    · next ends =>
      obtain ⟨after, run⟩ := stopped w same ends
      rw [run, Outcome.run_returned]
      rfl
    · next goes =>
      cases found : meets w.pos (mem w.pos).toNat with
      | true =>
        obtain ⟨after, run⟩ := met w same goes found
        rw [run, Outcome.run_returned]
        rfl
      | false =>
        obtain ⟨after, run, mem', pos, left⟩ := passed w same goes found
        rw [run, past after mem', pos, left, Bool.false_or]

/-! ## Accesses of a control packet

Lemmas about `safe`: what a look, a write and a refusal need. `WalkFits` holds while a walk
over options was safe: both lists are no longer than what was walked over, and fit into the
packet. `optionLoop_safe` reduces the safety of a walk to that of its rounds.
-/

namespace Skb

@[simp] theorem look_safe (skb : Skb) (at_ n : Nat) :
    (skb.look at_ n).safe = true ↔ skb.safe = true ∧ at_ + n ≤ skb.size := by
  simp [look]

@[simp] theorem look_size (skb : Skb) (at_ n : Nat) : (skb.look at_ n).size = skb.size := rfl

@[simp] theorem look_room (skb : Skb) (at_ n : Nat) : (skb.look at_ n).room = skb.room := rfl

@[simp] theorem look_mem (skb : Skb) (at_ n : Nat) : (skb.look at_ n).mem = skb.mem := rfl

@[simp] theorem lookSaved_safe (skb : Skb) (at_ saved n : Nat) :
    (skb.lookSaved at_ saved n).safe = true ↔
      skb.safe = true ∧ (n ≤ saved ∨ at_ + n ≤ skb.size) := by
  simp [lookSaved]

@[simp] theorem poke_safe (skb : Skb) (at_ : Nat) (bytes : List Byte) :
    (skb.poke at_ bytes).safe = true ↔ skb.safe = true ∧ at_ + bytes.length ≤ skb.room := by
  simp [poke]

@[simp] theorem poke_room (skb : Skb) (at_ : Nat) (bytes : List Byte) :
    (skb.poke at_ bytes).room = skb.room := rfl

theorem poke_size (skb : Skb) {at_ : Nat} (bytes : List Byte) (known : at_ ≤ skb.size) :
    (skb.poke at_ bytes).size = max skb.size (at_ + bytes.length) := if_pos known

@[simp] theorem refuse_safe (skb : Skb) (half listed at_ n : Nat) :
    (skb.refuse half listed at_ n).safe = true ↔
      skb.safe = true ∧ at_ + n ≤ skb.size ∧ listed + n ≤ naklimit := by
  simp [refuse, and_assoc]

@[simp] theorem refuse_size (skb : Skb) (half listed at_ n : Nat) :
    (skb.refuse half listed at_ n).size = skb.size := rfl

@[simp] theorem refuse_room (skb : Skb) (half listed at_ n : Nat) :
    (skb.refuse half listed at_ n).room = skb.room := rfl

@[simp] theorem reply_safe (skb : Skb) (half listed : Nat) :
    (skb.reply half listed).safe = true ↔ skb.safe = true ∧ 4 + listed ≤ skb.room := by
  simp [reply]

@[simp] theorem reply_room (skb : Skb) (half listed : Nat) :
    (skb.reply half listed).room = skb.room := rfl

@[simp] theorem trim_safe (skb : Skb) (len : Nat) : (skb.trim len).safe = skb.safe := rfl

@[simp] theorem trim_room (skb : Skb) (len : Nat) : (skb.trim len).room = skb.room := rfl

@[simp] theorem setLength_safe (skb : Skb) (length : Nat) :
    (skb.setLength length).safe = true ↔ skb.safe = true ∧ 4 ≤ skb.room := by
  simp [setLength]

end Skb

/-- A walk over options that was safe so far: what was refused is no longer than what was
walked over, and it was in the packet. -/
structure WalkFits (w : OptionWalk) : Prop where
  header : 4 ≤ w.skb.room
  inside : w.skb.size ≤ w.skb.room
  naklen : w.naklen + 4 ≤ w.pos
  rejlen : w.rejlen + 4 ≤ w.pos
  nakked : w.naklen = 0 ∨ w.naklen + 4 ≤ w.skb.size
  rejected : w.rejlen = 0 ∨ w.rejlen + 4 ≤ w.skb.size

theorem WalkFits.start (dev : PppDev) {skb : Skb} (inside : skb.size ≤ skb.room)
    (header : 4 ≤ skb.room) : WalkFits (OptionWalk.start dev skb) :=
  ⟨header, inside, le_rfl, le_rfl, .inl rfl, .inl rfl⟩

theorem WalkFits.replies {w : OptionWalk} (fits : WalkFits w) :
    4 + w.naklen ≤ w.skb.room ∧ 4 + w.rejlen ≤ w.skb.room := by
  obtain ⟨header, inside, -, -, nakked, rejected⟩ := fits
  omega

/-- The option at the place of a walk fits into a list of this length. -/
def RefusedFits (w : OptionWalk) (listed n : Nat) : Prop :=
  w.pos + n ≤ w.skb.size ∧ listed + n ≤ naklimit

instance (w : OptionWalk) (listed n : Nat) : Decidable (RefusedFits w listed n) :=
  inferInstanceAs (Decidable (_ ∧ _))

/-- What a step over an option of some bytes does: a list grows by as much, from known bytes. -/
structure StepsOver (w after : OptionWalk) (n : Nat) : Prop where
  pos : after.pos = w.pos
  room : after.skb.room = w.skb.room
  size : w.skb.size ≤ after.skb.size
  inside : after.skb.size ≤ after.skb.room
  naklen : after.naklen = w.naklen ∨ after.naklen = w.naklen + n ∧ w.pos + n ≤ after.skb.size
  rejlen : after.rejlen = w.rejlen ∨ after.rejlen = w.rejlen + n ∧ w.pos + n ≤ after.skb.size

theorem WalkFits.over {w after : OptionWalk} {n : Nat} (fits : WalkFits w)
    (step : StepsOver w after n) : WalkFits { after with pos := after.pos + n } := by
  obtain ⟨header, inside, naklen, rejlen, nakked, rejected⟩ := fits
  obtain ⟨pos, room, size, inside', naklen', rejlen'⟩ := step
  refine ⟨?_, inside', ?_, ?_, ?_, ?_⟩ <;> simp only <;> omega

theorem StepsOver.looked {w after : OptionWalk} (n : Nat) (inside : w.skb.size ≤ w.skb.room)
    (pos : after.pos = w.pos) (room : after.skb.room = w.skb.room)
    (size : after.skb.size = w.skb.size) (naklen : after.naklen = w.naklen)
    (rejlen : after.rejlen = w.rejlen) : StepsOver w after n :=
  ⟨pos, room, size.ge, by rw [size, room]; exact inside, .inl naklen, .inl rejlen⟩

theorem Skb.poke_inside {skb : Skb} {at_ : Nat} {bytes : List Byte} (inside : skb.size ≤ skb.room)
    (written : at_ + bytes.length ≤ skb.room) :
    skb.size ≤ (skb.poke at_ bytes).size ∧ (skb.poke at_ bytes).size ≤ skb.room := by
  simp only [poke]
  split <;> omega

theorem nak_safe (w : OptionWalk) (n : Nat) :
    (w.nak n).skb.safe = true ↔ w.skb.safe = true ∧ RefusedFits w w.naklen n := by
  simp [OptionWalk.nak, RefusedFits]

theorem rej_safe (w : OptionWalk) (n : Nat) :
    (w.rej n).skb.safe = true ↔ w.skb.safe = true ∧ RefusedFits w w.rejlen n := by
  simp [OptionWalk.rej, RefusedFits]

theorem StepsOver.rej {w : OptionWalk} {n : Nat} (inside : w.skb.size ≤ w.skb.room)
    (refused : RefusedFits w w.rejlen n) : StepsOver w (w.rej n) n :=
  ⟨rfl, rfl, le_rfl, inside, .inl rfl, .inr ⟨rfl, refused.1⟩⟩

/-- The accesses of an option are safe where it fits, and the walk goes on behind it. -/
def StepSafe (w : OptionWalk) (step : OptionWalk × Nat) (fits : Prop) : Prop :=
  (step.1.skb.safe = true ↔ w.skb.safe = true ∧ fits) ∧ (fits → StepsOver w step.1 step.2)

theorem StepSafe.rej {w : OptionWalk} (inside : w.skb.size ≤ w.skb.room) (n : Nat) :
    StepSafe w (w.rej n, n) (RefusedFits w w.rejlen n) :=
  ⟨rej_safe w n, fun refused => .rej inside refused⟩

theorem Skb.look_known {skb : Skb} {at_ n : Nat} (known : at_ + n ≤ skb.size) :
    skb.look at_ n = skb := by
  simp [look, known]

theorem optionLoop_clear {round : OptionWalk → Outcome OptionWalk}
    (clear : ∀ w, ¬ w.skb.safe = true → ¬ (round w).state.skb.safe = true) {start : OptionWalk}
    (unsafe_ : ¬ start.skb.safe = true) (rounds : Nat) :
    ¬ (Outcome.run round (.running start) rounds).state.skb.safe = true :=
  @Outcome.run_keeps _ round (.running start) (fun o => ¬ o.state.skb.safe = true) unsafe_
    (fun w => clear w) rounds

/-- **A loop over options is safe** exactly where each option it comes to meets the condition of
its round. -/
theorem optionLoop_safe {round : OptionWalk → Outcome OptionWalk}
    {condition kept : OptionWalk → Prop}
    (clear : ∀ w, ¬ w.skb.safe = true → ¬ (round w).state.skb.safe = true)
    (each : ∀ w, kept w → w.skb.safe = true →
      ((round w).state.skb.safe = true ↔ condition w) ∧ (condition w → kept (round w).state))
    {start : OptionWalk}
    (ends : ∃ code last,
      Outcome.run round (.running start) (start.left.toNat + 1) = .returned code last)
    (first : kept start) (safe : start.skb.safe = true) :
    ((Outcome.run round (.running start) (start.left.toNat + 1)).state.skb.safe = true ↔
        Outcome.Always round start condition) ∧
      ((Outcome.run round (.running start) (start.left.toNat + 1)).state.skb.safe = true →
        kept (Outcome.run round (.running start) (start.left.toNat + 1)).state) := by
  obtain ⟨code, last, reached⟩ := ends
  have flag := @Outcome.run_flag _ round (fun w => w.skb.safe = true) condition kept clear each
    start first safe (start.left.toNat + 1)
  exact ⟨flag.1.trans (Outcome.always_of_returned reached).symm, flag.2⟩

end PosFirmware.Ppp
