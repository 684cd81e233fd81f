import Mathlib.Data.Fintype.Pigeonhole
import PosFirmware.Foundation.Loop
import PosFirmware.IpStack.Inet

/-! # The options of a TCP segment

`tcp_parseopt` walks over the options of a SYN with a cursor of eight bits, and looks
at the byte after a kind, and at the value of an MSS option, before it knows that they
are there. The walk ends inside the options exactly when everything it looks at is
there and the cursor never comes back to a place (`tcpParseopt_safe_iff`); a length
that carries the cursor around makes it loop (`tcpParseopt_unsafe`).
-/

namespace PosFirmware.IpStack

open PosFirmware.Foundation

/-- `TCP_MSS`. -/
def TCP_MSS : BitVec 16 := 1400

/-- The length of the header without options. -/
def TCP_HLEN : Nat := 20

/-- The cursor `c`, the field `mss` of the pcb, and the offsets read from `opts`. -/
structure ParseoptState where
  c : Byte
  mss : BitVec 16
  reads : List Nat

/-- `opts[k]` was read. -/
def ParseoptState.look (s : ParseoptState) (k : Nat) : ParseoptState :=
  { s with reads := k :: s.reads }

/-- The value of the MSS option at a place, at most `TCP_MSS`. -/
def mssValue (opts : Nat → Byte) (c : Nat) : BitVec 16 :=
  let mss := opts (c + 2) ++ opts (c + 3)
  if mss > TCP_MSS then TCP_MSS else mss

/-- One round of the loop of `tcp_parseopt`, over `totalLen` bytes of options. -/
def parseoptRound (opts : Nat → Byte) (totalLen : Int) (s : ParseoptState) :
    Outcome ParseoptState :=
  let c := s.c.toNat
  if (c : Int) < totalLen then
    let opt := opts c
    let s := s.look c
    if opt = 0x00 then .returned 0 s
    else if opt = 0x01 then .running { s with c := s.c + 1 }
    else
      -- `opt == 0x02 && opts[c + 1] == 0x04` reads the second byte only for the kind 2
      let s := s.look (c + 1)
      if opt = 0x02 ∧ opts (c + 1) = 0x04 then
        .returned 0 { (s.look (c + 2)).look (c + 3) with mss := mssValue opts c }
      else if opts (c + 1) = 0 then .returned 0 s
      else .running { s with c := s.c + opts (c + 1) }
  else .returned 0 s

/-- `total_len`, for a data offset of four bits. -/
def optionsLen (doff : BitVec 4) : Int := doff.toNat * 4 - TCP_HLEN

/-- `tcp_parseopt` after a number of rounds. -/
def tcpParseopt (opts : Nat → Byte) (doff : BitVec 4) (mss : BitVec 16) :
    Nat → Outcome ParseoptState :=
  if optionsLen doff ≤ 0 then fun _ => .returned 0 ⟨0, mss, []⟩
  else Outcome.run (parseoptRound opts (optionsLen doff)) (.running ⟨0, mss, []⟩)

/-! ## The walk of the cursor -/

/-- An MSS option of the right length. -/
def IsMssOption (opts : Nat → Byte) (c : Nat) : Prop := opts c = 0x02 ∧ opts (c + 1) = 0x04

instance (opts : Nat → Byte) (c : Nat) : Decidable (IsMssOption opts c) :=
  inferInstanceAs (Decidable (_ ∧ _))

/-- The walk ends at a place: after the options, at an end of options, at an MSS option,
or at an option of length zero. -/
def EndsAt (opts : Nat → Byte) (totalLen : Int) (c : Nat) : Prop :=
  totalLen ≤ c ∨ opts c = 0x00 ∨ opts c ≠ 0x01 ∧ (IsMssOption opts c ∨ opts (c + 1) = 0)

instance (opts : Nat → Byte) (totalLen : Int) (c : Nat) : Decidable (EndsAt opts totalLen c) :=
  inferInstanceAs (Decidable (_ ∨ _ ∨ _))

/-- The place after a no-operation or an option with a length, in eight bits. -/
def skip (opts : Nat → Byte) (c : Byte) : Byte :=
  if opts c.toNat = 0x01 then c + 1 else c + opts (c.toNat + 1)

/-- The places of the walk. -/
def place (opts : Nat → Byte) (totalLen : Int) : Nat → Option Byte
  | 0 => some 0
  | n + 1 => (place opts totalLen n).bind fun c =>
      if EndsAt opts totalLen c.toNat then none else some (skip opts c)

/-- What is looked at from a place lies inside the options. -/
def LooksInside (opts : Nat → Byte) (totalLen : Int) (c : Nat) : Prop :=
  totalLen ≤ c ∨ opts c = 0x00 ∨ opts c = 0x01 ∨
    (c : Int) + 1 < totalLen ∧ (IsMssOption opts c → (c : Int) + 3 < totalLen)

/-- The options are well formed: whatever the walk looks at is there, and no place is
met twice. -/
structure OptionsWellFormed (opts : Nat → Byte) (totalLen : Int) : Prop where
  inside : ∀ n c, place opts totalLen n = some c → LooksInside opts totalLen c.toNat
  forward : ∀ m n c, place opts totalLen m = some c → place opts totalLen n = some c → m = n

/-! ## The loop follows the walk -/

section Walk

variable {opts : Nat → Byte} {totalLen : Int}

private theorem parseoptRound_ends {s : ParseoptState} (ends : EndsAt opts totalLen s.c.toNat) :
    ∃ after, parseoptRound opts totalLen s = .returned 0 after := by
  unfold parseoptRound
  dsimp only
  split
  next inside =>
    rcases ends with out | zero | ⟨option, last⟩
    · omega
    · exact ⟨_, if_pos zero⟩
    · by_cases zero : opts s.c.toNat = 0x00
      · exact ⟨_, if_pos zero⟩
      · rw [if_neg zero, if_neg option]
        by_cases mss : opts s.c.toNat = 0x02 ∧ opts (s.c.toNat + 1) = 0x04
        · exact ⟨_, if_pos mss⟩
        · rw [if_neg mss, if_pos (last.resolve_left mss)]
          exact ⟨_, rfl⟩
  next => exact ⟨_, rfl⟩

private theorem parseoptRound_skips {s : ParseoptState} (on : ¬ EndsAt opts totalLen s.c.toNat) :
    ∃ after, parseoptRound opts totalLen s = .running after ∧ after.c = skip opts s.c := by
  have inside : (s.c.toNat : Int) < totalLen := by
    by_contra out
    exact on (.inl (by omega))
  have nonzero : opts s.c.toNat ≠ 0x00 := fun zero => on (.inr (.inl zero))
  unfold parseoptRound skip
  simp only [if_pos inside, if_neg nonzero]
  by_cases nop : opts s.c.toNat = 0x01
  · rw [if_pos nop, if_pos nop]
    exact ⟨_, rfl, rfl⟩
  · have notMss : ¬ (opts s.c.toNat = 0x02 ∧ opts (s.c.toNat + 1) = 0x04) :=
      fun mss => on (.inr (.inr ⟨nop, .inl mss⟩))
    have long : opts (s.c.toNat + 1) ≠ 0 := fun zero => on (.inr (.inr ⟨nop, .inr zero⟩))
    rw [if_neg nop, if_neg nop, if_neg notMss, if_neg long]
    exact ⟨_, rfl, rfl⟩

private theorem parseoptRound_reads (s : ParseoptState) :
    (∀ k ∈ (parseoptRound opts totalLen s).state.reads, (k : Int) < totalLen) ↔
      (∀ k ∈ s.reads, (k : Int) < totalLen) ∧ LooksInside opts totalLen s.c.toNat := by
  unfold parseoptRound LooksInside
  dsimp only
  split
  next inside =>
    have notOut : ¬ totalLen ≤ (s.c.toNat : Int) := by omega
    split
    next zero => simp [ParseoptState.look, zero, inside]
    next nonzero =>
      split
      next nop => simp [ParseoptState.look, nop, inside]
      next option =>
        split
        next mss =>
          have isMss : IsMssOption opts s.c.toNat := mss
          simp only [ParseoptState.look, Outcome.state_returned, List.forall_mem_cons, notOut,
            nonzero, option, isMss, true_implies, false_or]
          push_cast
          constructor
          · rintro ⟨third, second, first, -, past⟩
            exact ⟨past, first, third⟩
          · rintro ⟨past, first, third⟩
            exact ⟨third, by omega, first, inside, past⟩
        next other =>
          have notMss : ¬ IsMssOption opts s.c.toNat := other
          split <;>
          · simp only [ParseoptState.look, Outcome.state_returned, Outcome.state_running,
              List.forall_mem_cons, notOut, nonzero, option, notMss, false_implies, and_true,
              false_or]
            push_cast
            constructor
            · rintro ⟨first, -, past⟩
              exact ⟨past, first⟩
            · rintro ⟨past, first⟩
              exact ⟨first, inside, past⟩
  next out =>
    have isOut : totalLen ≤ (s.c.toNat : Int) := by omega
    simp [isOut]

/-- The loop after a number of rounds, from the start. -/
private def rounds (opts : Nat → Byte) (totalLen : Int) (mss : BitVec 16) (n : Nat) :
    Outcome ParseoptState :=
  Outcome.run (parseoptRound opts totalLen) (.running ⟨0, mss, []⟩) n

private theorem rounds_succ (mss : BitVec 16) (n : Nat) :
    rounds opts totalLen mss (n + 1) =
      (rounds opts totalLen mss n).next (parseoptRound opts totalLen) := rfl

private theorem rounds_place (mss : BitVec 16) (n : Nat) :
    match place opts totalLen n with
    | some c => ∃ s, rounds opts totalLen mss n = .running s ∧ s.c = c
    | none => ∃ code s, rounds opts totalLen mss n = .returned code s := by
  induction n with
  | zero => exact ⟨_, rfl, rfl⟩
  | succ n past =>
    rw [rounds_succ, place]
    cases here : place opts totalLen n with
    | none =>
        rw [here] at past
        obtain ⟨code, s, reached⟩ := past
        exact ⟨code, s, by rw [reached]; rfl⟩
    | some c =>
        rw [here] at past
        obtain ⟨s, reached, rfl⟩ := past
        rw [reached, Outcome.next_running, Option.bind_some]
        by_cases ends : EndsAt opts totalLen s.c.toNat
        · rw [if_pos ends]
          obtain ⟨after, left⟩ := parseoptRound_ends ends
          exact ⟨0, after, left⟩
        · rw [if_neg ends]
          exact parseoptRound_skips ends

/-- The loop has read inside the options exactly when the walk looked inside from every
place it has left. -/
private theorem rounds_reads (mss : BitVec 16) (n : Nat) :
    (∀ k ∈ (rounds opts totalLen mss n).state.reads, (k : Int) < totalLen) ↔
      ∀ m < n, ∀ c, place opts totalLen m = some c → LooksInside opts totalLen c.toNat := by
  induction n with
  | zero => simp [rounds]
  | succ n past =>
    have walk := @rounds_place opts totalLen mss n
    rw [rounds_succ]
    cases here : place opts totalLen n with
    | none =>
        rw [here] at walk
        obtain ⟨code, s, reached⟩ := walk
        rw [show (rounds opts totalLen mss n).next _ = rounds opts totalLen mss n by
          rw [reached]; rfl, past]
        constructor
        · intro before m bound c met
          rcases Nat.lt_succ_iff_lt_or_eq.mp bound with earlier | rfl
          · exact before m earlier c met
          · rw [here] at met
            cases met
        · exact fun all m bound => all m (Nat.lt_succ_of_lt bound)
    | some c =>
        rw [here] at walk
        obtain ⟨s, reached, rfl⟩ := walk
        rw [reached, Outcome.next_running, parseoptRound_reads]
        rw [reached, Outcome.state_running] at past
        rw [past]
        constructor
        · rintro ⟨before, now⟩ m bound c met
          rcases Nat.lt_succ_iff_lt_or_eq.mp bound with earlier | rfl
          · exact before m earlier c met
          · rw [here] at met
            cases met
            exact now
        · exact fun all => ⟨fun m bound => all m (Nat.lt_succ_of_lt bound),
            all n (Nat.lt_succ_self n) s.c here⟩

private theorem parseoptRound_mss (s : ParseoptState) :
    (parseoptRound opts totalLen s).state.mss = s.mss ∨
      (s.c.toNat : Int) < totalLen ∧ IsMssOption opts s.c.toNat ∧
        (parseoptRound opts totalLen s).state.mss = mssValue opts s.c.toNat ∧
        ∃ after, parseoptRound opts totalLen s = .returned 0 after := by
  unfold parseoptRound
  dsimp only
  split
  next inside =>
    split
    · exact .inl rfl
    · split
      · exact .inl rfl
      · split
        next option => exact .inr ⟨inside, option, rfl, _, rfl⟩
        next => split <;> exact .inl rfl
  next => exact .inl rfl

private theorem rounds_mss (mss : BitVec 16) (n : Nat) :
    (rounds opts totalLen mss n).state.mss = mss ∨
      (∃ code s, rounds opts totalLen mss n = .returned code s) ∧
        ∃ m c, place opts totalLen m = some c ∧ (c.toNat : Int) < totalLen ∧
          IsMssOption opts c.toNat ∧
          (rounds opts totalLen mss n).state.mss = mssValue opts c.toNat := by
  induction n with
  | zero => exact .inl rfl
  | succ n past =>
    rw [rounds_succ]
    cases reached : rounds opts totalLen mss n with
    | returned code s =>
        rw [reached] at past
        rcases past with same | ⟨-, found⟩
        · exact .inl same
        · exact .inr ⟨⟨code, s, rfl⟩, found⟩
    | running s =>
        rw [reached] at past
        have same : s.mss = mss := by
          rcases past with same | ⟨⟨_, _, returned⟩, -⟩
          · exact same
          · cases returned
        have walk := @rounds_place opts totalLen mss n
        have here : place opts totalLen n = some s.c := by
          cases met : place opts totalLen n with
          | none =>
              rw [met] at walk
              obtain ⟨_, _, returned⟩ := walk
              rw [reached] at returned
              cases returned
          | some c =>
              rw [met] at walk
              obtain ⟨after, running, rfl⟩ := walk
              rw [reached] at running
              rw [Outcome.running.inj running]
        rw [Outcome.next_running]
        rcases @parseoptRound_mss opts totalLen s with kept | ⟨inside, option, value, after, left⟩
        · exact .inl (kept.trans same)
        · exact .inr ⟨⟨0, after, left⟩, n, s.c, here, inside, option, value⟩

private theorem place_none {n : Nat} (ended : place opts totalLen n = none) (k : Nat) :
    place opts totalLen (n + k) = none := by
  induction k with
  | zero => exact ended
  | succ k past => rw [← Nat.add_assoc, place, past]; rfl

private theorem place_shift {m n : Nat} (same : place opts totalLen m = place opts totalLen n)
    (k : Nat) : place opts totalLen (m + k) = place opts totalLen (n + k) := by
  induction k with
  | zero => exact same
  | succ k past => rw [← Nat.add_assoc, ← Nat.add_assoc, place, place, past]

private theorem place_repeats {m d : Nat} {c : Byte} (first : place opts totalLen m = some c)
    (again : place opts totalLen (m + d) = some c) (k : Nat) :
    place opts totalLen (m + k * d) = some c := by
  induction k with
  | zero => simpa using first
  | succ k past =>
    have shifted := place_shift (past.trans again.symm) d
    rw [show m + (k + 1) * d = m + k * d + d by ring, shifted]
    have twice := place_shift (first.trans again.symm) d
    rw [← twice, again]

private theorem forward_of_ends {bound : Nat} (ended : place opts totalLen bound = none) :
    ∀ m n c, place opts totalLen m = some c → place opts totalLen n = some c → m = n := by
  suffices ordered : ∀ m d c, 0 < d → place opts totalLen m = some c →
      place opts totalLen (m + d) ≠ some c by
    intro m n c first again
    rcases Nat.lt_trichotomy m n with less | same | more
    · exact absurd (by rwa [Nat.add_sub_cancel' less.le])
        (ordered m (n - m) c (by omega) first)
    · exact same
    · exact absurd (by rwa [Nat.add_sub_cancel' more.le])
        (ordered n (m - n) c (by omega) again)
  intro m d c positive first again
  have far := place_repeats first again bound
  have late : bound ≤ m + bound * d := by nlinarith
  rw [← Nat.add_sub_cancel' late, place_none ended] at far
  cases far

private theorem repeats_of_long (long : ∀ n < 257, ∃ c, place opts totalLen n = some c) :
    ∃ m n c, m ≠ n ∧ place opts totalLen m = some c ∧ place opts totalLen n = some c := by
  choose reached met using fun n : Fin 257 => long n n.isLt
  obtain ⟨m, n, differ, same⟩ := Fintype.exists_ne_map_eq_of_card_lt
    (fun n : Fin 257 => (reached n).toFin) (by simp)
  have together : reached m = reached n := BitVec.eq_of_toFin_eq same
  exact ⟨m, n, reached m, fun equal => differ (Fin.ext equal), met m, together ▸ met n⟩

private theorem ends_of_forward
    (forward : ∀ m n c, place opts totalLen m = some c → place opts totalLen n = some c → m = n) :
    ∃ n, place opts totalLen n = none := by
  by_contra never
  obtain ⟨m, n, c, differ, first, again⟩ := @repeats_of_long opts totalLen
    fun n _ => Option.ne_none_iff_exists'.mp fun ended => never ⟨n, ended⟩
  exact differ (forward m n c first again)

end Walk

/-- The parse ends after finitely many rounds, and reads only bytes of the options. -/
structure ParsesInside (opts : Nat → Byte) (doff : BitVec 4) (mss : BitVec 16) : Prop where
  returns : ∃ rounds code s, tcpParseopt opts doff mss rounds = .returned code s
  inside : ∀ rounds, ∀ k ∈ (tcpParseopt opts doff mss rounds).state.reads,
    (k : Int) < optionsLen doff

private theorem place_of_empty {opts : Nat → Byte} {totalLen : Int} (empty : totalLen ≤ 0) {n : Nat}
    {c : Byte} (met : place opts totalLen n = some c) : n = 0 ∧ c = 0 := by
  have ends : EndsAt opts totalLen ((0 : Byte).toNat) := .inl (by simpa using empty)
  cases n with
  | zero => exact ⟨rfl, (Option.some.inj met).symm⟩
  | succ n =>
      have ended : place opts totalLen (1 + n) = none :=
        place_none (by rw [place, place, Option.bind_some, if_pos ends]) n
      rw [Nat.add_comm, ended] at met
      cases met

private theorem tcpParseopt_eq_rounds {opts : Nat → Byte} {doff : BitVec 4} (mss : BitVec 16)
    (present : ¬ optionsLen doff ≤ 0) (n : Nat) :
    tcpParseopt opts doff mss n = rounds opts (optionsLen doff) mss n := by
  rw [tcpParseopt, if_neg present, rounds]

theorem ParsesInside.wellFormed {opts : Nat → Byte} {doff : BitVec 4} {mss : BitVec 16}
    (parses : ParsesInside opts doff mss) : OptionsWellFormed opts (optionsLen doff) := by
  by_cases empty : optionsLen doff ≤ 0
  · refine ⟨fun n c met => ?_, fun m n c first again => ?_⟩
    · obtain ⟨rfl, rfl⟩ := place_of_empty empty met
      exact .inl (by simpa using empty)
    · exact (place_of_empty empty first).1.trans (place_of_empty empty again).1.symm
  · obtain ⟨⟨bound, code, s, returned⟩, inside⟩ := parses
    rw [tcpParseopt_eq_rounds mss empty] at returned
    have ended : place opts (optionsLen doff) bound = none := by
      have walk := @rounds_place opts (optionsLen doff) mss bound
      cases here : place opts (optionsLen doff) bound with
      | none => rfl
      | some c =>
          rw [here] at walk
          obtain ⟨s, running, -⟩ := walk
          rw [running] at returned
          cases returned
    refine ⟨fun n c met => ?_, forward_of_ends ended⟩
    have read := (rounds_reads mss (n + 1)).mp (by
      intro k member
      exact inside (n + 1) k (by rwa [tcpParseopt_eq_rounds mss empty]))
    exact read n (Nat.lt_succ_self n) c met

theorem OptionsWellFormed.parsesInside {opts : Nat → Byte} {doff : BitVec 4}
    (formed : OptionsWellFormed opts (optionsLen doff)) (mss : BitVec 16) :
    ParsesInside opts doff mss := by
  by_cases empty : optionsLen doff ≤ 0
  · refine ⟨⟨0, 0, ⟨0, mss, []⟩, by rw [tcpParseopt, if_pos empty]⟩, ?_⟩
    intro rounds k member
    rw [tcpParseopt, if_pos empty] at member
    exact absurd member List.not_mem_nil
  · refine ⟨?_, fun n k member => ?_⟩
    · obtain ⟨n, ended⟩ := ends_of_forward formed.forward
      have walk := @rounds_place opts (optionsLen doff) mss n
      rw [ended] at walk
      obtain ⟨code, s, returned⟩ := walk
      exact ⟨n, code, s, by rw [tcpParseopt_eq_rounds mss empty, returned]⟩
    · rw [tcpParseopt_eq_rounds mss empty] at member
      exact (rounds_reads mss n).mpr (fun m _ c met => formed.inside m c met) k member

/-- **When the parse of the options ends inside them.** Exactly when they are well
formed. -/
theorem tcpParseopt_safe_iff (opts : Nat → Byte) (doff : BitVec 4) (mss : BitVec 16) :
    ParsesInside opts doff mss ↔ OptionsWellFormed opts (optionsLen doff) :=
  ⟨ParsesInside.wellFormed, fun formed => formed.parsesInside mss⟩

/-- A parse that returns leaves `mss` alone, or sets it to the value of an MSS option that
the walk has met. -/
theorem tcpParseopt_mss {opts : Nat → Byte} {doff : BitVec 4} {mss : BitVec 16} {n : Nat}
    {code : Int} {s : ParseoptState} (returned : tcpParseopt opts doff mss n = .returned code s) :
    s.mss = mss ∨ ∃ m c, place opts (optionsLen doff) m = some c ∧
      (c.toNat : Int) < optionsLen doff ∧ IsMssOption opts c.toNat ∧
      s.mss = mssValue opts c.toNat := by
  by_cases empty : optionsLen doff ≤ 0
  · rw [tcpParseopt, if_pos empty] at returned
    cases returned
    exact .inl rfl
  · rw [tcpParseopt_eq_rounds mss empty] at returned
    have value := @rounds_mss opts (optionsLen doff) mss n
    rw [returned] at value
    exact value.imp_right And.right

theorem mssValue_le (opts : Nat → Byte) (c : Nat) : (mssValue opts c).toNat ≤ 1400 := by
  unfold mssValue
  dsimp only
  split
  · exact le_rfl
  next small => exact not_lt.mp small

/-- A no-operation, and an option of the kind 3 and the length 255. -/
def turningOptions : Nat → Byte
  | 0 => 1
  | 1 => 3
  | 2 => 255
  | _ => 0

/-- **An option list that never ends.** The length 255 at the place 1 carries the cursor
back to the place 0. -/
theorem tcpParseopt_unsafe :
    ¬ ∀ (opts : Nat → Byte) (doff : BitVec 4) (mss : BitVec 16), ParsesInside opts doff mss := by
  intro always
  have formed := (always turningOptions 6 TCP_MSS).wellFormed
  exact absurd (formed.forward 0 2 0 rfl (by decide)) (by decide)

end PosFirmware.IpStack
