import Mathlib.Data.List.Basic
import PosFirmware.Contactless.TypeA

/-! # What the activation of a type A card accepts

Whatever a card answers, the anticollision ends after three cascade levels at most, and a UID is
made of levels whose check byte was right (`antiSel_kept`). The interface bytes of an ATS are
read where T0 announces them, even behind the end of the answer: `type_a_activation` says when
all of them lie within it.
-/

namespace PosFirmware.Contactless

variable {answers : Nat → CardAnswer} {para : TypeAPara} {s s' : AntiSel}
  {frame : AntiSel → List Byte} {accept : CardAnswer → AntiSel → Int × AntiSel} {tries : Nat}

/-! ## Retransmissions -/

/-- The part of the state that a stage of a level leaves as it is, but for at most a number of
frames of the level. -/
structure Stays (n : Nat) (s s' : AntiSel) : Prop where
  level : s'.level = s.level
  sent : ∃ frames, s'.sent = s.sent ++ frames ∧ frames.length ≤ n ∧
    ∀ frame ∈ frames, frame.head? = some s.level

theorem retrans_stays (ofLevel : ∀ s, (frame s).head? = some s.level)
    (keeps : ∀ answer s, (accept answer s).2.level = s.level ∧ (accept answer s).2.sent = s.sent) :
    Stays tries s (retrans answers frame accept tries s).2 := by
  induction tries generalizing s with
  | zero => exact ⟨rfl, [], (List.append_nil _).symm, le_rfl, nofun⟩
  | succ tries ih =>
      have one : ∀ s', s'.level = s.level → s'.sent = s.sent ++ [frame s] → Stays (tries + 1) s s' :=
        fun s' level sent => ⟨level, [frame s], sent, Nat.succ_le_succ (Nat.zero_le _), fun _ only => by
          rw [List.mem_singleton.mp only, ofLevel]⟩
      rw [retrans]
      by_cases timeout : (answers s.sent.length).rev = COMM_TIMEOUT
      · simp only [if_pos timeout]
        obtain ⟨level, frames, sent, few, heads⟩ := ih (s := { s with sent := s.sent ++ [frame s] })
        refine ⟨level, frame s :: frames, ?_, Nat.succ_le_succ few, ?_⟩
        · rw [sent, List.append_assoc]
          rfl
        · rintro other (_ | ⟨_, member⟩)
          · exact ofLevel s
          · exact heads other member
      · simp only [if_neg timeout]
        by_cases fails : (answers s.sent.length).rev ≠ 0
        · simp only [if_pos fails]
          exact one _ rfl rfl
        · simp only [if_neg fails]
          have kept := keeps (answers s.sent.length) { s with sent := s.sent ++ [frame s] }
          exact one _ kept.1 kept.2

theorem retrans_ok (sameFrame : ∀ s sent, frame { s with sent := sent } = frame s)
    (ok : (retrans answers frame accept tries s).1 = 0) :
    ∃ front, s.sent <+: front ∧ (answers front.length).rev = 0 ∧
      retrans answers frame accept tries s =
        accept (answers front.length) { s with sent := front ++ [frame s] } := by
  induction tries generalizing s with
  | zero => cases ok
  | succ tries ih =>
      rw [retrans] at ok ⊢
      by_cases timeout : (answers s.sent.length).rev = COMM_TIMEOUT
      · simp only [if_pos timeout] at ok ⊢
        obtain ⟨front, behind, fine, same⟩ := ih ok
        rw [sameFrame s (s.sent ++ [frame s])] at same
        exact ⟨front, (List.prefix_append _ _).trans behind, fine, same⟩
      · simp only [if_neg timeout] at ok ⊢
        by_cases fails : (answers s.sent.length).rev ≠ 0
        · rw [if_pos fails] at ok
          exact absurd ok fails
        · rw [if_neg fails]
          exact ⟨s.sent, List.prefix_refl _, not_not.mp fails, rfl⟩

/-! ## The stages of a level -/

/-- The answer of a level: five bytes, of which the last checks the others, to the request of
the level. -/
structure Verified (answers : Nat → CardAnswer) (sent : List (List Byte)) (level : Byte)
    (bytes : List Byte) : Prop where
  asked : ∃ k, sent[k]? = some [level, aSelectNvb 0] ∧ (answers k).rev = 0 ∧ (answers k).num = 5 ∧
    bytes = (List.range 5).map (answers k).data
  checked : calBcc bytes = 0

theorem Verified.mono {sent sent' : List (List Byte)} {level : Byte} {bytes : List Byte}
    (verified : Verified answers sent level bytes) (more : sent <+: sent') :
    Verified answers sent' level bytes := by
  obtain ⟨⟨k, asked, rest⟩, checked⟩ := verified
  obtain ⟨later, rfl⟩ := more
  obtain ⟨inside, -⟩ := List.getElem?_eq_some_iff.mp asked
  exact ⟨⟨k, by rw [List.getElem?_append_left inside, asked], rest⟩, checked⟩

theorem anticollision_stays (answers : Nat → CardAnswer) (s : AntiSel) :
    Stays 3 s (anticollision answers s).2 := by
  have stays : Stays 3 { s with pcd := { s.pcd with ucCrcEnable := false } }
      (anticollision answers s).2 := by
    apply retrans_stays
    · exact fun _ => rfl
    · intro answer s
      dsimp only
      split_ifs <;> exact ⟨rfl, rfl⟩
  exact ⟨stays.level, stays.sent⟩

theorem anticollision_ok (ok : (anticollision answers s).1 = 0) :
    let s' := (anticollision answers s).2
    s.sent <+: s'.sent ∧ Verified answers s'.sent s.level (rxBytes s' 0 5) ∧
      s'.pcd.aucUid = s.pcd.aucUid := by
  obtain ⟨front, behind, fine, same⟩ := retrans_ok (fun _ _ => rfl) ok
  rw [anticollision] at ok ⊢
  rw [same] at ok ⊢
  dsimp only at ok ⊢
  by_cases number : (answers front.length).num ≠ 5
  · rw [if_pos number] at ok
    cases ok
  · rw [if_neg number] at ok ⊢
    by_cases bcc : calBcc (rxBytes { s with
        pcd := { s.pcd with ucCrcEnable := false },
        rxBuf := (answers front.length).fill 5 s.rxBuf,
        sent := front ++ [[s.level, aSelectNvb 0]] } 0 5) ≠ 0
    · rw [if_pos bcc] at ok
      cases ok
    · rw [if_neg bcc]
      refine ⟨behind.trans (List.prefix_append _ _), ⟨⟨front.length, ?_, fine, not_not.mp number, ?_⟩,
        not_not.mp bcc⟩, rfl⟩
      · rw [List.getElem?_append_right le_rfl, Nat.sub_self]
        rfl
      · refine List.map_congr_left fun i member => ?_
        change (answers front.length).fill 5 s.rxBuf (0 + i) = _
        rw [CardAnswer.fill, if_pos fine, not_not.mp number, Nat.zero_add]
        exact if_pos (List.mem_range.mp member)

variable {bytes : AntiSel → List Byte} {last : Bool}

theorem select_stays (answers : Nat → CardAnswer) (bytes : AntiSel → List Byte) (last : Bool)
    (s : AntiSel) : Stays 3 s (select answers bytes last s).2 := by
  have stays : Stays 3 { s with pcd := { s.pcd with ucCrcEnable := true } }
      (select answers bytes last s).2 := by
    apply retrans_stays
    · exact fun _ => rfl
    · intro answer s
      dsimp only
      split_ifs <;> exact ⟨rfl, rfl⟩
  exact ⟨stays.level, stays.sent⟩

theorem select_ok (sameBytes : ∀ s sent, bytes { s with sent := sent } = bytes s)
    (ok : (select answers bytes last s).1 = 0) :
    s.sent <+: (select answers bytes last s).2.sent ∧
      (select answers bytes last s).2.pcd.aucUid = s.pcd.aucUid := by
  rw [select] at ok ⊢
  obtain ⟨front, behind, fine, same⟩ := retrans_ok (fun s sent => by rw [sameBytes]) ok
  rw [same] at ok ⊢
  refine ⟨?_, ?_⟩
  · dsimp only
    split_ifs <;> exact behind.trans (List.prefix_append _ _)
  · dsimp only
    split_ifs <;> rfl

theorem thenRun_ok {σ : Type} {first : Int × σ} {next : σ → Int × σ}
    (ok : (thenRun first next).1 = 0) : first.1 = 0 ∧ thenRun first next = next first.2 := by
  rw [thenRun] at ok ⊢
  by_cases fine : first.1 = 0
  · rw [if_pos fine]
    exact ⟨fine, rfl⟩
  · rw [if_neg fine] at ok
    exact absurd ok fine

/-! ## The levels -/

theorem lastLevel_ok (ok : (lastLevel answers para s).1 = 0) :
    s.sent <+: (lastLevel answers para s).2.sent ∧
      (lastLevel answers para s).2.pcd.aucUid = s.pcd.aucUid ++ rxBytes s 0 4 := by
  rw [lastLevel] at ok ⊢
  by_cases tag : s.rxBuf 0 = A_CASCADE_TAG ∧ refusesTag para
  · rw [if_pos tag] at ok
    cases ok
  · rw [if_neg tag] at ok ⊢
    exact select_ok (fun _ _ => rfl) ok

theorem innerLevel_ok (ok : (innerLevel answers s).1 = 0) :
    s.rxBuf 0 = A_CASCADE_TAG ∧ s.sent <+: (innerLevel answers s).2.sent ∧
      (innerLevel answers s).2.pcd.aucUid = s.pcd.aucUid ++ rxBytes s 1 3 ∧
      (innerLevel answers s).2.level = s.level + 2 := by
  rw [innerLevel] at ok ⊢
  by_cases tag : s.rxBuf 0 ≠ A_CASCADE_TAG
  · rw [if_pos tag] at ok
    cases ok
  · rw [if_neg tag] at ok ⊢
    obtain ⟨selected, same⟩ := thenRun_ok ok
    rw [same]
    obtain ⟨behind, uid⟩ := select_ok (fun _ _ => rfl) selected
    refine ⟨not_not.mp tag, behind, uid, ?_⟩
    exact congrArg (· + 2) (select_stays answers _ false _).level

/-- The command of a level. -/
def levelCommand (level : Byte) (i : Nat) : Byte := level + BitVec.ofNat 8 (2 * i)

theorem levelCommand_succ (level : Byte) (i : Nat) :
    levelCommand (level + 2) i = levelCommand level (i + 1) := by
  unfold levelCommand
  rw [Nat.mul_add, BitVec.ofNat_add, BitVec.add_comm (BitVec.ofNat 8 (2 * i)), ← BitVec.add_assoc]
  rfl

/-- A UID of verified levels: three bytes of each but the last, which have the cascade tag
before them, and four of the last. -/
structure UidOf (answers : Nat → CardAnswer) (sent : List (List Byte)) (level : Byte)
    (uid : List Byte) (inner : List (List Byte)) (last : List Byte) : Prop where
  tagged : ∀ i bytes, inner[i]? = some bytes →
    Verified answers sent (levelCommand level i) bytes ∧ bytes[0]? = some A_CASCADE_TAG
  complete : Verified answers sent (levelCommand level inner.length) last
  uid : uid = inner.flatMap (fun bytes => (bytes.drop 1).take 3) ++ last.take 4

theorem cascade_ok (answers : Nat → CardAnswer) (para : TypeAPara) (more : Nat) (ok : (cascade answers para (4 + 3 * more) s).1 = 0) :
    ∃ inner last uid, inner.length = more ∧
      (cascade answers para (4 + 3 * more) s).2.pcd.aucUid = s.pcd.aucUid ++ uid ∧
      s.sent <+: (cascade answers para (4 + 3 * more) s).2.sent ∧
      UidOf answers (cascade answers para (4 + 3 * more) s).2.sent s.level uid inner last := by
  induction more generalizing s with
  | zero =>
      rw [cascade, if_neg (by omega)] at ok ⊢
      obtain ⟨found, same⟩ := thenRun_ok ok
      rw [same] at ok ⊢
      rw [if_pos (by omega)] at ok ⊢
      obtain ⟨selected, same⟩ := thenRun_ok ok
      rw [same, cascade, if_pos rfl]
      obtain ⟨asked, verified, uid⟩ := anticollision_ok found
      obtain ⟨chosen, uid'⟩ := lastLevel_ok selected
      refine ⟨[], rxBytes (anticollision answers s).2 0 5, rxBytes (anticollision answers s).2 0 4,
        rfl, by rw [uid', uid], asked.trans chosen, nofun, ?_, rfl⟩
      rw [List.length_nil, levelCommand]
      exact (BitVec.add_zero s.level).symm ▸ verified.mono chosen
  | succ more ih =>
      rw [cascade, if_neg (by omega)] at ok ⊢
      obtain ⟨found, same⟩ := thenRun_ok ok
      rw [same] at ok ⊢
      rw [if_neg (by omega)] at ok ⊢
      obtain ⟨selected, same⟩ := thenRun_ok ok
      rw [same] at ok ⊢
      rw [show 4 + 3 * (more + 1) - 3 = 4 + 3 * more by omega] at ok ⊢
      obtain ⟨asked, verified, uid⟩ := anticollision_ok found
      obtain ⟨tag, chosen, uid', level⟩ := innerLevel_ok selected
      obtain ⟨inner, last, rest, length, uids, later, levels⟩ := ih ok
      rw [level, (anticollision_stays answers s).level] at levels
      refine ⟨rxBytes (anticollision answers s).2 0 5 :: inner, last,
        rxBytes (anticollision answers s).2 1 3 ++ rest, congrArg (· + 1) length, ?_,
        (asked.trans chosen).trans later, ?_, ?_, ?_⟩
      · rw [uids, uid', uid, List.append_assoc]
      · rintro (_ | i) bytes found
        · cases found
          refine ⟨?_, ?_⟩
          · rw [levelCommand]
            exact (BitVec.add_zero s.level).symm ▸ verified.mono (chosen.trans later)
          · exact congrArg some tag
        · rw [← levelCommand_succ]
          exact levels.tagged i bytes found
      · rw [List.length_cons, ← levelCommand_succ]
        exact levels.complete
      · rw [levels.uid, List.flatMap_cons, List.append_assoc]
        rfl

/-! ## How long it takes -/

theorem thenRun_cases {σ : Type} (first : Int × σ) (next : σ → Int × σ) :
    thenRun first next = first ∨ (first.1 = 0 ∧ thenRun first next = next first.2) := by
  rw [thenRun]
  split_ifs with fine
  · exact .inr ⟨fine, rfl⟩
  · exact .inl rfl

theorem lastLevel_stays (answers : Nat → CardAnswer) (para : TypeAPara) (s : AntiSel) :
    Stays 3 s (lastLevel answers para s).2 := by
  rw [lastLevel]
  split_ifs
  · exact ⟨rfl, [], (List.append_nil _).symm, Nat.zero_le _, nofun⟩
  · have stays := select_stays answers (fun s => rxBytes s 0 4) true
      { s with pcd := { s.pcd with aucUid := s.pcd.aucUid ++ rxBytes s 0 4 } }
    exact ⟨stays.level, stays.sent⟩

/-- At most a number of frames are sent, all of some levels. -/
def Sends (levels : List Byte) (n : Nat) (s s' : AntiSel) : Prop :=
  ∃ frames, s'.sent = s.sent ++ frames ∧ frames.length ≤ n ∧
    ∀ frame ∈ frames, ∃ level ∈ levels, frame.head? = some level

namespace Sends

variable {levels more : List Byte} {n m : Nat} {s'' : AntiSel}

theorem trans (first : Sends levels n s s') (rest : Sends more m s' s'') (inside : levels ⊆ more) :
    Sends more (n + m) s s'' := by
  obtain ⟨frames, sent, few, heads⟩ := first
  obtain ⟨frames', sent', few', heads'⟩ := rest
  refine ⟨frames ++ frames', by rw [sent', sent, List.append_assoc], ?_, ?_⟩
  · rw [List.length_append]
    exact Nat.add_le_add few few'
  · intro frame member
    rcases List.mem_append.mp member with early | late
    · obtain ⟨level, isLevel, head⟩ := heads frame early
      exact ⟨level, inside isLevel, head⟩
    · exact heads' frame late

theorem mono (first : Sends levels n s s') (inside : levels ⊆ more) (fewer : n ≤ m) :
    Sends more m s s' := by
  obtain ⟨frames, sent, few, heads⟩ := first
  refine ⟨frames, sent, few.trans fewer, fun frame member => ?_⟩
  obtain ⟨level, isLevel, head⟩ := heads frame member
  exact ⟨level, inside isLevel, head⟩

end Sends

theorem Stays.sends {n : Nat} (stays : Stays n s s') : Sends [s.level] n s s' := by
  obtain ⟨frames, sent, few, heads⟩ := stays.sent
  exact ⟨frames, sent, few, fun frame member => ⟨_, List.mem_singleton_self _, heads frame member⟩⟩

theorem innerLevel_sends (answers : Nat → CardAnswer) (s : AntiSel) :
    Sends [s.level] 3 s (innerLevel answers s).2 := by
  rw [innerLevel]
  split_ifs
  · exact ⟨[], (List.append_nil _).symm, Nat.zero_le _, nofun⟩
  · have stays := (select_stays answers (fun s => A_CASCADE_TAG :: rxBytes s 1 3) false
      { s with pcd := { s.pcd with aucUid := s.pcd.aucUid ++ rxBytes s 1 3 } }).sends
    rcases thenRun_cases _ fun s : AntiSel => (0, { s with level := s.level + 2 }) with
      same | ⟨-, same⟩ <;> (rw [same]; exact stays)

/-- The commands of some levels. -/
def commands (level : Byte) (count : Nat) : List Byte :=
  (List.range count).map (levelCommand level)

theorem level_mem_commands (level : Byte) (more : Nat) : [level] ⊆ commands level (more + 1) := by
  intro command only
  rw [List.mem_singleton.mp only]
  exact List.mem_map.mpr ⟨0, List.mem_range.mpr (by omega), BitVec.add_zero level⟩

theorem commands_succ (level : Byte) (more : Nat) :
    commands (level + 2) more ⊆ commands level (more + 1) := by
  intro command member
  obtain ⟨i, inside, rfl⟩ := List.mem_map.mp member
  have inside := List.mem_range.mp inside
  exact List.mem_map.mpr ⟨i + 1, List.mem_range.mpr (by omega), (levelCommand_succ level i).symm⟩

theorem cascade_sends (answers : Nat → CardAnswer) (para : TypeAPara) (more : Nat) (s : AntiSel) :
    Sends (commands s.level (more + 1)) (6 * (more + 1)) s
      (cascade answers para (4 + 3 * more) s).2 := by
  induction more generalizing s with
  | zero =>
      have level := level_mem_commands s.level 0
      have found := anticollision_stays answers s
      rw [cascade, if_neg (by omega)]
      rcases thenRun_cases (anticollision answers s) _ with same | ⟨-, same⟩
      · rw [same]
        exact found.sends.mono level (by omega)
      rw [same, if_pos (by omega)]
      have both := found.sends.trans (lastLevel_stays answers para _).sends
        (by rw [found.level]; exact List.Subset.refl _)
      rw [found.level] at both
      rcases thenRun_cases (lastLevel answers para (anticollision answers s).2)
        (cascade answers para (4 + 3 * 0 - 4)) with same | ⟨-, same⟩
      · rw [same]
        exact both.mono level (by omega)
      · rw [same, cascade, if_pos rfl]
        exact both.mono level (by omega)
  | succ more ih =>
      have level := level_mem_commands s.level (more + 1)
      have found := anticollision_stays answers s
      rw [cascade, if_neg (by omega)]
      rcases thenRun_cases (anticollision answers s) _ with same | ⟨-, same⟩
      · rw [same]
        exact found.sends.mono level (by omega)
      rw [same, if_neg (by omega), show 4 + 3 * (more + 1) - 3 = 4 + 3 * more by omega]
      have both := found.sends.trans (innerLevel_sends answers _)
        (by rw [found.level]; exact List.Subset.refl _)
      rw [found.level] at both
      rcases thenRun_cases (innerLevel answers (anticollision answers s).2)
        (cascade answers para (4 + 3 * more)) with same | ⟨fine, same⟩
      · rw [same]
        exact both.mono level (by omega)
      · have rest := ih (innerLevel answers (anticollision answers s).2).2
        rw [(innerLevel_ok fine).2.2.2, found.level] at rest
        rw [same]
        exact ((both.mono level le_rfl).trans
          (rest.mono (commands_succ s.level (more + 1)) le_rfl) (List.Subset.refl _)).mono
            (List.Subset.refl _) (by omega)

/-! ## The anticollision -/

/-- What is promised of the anticollision: at most six frames for each of three levels, and
with success a UID of 4, 7 or 10 bytes that verified levels gave. -/
structure AntiSelKept (answers : Nat → CardAnswer) (length : Nat) (done : Int × AntiSel) : Prop where
  ends : done.2.sent.length ≤ 18
  levels : ∀ frame ∈ done.2.sent, frame.head? ∈ [some 0x93, some 0x95, some 0x97]
  uid : done.1 = 0 → ∃ inner last, UidOf answers done.2.sent A_COMMAND_SEL1 done.2.pcd.aucUid inner
    last ∧ done.2.pcd.aucUid.length = length ∧ (length = 4 ∨ length = 7 ∨ length = 10)

theorem Verified.length {sent : List (List Byte)} {level : Byte} {bytes : List Byte}
    (verified : Verified answers sent level bytes) : bytes.length = 5 := by
  obtain ⟨_, -, -, -, same⟩ := verified.asked
  rw [same, List.length_map, List.length_range]

theorem UidOf.length {sent : List (List Byte)} {level : Byte} {uid last : List Byte}
    {inner : List (List Byte)} (of : UidOf answers sent level uid inner last) :
    uid.length = 4 + 3 * inner.length := by
  have three : ∀ bytes ∈ inner, ((bytes.drop 1).take 3).length = 3 := by
    intro bytes member
    obtain ⟨i, found⟩ := List.getElem?_of_mem member
    have five := (of.tagged i bytes found).1.length
    rw [List.length_take, List.length_drop, five]
    rfl
  have four := of.complete.length
  have all : (inner.flatMap fun bytes => (bytes.drop 1).take 3).length = 3 * inner.length := by
    rw [List.length_flatMap, List.map_congr_left three, List.map_const', List.sum_replicate,
      smul_eq_mul, Nat.mul_comm]
  rw [of.uid, List.length_append, all, List.length_take, four]
  omega

theorem AntiSelKept.of_cascade {more : Nat} (few : more ≤ 2) {done : Int × AntiSel}
    {next : AntiSel → Int × AntiSel} (sends : Sends (commands A_COMMAND_SEL1 (more + 1))
      (6 * (more + 1)) s done.2) (fresh : s.sent = [])
    (found : done.1 = 0 → ∃ inner last, UidOf answers done.2.sent A_COMMAND_SEL1
      done.2.pcd.aucUid inner last ∧ inner.length = more)
    (sent : ∀ s, (next s).2.sent = s.sent) (uid : ∀ s, (next s).2.pcd.aucUid = s.pcd.aucUid) :
    AntiSelKept answers (4 + 3 * more) (thenRun done next) := by
  have sameSent : (thenRun done next).2.sent = done.2.sent := by
    rcases thenRun_cases done next with same | ⟨-, same⟩
    · rw [same]
    · rw [same, sent]
  obtain ⟨frames, are, count, heads⟩ := sends
  rw [fresh, List.nil_append] at are
  have threeLevels : ∀ command ∈ commands A_COMMAND_SEL1 3,
      some command ∈ [some 0x93, some 0x95, some 0x97] := by decide
  refine ⟨?_, fun frame member => ?_, fun ok => ?_⟩
  · rw [sameSent, are]
    omega
  · rw [sameSent, are] at member
    obtain ⟨level, isLevel, head⟩ := heads frame member
    obtain ⟨i, inside, rfl⟩ := List.mem_map.mp isLevel
    have inside := List.mem_range.mp inside
    rw [head]
    exact threeLevels _ (List.mem_map.mpr ⟨i, List.mem_range.mpr (by omega), rfl⟩)
  · obtain ⟨fine, same⟩ := thenRun_ok ok
    obtain ⟨inner, last, of, length⟩ := found fine
    rw [same, sent, uid]
    refine ⟨inner, last, of, ?_, ?_⟩
    · rw [of.length, length]
    · omega

theorem antiSel_kept (answers : Nat → CardAnswer) (para : TypeAPara) (pcd : TypeAInfo)
    (sak : Byte) : AntiSelKept answers pcd.ucUidLen (antiSel answers para pcd sak) := by
  rw [antiSel]
  by_cases known : pcd.ucUidLen ≠ 4 ∧ pcd.ucUidLen ≠ 7 ∧ pcd.ucUidLen ≠ 10
  · rw [if_pos known]
    exact ⟨Nat.zero_le _, nofun, nofun⟩
  · rw [if_neg known]
    obtain ⟨more, few, size⟩ : ∃ more ≤ 2, pcd.ucUidLen = 4 + 3 * more := by
      by_cases four : pcd.ucUidLen = 4
      · exact ⟨0, by omega, by omega⟩
      · by_cases seven : pcd.ucUidLen = 7
        · exact ⟨1, by omega, by omega⟩
        · exact ⟨2, by omega, by omega⟩
    rw [size]
    refine .of_cascade few (cascade_sends answers para more _) rfl (fun ok => ?_) (fun _ => rfl)
      fun _ => rfl
    obtain ⟨inner, last, uid, length, uids, -, of⟩ := cascade_ok answers para more ok
    rw [uids]
    exact ⟨inner, last, of, length⟩

/-! ## The answer to select -/

variable {answer : CardAnswer} {pcd : TypeAInfo} {buf ats : Nat → Byte}

/-- Every interface byte that is read is announced by T0, and lies within the bytes received. -/
def RatsKept (answer : CardAnswer) (buf : Nat → Byte) (done : Int × AtsParser) : Prop :=
  ∀ byte at_, (byte, at_) ∈ done.2.interpreted →
    answer.fill 254 buf 1 &&& byte.announcedBy ≠ 0 ∧ at_ < (answer.fill 254 buf 0).toNat ∧
      at_ < answer.num

/-- The interface bytes that T0 announces. -/
def announced (t0 : Byte) : List InterfaceByte :=
  [InterfaceByte.ta1, .tb1, .tc1].filter fun byte => t0 &&& byte.announcedBy ≠ 0

/-- An ATS that is parsed: the answer has as many bytes as its first says, and a T0. -/
def Parsed (answer : CardAnswer) (ats : Nat → Byte) : Prop :=
  answer.rev = 0 ∧ (ats 0).toNat = answer.num ∧ (ats 0).toNat ≤ 254 ∧ 1 < (ats 0).toNat ∧
    ats 1 &&& 0x80 = 0

/-- The interface bytes that T0 announces lie within the ATS. -/
def InterfaceFits (ats : Nat → Byte) : Prop := 2 + (announced (ats 1)).length ≤ (ats 0).toNat

theorem parseInterface_interpreted (byte : InterfaceByte) (s : AtsParser) :
    (parseInterface ats byte s).interpreted =
        s.interpreted ++ (if ats 1 &&& byte.announcedBy ≠ 0 then [(byte, s.param)] else []) ∧
      (parseInterface ats byte s).param =
        s.param + (if ats 1 &&& byte.announcedBy ≠ 0 then 1 else 0) := by
  rw [parseInterface]
  split_ifs
  · exact ⟨rfl, rfl⟩
  · exact ⟨(List.append_nil _).symm, rfl⟩

theorem parse_interpreted (pcd : TypeAInfo) :
    (parseInterface ats .tc1 (parseInterface ats .tb1 (parseInterface ats .ta1
      ⟨pcd, 2, []⟩))).interpreted = (announced (ats 1)).zipIdx 2 := by
  simp only [parseInterface_interpreted, announced]
  by_cases ta1 : ats 1 &&& InterfaceByte.ta1.announcedBy = 0#8 <;>
    by_cases tb1 : ats 1 &&& InterfaceByte.tb1.announcedBy = 0#8 <;>
      by_cases tc1 : ats 1 &&& InterfaceByte.tc1.announcedBy = 0#8 <;> simp [ta1, tb1, tc1]

theorem rats_interpreted (answer : CardAnswer) (pcd : TypeAInfo) (buf : Nat → Byte) :
    (Parsed answer (answer.fill 254 buf) → (rats answer pcd buf).2.interpreted =
        (announced (answer.fill 254 buf 1)).zipIdx 2) ∧
      (¬ Parsed answer (answer.fill 254 buf) → (rats answer pcd buf).2.interpreted = []) := by
  rw [rats]
  generalize answer.fill 254 buf = ats
  unfold Parsed
  by_cases rev : answer.rev = 0
  · rw [if_neg (not_not.mpr rev)]
    by_cases number : (ats 0).toNat = answer.num
    · rw [if_neg (not_not.mpr number)]
      by_cases long : 254 < (ats 0).toNat
      · rw [if_pos long]
        exact ⟨fun parsed => absurd parsed.2.2.1 (by omega), fun _ => rfl⟩
      · rw [if_neg long]
        by_cases t0 : 1 < (ats 0).toNat
        · by_cases error : ats 1 &&& 0x80 = 0
          · rw [if_neg fun bad => bad.2 error, if_pos t0]
            refine ⟨fun _ => ?_, fun none_ => absurd ⟨rev, number, by omega, t0, error⟩ none_⟩
            exact parse_interpreted _
          · rw [if_pos ⟨t0, error⟩]
            exact ⟨fun parsed => absurd parsed.2.2.2.2 error, fun _ => rfl⟩
        · rw [if_neg fun bad => t0 bad.1, if_neg t0]
          exact ⟨fun parsed => absurd parsed.2.2.2.1 t0, fun _ => rfl⟩
    · rw [if_pos number]
      exact ⟨fun parsed => absurd parsed.2.1 number, fun _ => rfl⟩
  · rw [if_pos rev]
    exact ⟨fun parsed => absurd parsed.1 rev, fun _ => rfl⟩

theorem rats_kept_iff (answer : CardAnswer) (pcd : TypeAInfo) (buf : Nat → Byte) :
    RatsKept answer buf (rats answer pcd buf) ↔
      (Parsed answer (answer.fill 254 buf) → InterfaceFits (answer.fill 254 buf)) := by
  obtain ⟨whenParsed, otherwise⟩ := rats_interpreted answer pcd buf
  by_cases parsed : Parsed answer (answer.fill 254 buf)
  · unfold RatsKept InterfaceFits
    rw [whenParsed parsed]
    have number := parsed.2.1
    have long := parsed.2.2.2.1
    constructor
    · intro kept _
      by_contra beyond
      have some_ : (announced (answer.fill 254 buf 1)).length - 1 <
          (announced (answer.fill 254 buf 1)).length := by omega
      have member := List.mk_mem_zipIdx_iff_le_and_getElem?_sub.mpr ⟨Nat.le_add_right 2 _,
        (congrArg (_[·]?) (Nat.add_sub_cancel_left ..)).trans (List.getElem?_eq_getElem some_)⟩
      have last := (kept _ _ member).2.1
      omega
    · intro fits byte at_ member
      have fits := fits parsed
      obtain ⟨from_, below, is⟩ := List.mem_zipIdx member
      have inside : byte ∈ announced (answer.fill 254 buf 1) := is ▸ List.getElem_mem _
      exact ⟨by simpa using (List.mem_filter.mp inside).2, by omega, by omega⟩
  · unfold RatsKept
    rw [otherwise parsed]
    exact ⟨fun _ yes => absurd yes parsed, fun _ _ _ => nofun⟩

/-- **The activation of a type A card.** For every sequence of answers the anticollision ends
within three levels, with a UID of verified levels if it succeeds; and the interface bytes of an
ATS are read only where they were received, if and only if those that T0 announces lie within
the length of the ATS. -/
theorem type_a_activation (answers : Nat → CardAnswer) (para : TypeAPara) (pcd pcd' : TypeAInfo)
    (sak : Byte) (answer : CardAnswer) (buf : Nat → Byte) :
    (AntiSelKept answers pcd.ucUidLen (antiSel answers para pcd sak) ∧
        RatsKept answer buf (rats answer pcd' buf)) ↔
      (Parsed answer (answer.fill 254 buf) → InterfaceFits (answer.fill 254 buf)) := by
  rw [and_iff_right (antiSel_kept answers para pcd sak)]
  exact rats_kept_iff answer pcd' buf

/-- An ATS of two bytes that announces TA(1), TB(1) and TC(1). -/
def shortAts : CardAnswer := ⟨0, 2, fun i => ([0x02, 0x78] : List Byte).getD i 0⟩

/-- A device before the activation. -/
def freshInfo : TypeAInfo :=
  ⟨0, 0, 0, 0, 0, 0, 0, 0, false, false, false, false, false, false, 0, 0, 0, 4, [], [], []⟩

/-- What was in the buffer before is read as timing parameters. -/
theorem shortAts_read_beyond :
    ¬ (AntiSelKept (fun _ => shortAts) 4 (antiSel (fun _ => shortAts) ⟨0, 0⟩ freshInfo 0) ∧
      RatsKept shortAts (fun _ => 0xF8) (rats shortAts freshInfo fun _ => 0xF8)) := by
  rintro ⟨-, kept⟩
  have read : (InterfaceByte.ta1, 2) ∈
      (rats shortAts freshInfo fun _ => 0xF8).2.interpreted := by decide
  exact absurd (kept _ _ read).2.2 (by decide)

end PosFirmware.Contactless
