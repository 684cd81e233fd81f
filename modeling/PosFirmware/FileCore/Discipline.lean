import PosFirmware.FileCore.Boot

/-! # What the operations do to the log

Most of the code changes tables and flash only (`Plain`), or pages of the flash and the
copy of the log as well (`Quiet`). A `Discipline` names the states between entries and
those inside an entry of two steps; every operation that starts between entries ends
between entries. The running file system and the replay of its log are two disciplines.
-/

namespace PosFirmware.FileCore

open PosFirmware.Foundation

variable {D α β : Type}

/-! ## Programs that leave the log alone -/

/-- An invariant that says nothing of tables, errors and flash. -/
def Besides (inv : Fs D → Prop) : Prop :=
  ∀ fs tables errno flash, inv fs → inv { fs with tables, errno, flash }

/-- An invariant that says nothing of the copy of the log either. -/
def Beyond (inv : Fs D → Prop) : Prop :=
  ∀ fs tables errno flash gLogSector, inv fs → inv { fs with tables, errno, flash, gLogSector }

/-- A program that keeps every invariant of a kind. -/
def Respects (kind : (Fs D → Prop) → Prop) (prog : Prog (Fs D) α) : Prop :=
  ∀ inv, kind inv → Keeps inv prog

/-- A program that changes only tables, errors and flash. -/
abbrev Plain (prog : Prog (Fs D) α) : Prop := Respects Besides prog

/-- A program that leaves `k_LogPtr`, the noted writes and `k_DataRecover` alone. -/
abbrev Quiet (prog : Prog (Fs D) α) : Prop := Respects Beyond prog

namespace Respects

variable {kind : (Fs D → Prop) → Prop}

theorem pure (value : α) : Respects kind (Pure.pure value) := fun _ _ => Keeps.pure value

theorem halt : Respects kind (Prog.halt : Prog (Fs D) α) := fun _ _ => Keeps.halt

theorem read (value : Fs D → α) : Respects kind (Prog.read value) := fun _ _ => Keeps.read value

theorem bind {first : Prog (Fs D) α} {next : α → Prog (Fs D) β} (respects : Respects kind first)
    (respects' : ∀ value, Respects kind (next value)) : Respects kind (first >>= next) :=
  fun inv holds => (respects inv holds).bind fun value => respects' value inv holds

theorem ite {test : Prop} [Decidable test] {yes no : Prog (Fs D) α} (respects : Respects kind yes)
    (respects' : Respects kind no) : Respects kind (if test then yes else no) :=
  fun inv holds => (respects inv holds).ite (respects' inv holds)

theorem onlyIf {test : Bool} {part : Prog (Fs D) Unit} (respects : Respects kind part) :
    Respects kind (FileCore.onlyIf test part) := respects.ite (pure _)

theorem firstM {ι : Type} {body : ι → Prog (Fs D) (Option α)} {indices : List ι}
    (respects : ∀ index, Respects kind (body index)) : Respects kind (Prog.firstM body indices) :=
  fun inv holds => Keeps.firstM fun index _ => respects index inv holds

end Respects

theorem Beyond.besides {inv : Fs D → Prop} (beyond : Beyond inv) : Besides inv :=
  fun fs tables errno flash => beyond fs tables errno flash fs.gLogSector

namespace Plain

theorem quiet {prog : Prog (Fs D) α} (plain : Plain prog) : Quiet prog := fun inv beyond =>
  plain inv beyond.besides

theorem onTables (change : Tables → Tables) :
    Plain (FileCore.onTables change : Prog (Fs D) Unit) :=
  fun _ besides => Triple.modify fun fs holds => besides fs _ fs.errno fs.flash holds

theorem setErrno (error : Errno) : Plain (FileCore.setErrno error : Prog (Fs D) Unit) :=
  fun _ besides => Triple.modify fun fs holds => besides fs fs.tables _ fs.flash holds

theorem onFlash (routine : D → Option α × D) : Plain (FileCore.onFlash routine) := by
  intro inv besides fs holds
  have kept := besides fs fs.tables fs.errno (routine fs.flash).2 holds
  unfold FileCore.onFlash
  cases (routine fs.flash).1
  · exact kept
  · exact kept

theorem tables : Plain (FileCore.tables : Prog (Fs D) Tables) := Respects.read _

theorem statusOf (fd : Nat) : Plain (FileCore.statusOf fd : Prog (Fs D) FileStatus) :=
  Respects.read _

theorem onStatus (fd : Nat) (change : FileStatus → FileStatus) :
    Plain (FileCore.onStatus fd change : Prog (Fs D) Unit) := onTables _

theorem inside (index size : Nat) : Plain (FileCore.inside index size : Prog (Fs D) Unit) :=
  (Respects.pure _).ite Respects.halt

theorem sReadFlash (board : Board D) (des wlen : Nat) :
    Plain (FileCore.sReadFlash board des wlen) := onFlash _

theorem sGetFreeBlock : Plain (FileCore.sGetFreeBlock : Prog (Fs D) Nat) := by
  refine (Respects.read _).bind fun _ => (onTables _).bind fun _ => Respects.pure _

theorem giveUpChain (fuel page : Nat) :
    Plain (FileCore.giveUpChain fuel page : Prog (Fs D) Unit) := by
  induction fuel generalizing page with
  | zero => exact Respects.halt
  | succ fuel ih =>
      refine (Respects.pure _).ite ?_
      exact (Respects.read _).bind fun next => (onTables _).bind fun _ => ih next

theorem sCheckFid (fd : Int) : Plain (FileCore.sCheckFid fd : Prog (Fs D) Bool) := by
  refine ((setErrno _).bind fun _ => Respects.pure _).ite ?_
  refine tables.bind fun _ => ?_
  exact ((setErrno _).bind fun _ => Respects.pure _).ite (Respects.pure _)

theorem checkUsedFrom (board : Board D) (count upPtr tmpPtr : Nat) :
    Plain (FileCore.checkUsedFrom board count upPtr tmpPtr) := by
  induction count generalizing upPtr tmpPtr with
  | zero => exact Respects.pure _
  | succ count ih =>
      refine (Respects.pure _).ite ?_
      refine (sReadFlash board _ _).bind fun page => tables.bind fun before => ?_
      refine Respects.ite ?_ (ih _ _)
      refine (onTables _).bind fun _ => tables.bind fun after => ?_
      exact (ih _ _).ite (ih _ _)

theorem sCheckUsedBlock (board : Board D) (blockNum : Int) :
    Plain (FileCore.sCheckUsedBlock board blockNum) :=
  (Respects.read _).bind fun _ => checkUsedFrom board _ _ _

theorem sSearchFile (appNum : Option Byte) (filename : List Byte) (fattr : Option Byte) :
    Plain (FileCore.sSearchFile appNum filename fattr : Prog (Fs D) (Option Nat)) := by
  cases appNum with
  | none => exact Respects.pure _
  | some appNum =>
      refine ((setErrno _).bind fun _ => Respects.pure _).ite ?_
      refine tables.bind fun before => ?_
      cases searchFile before (upperCase filename) (fattr.getD appNum) with
      | some fd => exact Respects.pure _
      | none => exact (Respects.onlyIf (setErrno _)).bind fun _ => Respects.pure _

theorem openAt (fd : Nat) : Plain (FileCore.openAt fd : Prog (Fs D) Int) :=
  (onTables _).bind fun _ => Respects.pure _

theorem sReadBlock (board : Board D) (addr len : Nat) :
    Plain (FileCore.sReadBlock board addr len) :=
  (Respects.pure _).ite ((sReadFlash board _ _).bind fun _ => Respects.pure _)

end Plain

namespace Quiet

variable (board : Board D)

theorem onFlash (routine : D → Option α × D) : Quiet (FileCore.onFlash routine) :=
  (Plain.onFlash routine).quiet

theorem onLogSector (change : Fs D → Nat → Byte) :
    Quiet (Prog.modify fun fs : Fs D => { fs with gLogSector := change fs }) :=
  fun _ beyond => Triple.modify fun fs holds => beyond fs fs.tables fs.errno fs.flash _ holds

theorem sWriteFlash (des : Nat) (src : List Byte) : Quiet (FileCore.sWriteFlash board des src) := by
  refine Respects.ite ?_ (onFlash _)
  refine (Respects.pure _).ite ?_
  refine (onLogSector _).bind fun _ => Respects.ite ?_ (onFlash _)
  refine (onFlash _).bind fun _ => (onFlash _).bind fun _ => ?_
  exact (onFlash _).bind fun _ => Respects.pure _

theorem sEraseSector (addr : Nat) : Quiet (FileCore.sEraseSector board addr) := by
  refine Respects.ite ?_ (onFlash _)
  exact (onLogSector _).bind fun _ => (onFlash _).ite (onFlash _)

theorem forceWrite : Quiet (FileCore.forceWrite board) := (Respects.pure _).ite (onFlash _)

theorem sWriteBlock (blockPtr offset : Nat) (dat : List Byte) :
    Quiet (FileCore.sWriteBlock board blockPtr offset dat) :=
  (sWriteFlash board _ _).bind fun _ => Respects.pure _

theorem copyAndWrite (curBlockPtr newPtr filePtrOff : Nat) (dat : List Byte) :
    Quiet (FileCore.copyAndWrite board curBlockPtr newPtr filePtrOff dat) :=
  (Plain.sReadBlock board _ _).quiet.bind fun _ => sWriteBlock board _ _ _

theorem mergeAndWrite (oldPtr newPtr filePtrOff : Nat) (dat : List Byte) :
    Quiet (FileCore.mergeAndWrite board oldPtr newPtr filePtrOff dat) :=
  (Plain.sReadBlock board _ _).quiet.bind fun _ => sWriteBlock board _ _ _

theorem saveCopy (fatAddr fatLogAddr : Nat) (buf : List Byte) :
    Quiet (FileCore.saveCopy board fatAddr fatLogAddr buf) := by
  refine Respects.bind (Respects.firstM fun _ => ?_) fun saved => Respects.onlyIf Respects.halt
  refine (sEraseSector board _).bind fun _ => (sWriteFlash board _ _).bind fun failed => ?_
  exact (Respects.pure _).ite ((sWriteFlash board _ _).bind fun _ => Respects.pure _)

end Quiet

/-! ## Disciplines -/

/-- The states between entries and those inside an entry of two steps, with what the writers
of the log do to them. -/
structure Discipline (board : Board D) (idle started stopped : Fs D → Prop) : Prop where
  idleBesides : Besides idle
  startedBesides : Besides started
  idleStops : ∀ fs, idle fs → stopped fs
  startedStops : ∀ fs, started fs → stopped fs
  idleQuiet : ∀ {α : Type} (value : α) {part : Prog (Fs D) α}, Quiet part →
    Keeps idle (liveOr value part)
  startedQuiet : ∀ {α : Type} (value : α) {part : Prog (Fs D) α}, Quiet part →
    Keeps started (liveOr value part)
  entry : ∀ entry words, entry.length ∈ [24, 8, 6] →
    Triple idle (live (logEntry board entry words)) (fun _ => idle) stopped
  start : ∀ entry words, entry.length ∈ [20, 10] → 2 * words + 2 = entry.length →
    Triple idle (live (logStart board entry words)) (fun _ => started) stopped
  commandOk : Triple started (live (sLogCmdOK board)) (fun _ => idle) stopped

namespace Discipline

variable {board : Board D} {idle started stopped : Fs D → Prop}

theorem idleKeeps (discipline : Discipline board idle started stopped) {prog : Prog (Fs D) α}
    (keeps : Keeps idle prog) : Triple idle prog (fun _ => idle) stopped :=
  keeps.mono (fun _ holds => holds) (fun _ _ holds => holds) discipline.idleStops

theorem startedKeeps (discipline : Discipline board idle started stopped) {prog : Prog (Fs D) α}
    (keeps : Keeps started prog) : Triple started prog (fun _ => started) stopped :=
  keeps.mono (fun _ holds => holds) (fun _ _ holds => holds) discipline.startedStops

theorem idlePlain (discipline : Discipline board idle started stopped) {prog : Prog (Fs D) α}
    (plain : Plain prog) : Triple idle prog (fun _ => idle) stopped :=
  discipline.idleKeeps (plain _ discipline.idleBesides)

theorem startedPlain (discipline : Discipline board idle started stopped) {prog : Prog (Fs D) α}
    (plain : Plain prog) : Triple started prog (fun _ => started) stopped :=
  discipline.startedKeeps (plain _ discipline.startedBesides)

theorem startedLive (discipline : Discipline board idle started stopped) {part : Prog (Fs D) Unit}
    (quiet : Quiet part) : Triple started (live part) (fun _ => started) stopped :=
  discipline.startedKeeps (discipline.startedQuiet () quiet)

end Discipline

end PosFirmware.FileCore
