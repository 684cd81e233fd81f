import PosFirmware.FileCore.Discipline

/-! # The operations keep a discipline

For each function that may write to the log: from a state between entries it gets to one,
and so does the rest of an entry of two steps from a state inside it.
-/

namespace PosFirmware.FileCore

open PosFirmware.Foundation

variable {D : Type} {board : Board D} {idle started stopped : Fs D → Prop}

namespace Discipline

/-! ## Recycling -/

theorem logExchange (discipline : Discipline board idle started stopped) (sAddr : Nat) :
    Triple idle (live (sLogExchangeData board sAddr)) (fun _ => idle) stopped :=
  discipline.entry _ _ (by simp [wordBytes])

theorem copyPage (discipline : Discipline board idle started stopped) (dec src : Nat) :
    Keeps idle (FileCore.copyPage board dec src) :=
  discipline.idleQuiet false
    ((Plain.sReadBlock board _ _).quiet.bind fun _ => Quiet.sWriteFlash board _ _)

theorem eraseExchange (discipline : Discipline board idle started stopped) (addr : Nat) :
    Keeps idle (live (sEraseSector board addr)) :=
  discipline.idleQuiet () (Quiet.sEraseSector board addr)

theorem hynixRound (discipline : Discipline board idle started stopped)
    (sAddr exchangeAddr dBlkTop : Nat) (free : Nat → Bool) :
    Keeps idle (FileCore.hynixRound board sAddr exchangeAddr dBlkTop free) := by
  refine Keeps.firstM fun i _ => Keeps.bind (Keeps.read _) fun tables => Keeps.ite ?_ ?_
  · exact (Plain.onTables _ _ discipline.idleBesides).bind fun _ => Keeps.pure _
  · refine Keeps.ite (Keeps.pure _) ?_
    exact (discipline.copyPage _ _).bind fun _ => (Keeps.pure _).ite (Keeps.pure _)

theorem copyPages (discipline : Discipline board idle started stopped)
    (sAddr exchangeAddr sBlkTop : Nat) (indices : List Nat) (k : Nat) :
    Keeps idle (FileCore.copyPages board sAddr exchangeAddr sBlkTop indices k) := by
  induction indices generalizing k with
  | nil => exact Keeps.pure k
  | cons i rest ih =>
      refine Keeps.bind (Keeps.read _) fun tables => Keeps.ite (ih k) ?_
      exact (discipline.copyPage _ _).bind fun _ => (Keeps.pure k).ite (ih (k + 1))

theorem closeExchange (discipline : Discipline board idle started stopped) (copied : Option Unit)
    (sAddr : Nat) (rest : Prog (Fs D) Unit) (plain : Plain rest) :
    Triple idle (do
      onlyIf copied.isNone sWriteFlashFailed
      onTables fun tables => { tables with kExchangeAddr := sAddr }
      live (sLogExchangeData board sAddr)
      rest) (fun _ => idle) stopped := by
  refine Triple.bind (discipline.idlePlain (Respects.onlyIf Respects.halt)) fun _ => ?_
  refine Triple.bind (discipline.idlePlain (Plain.onTables _)) fun _ => ?_
  exact Triple.bind (discipline.logExchange sAddr) fun _ => discipline.idlePlain plain

theorem sExchangePageHynix (discipline : Discipline board idle started stopped) (sAddr : Nat) :
    Triple idle (FileCore.sExchangePageHynix board sAddr) (fun _ => idle) stopped := by
  refine Triple.bind (discipline.idlePlain Plain.tables) fun before => ?_
  refine Triple.bind (discipline.idlePlain (Plain.inside _ _)) fun _ => ?_
  refine Triple.bind (discipline.idlePlain (Plain.inside _ _)) fun _ => ?_
  refine Triple.bind (discipline.idlePlain (Plain.onTables _)) fun _ => ?_
  refine Triple.bind (discipline.idleKeeps (Keeps.firstM fun _ _ => ?_)) fun copied => ?_
  · refine (discipline.eraseExchange _).bind fun _ => ?_
    exact (discipline.hynixRound _ _ _ _).bind fun _ => Keeps.pure _
  · have closed := discipline.closeExchange copied sAddr (pure ()) (Respects.pure ())
    simpa only [bind_pure_comp, id_map'] using closed

theorem sExchangePageNew (discipline : Discipline board idle started stopped) (sAddr : Nat) :
    Triple idle (FileCore.sExchangePageNew board sAddr) (fun _ => idle) stopped := by
  refine Triple.bind (discipline.idlePlain (Respects.read _)) fun exchangeAddr => ?_
  refine Triple.bind (discipline.idlePlain (Plain.inside _ _)) fun _ => ?_
  refine Triple.bind (discipline.idlePlain (Plain.inside _ _)) fun _ => ?_
  refine Triple.bind (discipline.idlePlain (Plain.onTables _)) fun _ => ?_
  refine Triple.bind (discipline.idlePlain (Respects.read _)) fun exchange => ?_
  refine Triple.bind (discipline.idlePlain (Respects.onlyIf Respects.halt)) fun _ => ?_
  refine Triple.bind (discipline.idlePlain (Plain.onTables _)) fun _ => ?_
  refine Triple.bind (discipline.idleKeeps (Keeps.firstM fun _ _ => ?_)) fun copied => ?_
  · refine (discipline.eraseExchange _).bind fun _ => ?_
    exact (discipline.copyPages _ _ _ _ _).bind fun _ => Keeps.pure _
  · refine discipline.closeExchange copied sAddr _ ?_
    exact Plain.tables.bind fun _ => Respects.onlyIf Respects.halt

theorem sExchangePage (discipline : Discipline board idle started stopped) (sAddr : Nat) :
    Triple idle (FileCore.sExchangePage board sAddr) (fun _ => idle) stopped :=
  Triple.ite (fun _ => discipline.sExchangePageHynix sAddr)
    fun _ => discipline.sExchangePageNew sAddr

theorem sRecycleBlocks (discipline : Discipline board idle started stopped) :
    Triple idle (FileCore.sRecycleBlocks board) (fun _ => idle) stopped := by
  refine Triple.bind (discipline.idlePlain Plain.tables) fun before => ?_
  exact Triple.ite (fun _ => discipline.idlePlain (Respects.pure ()))
    fun _ => discipline.sExchangePage _

theorem recycleUntil (discipline : Discipline board idle started stopped) (need : Int)
    (fuel : Nat) : Triple idle (FileCore.recycleUntil board need fuel) (fun _ => idle) stopped := by
  induction fuel with
  | zero => exact discipline.idlePlain Respects.halt
  | succ fuel ih =>
      refine Triple.bind (discipline.idlePlain Plain.tables) fun before => ?_
      exact Triple.ite (fun _ => Triple.bind discipline.sRecycleBlocks fun _ => ih)
        fun _ => discipline.idlePlain (Respects.pure ())

theorem makeRoom (discipline : Discipline board idle started stopped) (need : Int) :
    Triple idle (FileCore.makeRoom board need) (fun _ => idle) stopped := by
  refine Triple.bind (discipline.idlePlain Plain.tables) fun before => ?_
  refine Triple.ite (fun _ => Triple.ite (fun _ => ?_) fun _ => ?_)
    fun _ => discipline.idlePlain (Respects.pure true)
  · exact discipline.idlePlain ((Plain.setErrno _).bind fun _ => Respects.pure false)
  · exact Triple.bind (discipline.recycleUntil need _)
      fun _ => discipline.idlePlain (Respects.pure true)

theorem recycleBytes (discipline : Discipline board idle started stopped) (needSize : Int)
    (fuel : Nat) :
    Triple idle (FileCore.recycleBytes board needSize fuel) (fun _ => idle) stopped := by
  induction fuel with
  | zero => exact discipline.idlePlain Respects.halt
  | succ fuel ih =>
      refine Triple.bind (discipline.idlePlain Plain.tables) fun before => ?_
      exact Triple.ite (fun _ => Triple.bind discipline.sRecycleBlocks fun _ => ih)
        fun _ => discipline.idlePlain (Respects.pure ())

/-! ## Writing -/

theorem appendPages (discipline : Discipline board idle started stopped) (fd fuel upPtr : Nat)
    (dat : List Byte) (len : Int) :
    Triple started (FileCore.appendPages board fd fuel upPtr dat len) (fun _ => idle) stopped := by
  induction fuel generalizing upPtr dat len with
  | zero => exact Triple.halt discipline.startedStops
  | succ fuel ih =>
      refine Triple.bind (discipline.startedPlain Plain.sGetFreeBlock) fun newPtr => ?_
      refine Triple.bind (discipline.startedPlain (Plain.onTables _)) fun _ => ?_
      refine Triple.ite (fun _ => ?_) fun _ => ?_
      · refine Triple.bind (discipline.startedPlain (Plain.onTables _)) fun _ => ?_
        refine Triple.bind (discipline.startedLive (Quiet.sWriteBlock board _ _ _)) fun _ => ?_
        refine Triple.bind discipline.commandOk fun _ => ?_
        exact discipline.idlePlain (Plain.onStatus _ _)
      · refine Triple.bind (discipline.startedLive (Quiet.sWriteBlock board _ _ _)) fun _ => ?_
        exact ih _ _ _

theorem appendFirst_plain (fd : Nat) : Plain (appendFirst board fd) := by
  refine Plain.tables.bind fun before => Respects.ite ?_ (Respects.pure _)
  exact Plain.sGetFreeBlock.bind fun _ => (Plain.onTables _).bind fun _ => Respects.pure _

theorem appendCopy_plain (fd : Nat) (status : FileStatus) :
    Plain (appendCopy fd status : Prog (Fs D) Nat) :=
  Plain.sGetFreeBlock.bind fun _ => (Plain.onTables _).bind fun _ => Respects.pure _

theorem writeAppend (discipline : Discipline board idle started stopped) (fd : Nat)
    (dat : List Byte) (len : Int) :
    Triple started (FileCore.writeAppend board fd dat len) (fun _ => idle) stopped := by
  refine Triple.bind (discipline.startedPlain (appendFirst_plain fd)) fun first => ?_
  refine Triple.bind (discipline.startedPlain (Plain.onTables _)) fun _ => ?_
  refine Triple.bind (discipline.startedPlain (Plain.statusOf fd)) fun status => ?_
  refine Triple.bind (discipline.startedPlain
    ((appendCopy_plain fd status).ite (Respects.pure first))) fun newPtr => ?_
  refine Triple.bind (discipline.startedPlain (Respects.read _)) fun replayed => ?_
  refine Triple.bind (discipline.startedLive (Quiet.copyAndWrite board _ _ _ _)) fun _ => ?_
  refine Triple.bind (discipline.startedPlain (Plain.onStatus _ _)) fun _ => ?_
  refine Triple.ite (fun _ => discipline.commandOk) fun _ => ?_
  refine Triple.bind (discipline.startedPlain (Plain.statusOf fd)) fun status => ?_
  exact discipline.appendPages _ _ _ _ _

theorem extendPages (discipline : Discipline board idle started stopped) (fuel upPtr : Nat)
    (dat : List Byte) (len : Int) :
    Triple started (FileCore.extendPages board fuel upPtr dat len) (fun _ => started) stopped := by
  induction fuel generalizing upPtr dat len with
  | zero => exact Triple.halt discipline.startedStops
  | succ fuel ih =>
      refine Triple.bind (discipline.startedPlain Plain.sGetFreeBlock) fun newPtr => ?_
      refine Triple.bind (discipline.startedPlain (Plain.onTables _)) fun _ => ?_
      refine Triple.ite (fun _ => discipline.startedPlain (Respects.pure _)) fun _ => ?_
      refine Triple.bind (discipline.startedLive (Quiet.sWriteBlock board _ _ _)) fun _ => ?_
      exact ih _ _ _

theorem extendWithin (discipline : Discipline board idle started stopped) (fd : Nat)
    (status : FileStatus) (newPtr : Nat) (dat : List Byte) (len : Int) :
    Triple started (FileCore.extendWithin board fd status newPtr dat len) (fun _ => idle)
      stopped := by
  refine Triple.bind (discipline.startedPlain (Plain.onTables _)) fun _ => ?_
  refine Triple.bind (discipline.startedLive (Quiet.copyAndWrite board _ _ _ _)) fun _ => ?_
  refine Triple.bind discipline.commandOk fun _ => ?_
  exact discipline.idlePlain (Plain.onStatus _ _)

theorem extendBeyond (discipline : Discipline board idle started stopped) (fd : Nat)
    (status : FileStatus) (newPtr : Nat) (dat : List Byte) (len : Int) :
    Triple started (FileCore.extendBeyond board fd status newPtr dat len) (fun _ => idle)
      stopped := by
  refine Triple.bind (discipline.startedLive (Quiet.copyAndWrite board _ _ _ _)) fun _ => ?_
  refine Triple.bind (discipline.extendPages _ _ _ _) fun last => ?_
  refine Triple.bind (discipline.startedPlain (Plain.onTables _)) fun _ => ?_
  refine Triple.bind (discipline.startedPlain (Plain.onStatus _ _)) fun _ => ?_
  refine Triple.bind (discipline.startedPlain (Plain.giveUpChain _ _)) fun _ => ?_
  refine Triple.bind (discipline.startedLive (Quiet.sWriteBlock board _ _ _)) fun _ => ?_
  exact discipline.commandOk

theorem writeExtend (discipline : Discipline board idle started stopped) (fd : Nat)
    (dat : List Byte) (len : Int) :
    Triple started (FileCore.writeExtend board fd dat len) (fun _ => idle) stopped := by
  refine Triple.bind (discipline.startedPlain (Plain.onTables _)) fun _ => ?_
  refine Triple.bind (discipline.startedPlain (Plain.statusOf fd)) fun status => ?_
  refine Triple.bind (discipline.startedPlain Plain.sGetFreeBlock) fun newPtr => ?_
  refine Triple.bind (discipline.startedPlain (Plain.onTables _)) fun _ => ?_
  exact Triple.ite (fun _ => discipline.extendWithin _ _ _ _ _)
    fun _ => discipline.extendBeyond _ _ _ _ _

theorem overPages (discipline : Discipline board idle started stopped) (fuel upPtr tmpPtr : Nat)
    (dat : List Byte) (len : Int) :
    Triple started (FileCore.overPages board fuel upPtr tmpPtr dat len) (fun _ => started)
      stopped := by
  induction fuel generalizing upPtr tmpPtr dat len with
  | zero => exact discipline.startedPlain (Respects.pure _)
  | succ fuel ih =>
      refine Triple.ite (fun _ => discipline.startedPlain (Respects.pure _)) fun _ => ?_
      refine Triple.bind (discipline.startedPlain Plain.sGetFreeBlock) fun newPtr => ?_
      refine Triple.bind (discipline.startedPlain (Plain.onTables _)) fun _ => ?_
      refine Triple.bind (discipline.startedLive (Quiet.sWriteBlock board _ _ _)) fun _ => ?_
      refine Triple.bind (discipline.startedPlain (Respects.read _)) fun next => ?_
      refine Triple.bind (discipline.startedPlain (Plain.onTables _)) fun _ => ?_
      exact ih _ _ _ _

theorem overWithin (discipline : Discipline board idle started stopped) (fd : Nat)
    (status : FileStatus) (newPtr tmpPtr : Nat) (dat : List Byte) (len : Int) :
    Triple started (FileCore.overWithin board fd status newPtr tmpPtr dat len) (fun _ => idle)
      stopped := by
  refine Triple.bind (discipline.startedPlain (Plain.onTables _)) fun _ => ?_
  refine Triple.bind (discipline.startedLive (Quiet.mergeAndWrite board _ _ _ _)) fun _ => ?_
  refine Triple.bind discipline.commandOk fun _ => ?_
  refine Triple.bind (discipline.idlePlain (Respects.read _)) fun replayed => ?_
  exact discipline.idlePlain (Plain.onStatus _ _)

theorem overLast (discipline : Discipline board idle started stopped) (fd upPtr tmpPtr : Nat)
    (dat : List Byte) (len : Int) :
    Triple started (FileCore.overLast board fd upPtr tmpPtr dat len) (fun _ => started)
      stopped := by
  refine Triple.ite (fun _ => ?_) fun _ => ?_
  · refine Triple.bind (discipline.startedPlain Plain.sGetFreeBlock) fun newPtr => ?_
    refine Triple.bind (discipline.startedPlain (Plain.onTables _)) fun _ => ?_
    refine Triple.bind (discipline.startedLive (Quiet.mergeAndWrite board _ _ _ _)) fun _ => ?_
    refine Triple.bind (discipline.startedPlain (Plain.onTables _)) fun _ => ?_
    exact discipline.startedPlain (Plain.onStatus _ _)
  · refine Triple.bind (discipline.startedPlain (Plain.onTables _)) fun _ => ?_
    exact discipline.startedPlain (Plain.onStatus _ _)

theorem writeOver (discipline : Discipline board idle started stopped) (fd : Nat)
    (dat : List Byte) (len : Int) :
    Triple started (FileCore.writeOver board fd dat len) (fun _ => idle) stopped := by
  refine Triple.bind (discipline.startedPlain (Plain.onStatus _ _)) fun _ => ?_
  refine Triple.bind (discipline.startedPlain (Plain.statusOf fd)) fun status => ?_
  refine Triple.bind (discipline.startedPlain Plain.sGetFreeBlock) fun newPtr => ?_
  refine Triple.bind (discipline.startedPlain (Plain.onTables _)) fun _ => ?_
  refine Triple.bind (discipline.startedPlain (Respects.read _)) fun tmpPtr => ?_
  refine Triple.bind (discipline.startedPlain (Plain.onTables _)) fun _ => ?_
  refine Triple.ite (fun _ => discipline.overWithin _ _ _ _ _ _) fun _ => ?_
  refine Triple.bind (discipline.startedLive (Quiet.copyAndWrite board _ _ _ _)) fun _ => ?_
  refine Triple.bind (discipline.overPages _ _ _ _ _) fun last => ?_
  refine Triple.bind (discipline.overLast _ _ _ _ _) fun _ => ?_
  exact discipline.commandOk

theorem sWrite (discipline : Discipline board idle started stopped) (fd : Nat)
    (dat : List Byte) : Triple idle (FileCore.sWrite board fd dat) (fun _ => idle) stopped := by
  refine Triple.bind (discipline.idlePlain (Plain.inside _ _)) fun _ => ?_
  refine Triple.bind (discipline.idlePlain (Plain.statusOf fd)) fun before => ?_
  refine Triple.bind (discipline.makeRoom _) fun room => ?_
  refine Triple.ite (fun _ => ?_) fun _ => discipline.idlePlain (Respects.pure _)
  refine Triple.bind (discipline.idlePlain (Plain.statusOf fd)) fun status => ?_
  refine Triple.bind (discipline.start _ _ (by simp [FileStatus.toBytes, wordBytes, longBytes])
    (by simp [FileStatus.toBytes, wordBytes, longBytes])) fun _ => ?_
  refine Triple.bind (discipline.startedPlain Plain.tables) fun tables => ?_
  refine Triple.ite (fun _ => ?_) fun _ => ?_
  · refine Triple.bind (discipline.writeAppend _ _ _) fun _ => ?_
    exact discipline.idlePlain (Respects.pure _)
  · refine Triple.bind (discipline.startedPlain (Plain.onTables _)) fun _ => ?_
    refine Triple.ite (fun _ => ?_) fun _ => ?_
    · refine Triple.bind (discipline.writeExtend _ _ _) fun _ => ?_
      exact discipline.idlePlain (Respects.pure _)
    · refine Triple.bind (discipline.writeOver _ _ _) fun _ => ?_
      exact discipline.idlePlain (Respects.pure _)

/-! ## Truncating, creating and removing -/

theorem cutChain_plain (fd : Nat) (len : Int) : Plain (cutChain fd len : Prog (Fs D) Nat) := by
  refine Respects.ite ?_ ?_
  · exact (Respects.read _).bind fun _ => (Plain.onTables _).bind fun _ => Respects.pure _
  · refine (Plain.onTables _).bind fun _ => (Plain.statusOf fd).bind fun status => ?_
    exact (Respects.read _).bind fun _ => (Plain.onTables _).bind fun _ => Respects.pure _

theorem sTruncate (discipline : Discipline board idle started stopped) (fd : Nat) (len : Int) :
    Triple idle (FileCore.sTruncate board fd len) (fun _ => idle) stopped := by
  refine Triple.bind (discipline.idlePlain (Plain.inside _ _)) fun _ => ?_
  refine Triple.bind (discipline.start _ _ (by simp [wordBytes, longBytes])
    (by simp [wordBytes, longBytes])) fun _ => ?_
  refine Triple.bind (discipline.startedPlain (cutChain_plain fd len)) fun headPtr => ?_
  refine Triple.bind (discipline.startedPlain (Plain.giveUpChain _ _)) fun _ => ?_
  refine Triple.bind (discipline.startedPlain (Plain.onTables _)) fun _ => ?_
  exact discipline.commandOk

theorem upperCase_length (filename : List Byte) : (upperCase filename).1.length = 17 := by
  have short := (List.takeWhile_sublist (l := filename.take 16) (· ≠ 0)).length_le
  have taken := List.length_take_le 16 filename
  simp only [upperCase, List.length_append, List.length_map, List.length_replicate]
  omega

theorem sCreateFile (discipline : Discipline board idle started stopped) (fd : Nat)
    (filename : List Byte) (attr type : Byte) :
    Triple idle (FileCore.sCreateFile board fd filename attr type) (fun _ => idle) stopped := by
  refine Triple.bind (discipline.idlePlain (Plain.inside _ _)) fun _ => ?_
  refine Triple.bind (discipline.idlePlain (Plain.onTables _)) fun _ => ?_
  exact discipline.entry _ _ (by simp [wordBytes, upperCase_length])

theorem sRemoveId (discipline : Discipline board idle started stopped) (fd : Nat) :
    Triple idle (FileCore.sRemoveId board fd) (fun _ => idle) stopped := by
  refine Triple.bind (discipline.idlePlain (Plain.inside _ _)) fun _ => ?_
  refine Triple.bind (discipline.idlePlain (Plain.onTables _)) fun _ => ?_
  refine Triple.bind (discipline.idlePlain (Respects.read _)) fun startBlock => ?_
  refine Triple.bind (discipline.idlePlain (Plain.giveUpChain _ _)) fun _ => ?_
  exact discipline.entry _ _ (by simp [wordBytes])

end Discipline

end PosFirmware.FileCore
