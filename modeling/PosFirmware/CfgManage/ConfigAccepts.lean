import PosFirmware.CfgManage.ConfigFormat

/-! # What the configuration parser accepts

A file is taken as its format says where none of its lines, up to the first that is not of the
format, holds what the pass runs out at, passes over or cuts (`Regular`).
-/

namespace PosFirmware.CfgManage

open PosFirmware.Foundation

/-- Lines of the format, with what they set. -/
inductive LinesSet : List (List Byte) → List (List Byte × List Byte) → Prop
  | nil : LinesSet [] []
  | cons {line lines setting sets} (first : LineSets line setting) (rest : LinesSet lines sets) :
      LinesSet (line :: lines) (setting.toList ++ sets)

/-- The content is in the format and sets these keywords. -/
def FileSets (content : List Byte) (sets : List (List Byte × List Byte)) : Prop :=
  LinesSet (content.splitOn 0x0a) sets

/-- The bytes of lines that others stand behind. -/
def joined (lines : List (List Byte)) : List Byte := lines.flatMap (· ++ [0x0a])

/-- The lines behind `before` are plain, up to the first that is not of the format. -/
def PlainLines (before : List Byte) (lines : List (List Byte)) : Prop :=
  ∀ front line back, lines = front ++ line :: back →
    (∀ earlier ∈ front, ∃ setting, LineSets earlier setting) →
      PlainLine (before ++ joined front) line back.isEmpty

/-- What the pass runs out at, passes over or cuts does not stand in the content. -/
def Regular (content : List Byte) : Prop := PlainLines [] (content.splitOn 0x0a)

/-- The parser reads and writes inside, returns zero for a file in the format and for no other, and
leaves the last value of each keyword in the table. -/
structure Accepts (old : VersionConfig → Option ConfigType) (file : List Byte) : Prop where
  inside : sCfgInfoInit old (some file) 0 ≠ .error .outside
  format : (∃ info, sCfgInfoInit old (some file) 0 = .ok info) ↔
    ∃ sets, FileSets (contentOf file) sets
  table : ∀ sets, FileSets (contentOf file) sets →
    sCfgInfoInit old (some file) 0 = .ok (tableOf old sets)

section

variable {before line : List Byte} {lines : List (List Byte)}
  {old : VersionConfig → Option ConfigType} {sets : List (List Byte × List Byte)}

theorem linesRun_cons (before line : List Byte) (lines : List (List Byte)) (info : List HardInfo) :
    linesRun before (line :: lines) info =
      lineRun before line lines.isEmpty info >>= linesRun (before ++ line ++ [0x0a]) lines := by
  cases lines with
  | nil =>
      rw [linesRun, List.isEmpty_nil]
      cases lineRun before line true info <;> rfl
  | cons next lines => rfl

theorem PlainLines.first (plain : PlainLines before (line :: lines)) :
    PlainLine before line lines.isEmpty := by
  have first := plain [] line lines rfl fun _ member => absurd member List.not_mem_nil
  rwa [joined, List.flatMap_nil, List.append_nil] at first

theorem PlainLines.rest (plain : PlainLines before (line :: lines))
    (formed : ∃ setting, LineSets line setting) :
    PlainLines (before ++ line ++ [0x0a]) lines := by
  intro front last back parts earlier
  have later := plain (line :: front) last back (congrArg (line :: ·) parts) fun one member =>
    (List.mem_cons.mp member).elim (fun same => same ▸ formed) (earlier one)
  rwa [joined, List.flatMap_cons, ← List.append_assoc, ← List.append_assoc] at later

theorem linesRun_plain (plain : PlainLines before lines) :
    (∀ more, LinesSet lines more →
      linesRun before lines (tableOf old sets) = .ok (tableOf old (sets ++ more))) ∧
    ((∀ more, ¬LinesSet lines more) →
      ∃ code, linesRun before lines (tableOf old sets) = .error (.returned code)) := by
  induction lines generalizing before sets with
  | nil =>
      constructor
      · intro more is
        cases is
        rw [List.append_nil]
        rfl
      · exact fun none => absurd LinesSet.nil (none [])
  | cons line lines ih =>
      rw [linesRun_cons]
      obtain ⟨taken, refused⟩ := @lineRun_plain before line lines.isEmpty old sets plain.first
      constructor
      · intro more is
        cases is with
        | cons first rest =>
            rw [taken _ first, ← List.append_assoc]
            exact (ih (plain.rest ⟨_, first⟩)).1 _ rest
      · intro none
        by_cases formed : ∃ setting, LineSets line setting
        · obtain ⟨setting, first⟩ := formed
          rw [taken setting first]
          exact (ih (plain.rest ⟨setting, first⟩)).2 fun more rest => none _ (.cons first rest)
        · obtain ⟨code, run⟩ := refused fun setting is => formed ⟨setting, is⟩
          rw [run]
          exact ⟨code, rfl⟩

end

/-- A line that sets a keyword. -/
def valueFile : List Byte := text "PN = \"1\""

theorem valueFile_regular : Regular (contentOf valueFile) := by
  have lines : (contentOf valueFile).splitOn 0x0a = [valueFile] := by decide +kernel
  have key : KeyText valueFile (text "PN ") (text " " ++ 0x22 :: (text "1" ++ 0x22 :: [])) :=
    ⟨by decide, by decide, clear_of_free (by decide)⟩
  have scanned : fromLast 0x3d ([] ++ valueFile) = text "= \"1\"" := by decide +kernel
  rw [Regular, lines]
  intro front line back parts _
  obtain ⟨rfl, rfl, rfl⟩ : front = [] ∧ line = valueFile ∧ back = [] := by
    cases front with
    | nil => exact ⟨rfl, (List.cons.inj parts).1.symm, (List.cons.inj parts).2.symm⟩
    | cons first front => exact absurd (List.cons.inj parts).2 (by simp)
  constructor
  · intro pre rest other
    rw [(other.same key).1]
    decide +kernel
  · intro _ _
    change ScanFits (fromLast 0x3d ([] ++ valueFile)) true
    rw [scanned]
    constructor
    · intro x value behind shown _ _
      have short := (beforeMark_initial slashes (text "= \"1\"")).length_le
      have bytes : (text "= \"1\"").length < BUF_SIZE := by decide
      rw [shown, List.length_append, List.length_cons, List.length_append] at short
      omega
    · exact fun _ _ => .inl (by decide)
  · exact fun same => absurd same (by decide)
  · exact fun none => absurd key (none _ _)
  · intro pre rest other _
    obtain ⟨rfl, rfl⟩ := other.same key
    exact ⟨⟨[], text " ", by decide, by decide, by decide +kernel⟩, by decide⟩
  · intro pre gap value behind other _ free closed _
    obtain ⟨rfl, behindEqual⟩ := other.same key
    obtain ⟨rfl, behindQuote⟩ := parts_same free (by decide) behindEqual
    obtain ⟨rfl, rfl⟩ := parts_same closed (by decide) behindQuote
    exact ⟨by decide, by decide, clear_of_free (by decide), by decide, by decide⟩

/-- A line with an `=` in its comment. -/
def commentFile : List Byte := text "PN = \"1\" // a=b\n"

theorem commentFile_sets : FileSets (contentOf commentFile) [(text "PN", text "1")] := by
  have lines : (contentOf commentFile).splitOn 0x0a = [text "PN = \"1\" // a=b", []] := by
    decide +kernel
  have first : LineSets (text "PN = \"1\" // a=b") (some (text "PN", text "1")) := by
    apply @LineSets.keyword ⟨.other, "PN", []⟩ [] (text " ") (text " ") (text "1")
      (text " // a=b") List.mem_cons_self
    all_goals decide +kernel
  rw [FileSets, lines]
  exact .cons first (.cons (.nothing fun _ member => by cases member) .nil)

end PosFirmware.CfgManage
