import PosFirmware.CfgManage.ConfigFile
import PosFirmware.Foundation.Lines

/-! # The lines of the configuration file

`cfgPass` goes through the lines of the content one after the other (`cfgPass_lines`). Of a line it
looks at the `=` that are not in a comment, and at the text in quotes behind the last `=`, which may
stand in a comment or in a line before.
-/

namespace PosFirmware.CfgManage

open PosFirmware.Foundation

/-- What a comment starts with. -/
def slashes : List Byte := [0x2f, 0x2f]

/-- A line starts behind these bytes. -/
def LineStart (before : List Byte) : Prop := before = [] ∨ ∃ front, before = front ++ [0x0a]

/-- The place of the last `=`. -/
def equalPlace (bytes : List Byte) : Nat := bytes.length - (fromLast 0x3d bytes).length

/-- What stands before the line in the string of its keyword: a line feed that is the first byte of
the content is taken for a part of the second line. -/
def lead (before : List Byte) : List Byte := if before = [0x0a] then before else []

/-! ## One line -/

/-- The keyword before the last `=` of a line that is not in a comment. -/
def lineKey (front : List Byte) : List Byte → List Byte → Int → Except Stop Int
  | _, [], num => .ok num
  | pre, c :: post, num =>
      if c = 0x3d ∧ ¬slashes <:+: pre then
        keyOf (front ++ pre) >>= lineKey front (pre ++ [c]) post
      else lineKey front (pre ++ [c]) post num

/-- What a keyword is set to. -/
def setContext (string : List Byte) (num : Int) (info : List HardInfo) :
    Except Stop (List HardInfo) :=
  match verifySymbol string num, versiconKeyword[num.toNat]? with
  | some (context, ret), some config =>
      if ret < 0 then .error (.returned CONTEXT_ERR)
      else
        match fillHardwareInfo (text config.keyword) context config.type info with
        | none => .error (.returned FILL_ERR)
        | some info => .ok info
  | _, _ => .error .outside

/-- What a line does with the text from the last `=` on. -/
def lineValue (text : List Byte) (final : Bool) (num : Int) (info : List HardInfo) :
    Except Stop (List HardInfo) :=
  let shown := beforeMark slashes text
  match shown.splitOn 0x22 with
  | _ :: value :: _ :: _ =>
      if BUF_SIZE ≤ value.length then .error .outside
      else if num = -1 then .ok info
      else setContext (stringOf 0 value) num info
  | [_, value] =>
      if BUF_SIZE ≤ value.length ∨ final = true ∧ shown = text then .error .outside
      else if num = -1 then .ok info
      else .error (.returned ONLY_ONE_QUOTE_ERR)
  | _ =>
      if final = true ∧ shown = text ∧ text.getLast? = some 0x2f then .error .outside
      else if num = -1 then .ok info
      else .error (.returned NO_CONTEXT_ERR)

/-- The end of the content is passed over. -/
def PassedOver (line : List Byte) : Prop :=
  line = [] ∨ ∃ pre, line = pre ++ [0x3d] ∧ slashes <:+: pre

instance (line : List Byte) : Decidable (PassedOver line) :=
  decidable_of_iff (line = [] ∨ line.getLast? = some 0x3d ∧ slashes <:+: line.dropLast) <| by
    refine or_congr_right ⟨fun ⟨last, inside⟩ => ⟨line.dropLast, ?_, inside⟩, ?_⟩
    · exact (List.dropLast_append_getLast? _ last).symm
    · rintro ⟨pre, rfl, inside⟩
      rw [List.getLast?_concat, List.dropLast_concat]
      exact ⟨rfl, inside⟩

/-- A line. -/
def lineRun (before line : List Byte) (final : Bool) (info : List HardInfo) :
    Except Stop (List HardInfo) := do
  let num ← lineKey (lead before) [] line (-1)
  if final = true ∧ PassedOver line then .ok info
  else lineValue (fromLast 0x3d (before ++ line)) final num info

/-- The lines of the content behind `before`. -/
def linesRun : List Byte → List (List Byte) → List HardInfo → Except Stop (List HardInfo)
  | _, [], info => .ok info
  | before, [line], info => lineRun before line true info
  | before, line :: next :: lines, info =>
      lineRun before line false info >>= linesRun (before ++ line ++ [0x0a]) (next :: lines)

/-! ## The quotes -/

section

variable {content rest z text behind : List Byte} {j rounds quotes : Nat} {buf : List Byte}
  {c : Byte}

theorem byte_at (here : content.drop j = c :: rest) : content[j]? = some c := by
  rw [← List.head?_drop, here]
  rfl

theorem byte_behind (here : content.drop j = c :: rest) : content[j + 1]? = rest.head? := by
  rw [← List.head?_drop, ← List.drop_drop, here]
  rfl

theorem drop_next (here : content.drop j = c :: rest) : content.drop (j + 1) = rest := by
  rw [← List.drop_drop, here]
  rfl

theorem clear_cons (clear : c :: z <+: beforeMark slashes (c :: (z ++ rest))) :
    ¬slashes <+: c :: (z ++ rest) ∧ z <+: beforeMark slashes (z ++ rest) := by
  by_cases starts : slashes <+: c :: (z ++ rest)
  · rw [beforeMark_starts starts] at clear
    exact absurd (List.prefix_nil.mp clear) (List.cons_ne_nil _ _)
  · rw [beforeMark_cons starts] at clear
    exact ⟨starts, (List.cons_prefix_cons.mp clear).2⟩

theorem not_slashes (clear : ¬slashes <+: c :: rest) : ¬(c = 0x2f ∧ rest.head? = some 0x2f) := by
  rintro ⟨rfl, next⟩
  obtain ⟨rest, rfl⟩ := List.head?_eq_some_iff.mp next
  exact clear ⟨rest, rfl⟩

theorem quoteLoop_skip (rounds : Nat) (buf : List Byte) (here : content.drop j = z ++ rest)
    (free : 0x22 ∉ z) (clear : z <+: beforeMark slashes (z ++ rest)) (more : rest ≠ []) :
    quoteLoop content (z.length + rounds) j 0 buf =
      quoteLoop content rounds (j + z.length) 0 buf := by
  induction z generalizing j with
  | nil => rw [List.length_nil, Nat.zero_add, Nat.add_zero]
  | cons c z ih =>
      rw [List.cons_append] at here
      obtain ⟨starts, clear⟩ := clear_cons clear
      have next : (z ++ rest).head? ≠ none := fun none =>
        more (List.append_eq_nil_iff.mp (List.head?_eq_none_iff.mp none)).2
      have other : c ≠ 0x22 := fun same => free (same ▸ List.mem_cons_self)
      rw [List.length_cons, Nat.succ_add, quoteLoop, byte_at here]
      dsimp only
      rw [byte_behind here, if_neg other, if_neg fun both => next both.2, if_neg (not_slashes starts)]
      change quoteLoop content (z.length + rounds) (j + 1) 0 buf = _
      rw [ih (drop_next here) (fun member => free (List.mem_cons_of_mem _ member)) clear,
        Nat.add_assoc, Nat.add_comm 1]

theorem store_room (room : buf.length < BUF_SIZE) (c : Byte) :
    store buf (some c) = .ok (buf ++ [c]) := if_pos room

theorem store_full (full : BUF_SIZE ≤ buf.length) (byte : Option Byte) :
    store buf byte = .error .outside := by
  cases byte with
  | none => rfl
  | some c => exact if_neg (Nat.not_lt_of_le full)

theorem quoteLoop_byte (here : content.drop j = c :: rest) (clear : ¬slashes <+: c :: rest)
    (one : (if c = 0x22 then quotes + 1 else quotes) = 1) :
    quoteLoop content (rounds + 1) j quotes buf =
      store buf rest.head? >>= quoteLoop content rounds (j + 1) 1 := by
  rw [quoteLoop, byte_at here]
  dsimp only
  rw [byte_behind here, one, if_neg (not_slashes clear), if_pos rfl]
  by_cases last : c = 0x2f ∧ rest.head? = none
  · rw [if_pos last, last.2]
    rfl
  · rw [if_neg last]
    rfl

theorem quoteLoop_copy (here : content.drop j = z ++ c :: rest) (free : 0x22 ∉ z)
    (clear : z <+: beforeMark slashes (z ++ c :: rest))
    (room : buf.length + z.length ≤ BUF_SIZE) :
    quoteLoop content (z.length + rounds) j 1 buf =
      quoteLoop content rounds (j + z.length) 1 (buf ++ (z ++ [c]).tail) := by
  induction z generalizing j buf with
  | nil =>
      rw [List.length_nil, Nat.zero_add, Nat.add_zero]
      exact congrArg _ (List.append_nil buf).symm
  | cons d z ih =>
      rw [List.cons_append] at here
      obtain ⟨starts, clear⟩ := clear_cons clear
      have other : d ≠ 0x22 := fun same => free (same ▸ List.mem_cons_self)
      obtain ⟨e, more, next⟩ : ∃ e more, z ++ c :: rest = e :: more := by
        cases z with
        | nil => exact ⟨c, rest, rfl⟩
        | cons e z => exact ⟨e, z ++ c :: rest, rfl⟩
      have first : (z ++ [c]) = e :: (z ++ [c]).tail := by
        cases z with
        | nil => exact congrArg (· :: []) (List.cons.inj next).1
        | cons e' z => exact congrArg (· :: (z ++ [c])) (List.cons.inj next).1
      rw [List.length_cons] at room
      rw [List.length_cons, Nat.add_right_comm, quoteLoop_byte here starts (if_neg other), next,
        List.head?_cons, store_room (by omega)]
      change quoteLoop content (z.length + rounds) (j + 1) 1 (buf ++ [e]) = _
      rw [ih (drop_next here) (fun member => free (List.mem_cons_of_mem _ member)) clear
        (by rw [List.length_append, List.length_singleton]; omega), Nat.add_assoc, Nat.add_comm 1,
        List.append_assoc, List.singleton_append, ← first]
      rfl

theorem quoteLoop_full (rounds : Nat) (here : content.drop j = z ++ rest) (free : 0x22 ∉ z)
    (clear : z <+: beforeMark slashes (z ++ rest)) (within : buf.length ≤ BUF_SIZE)
    (full : BUF_SIZE < buf.length + z.length ∨ rest = [] ∧ z ≠ []) :
    quoteLoop content (z.length + rounds) j 1 buf = .error .outside := by
  induction z generalizing j buf with
  | nil =>
      rcases full with full | both
      · exact absurd within (Nat.not_le_of_lt full)
      · exact absurd rfl both.2
  | cons d z ih =>
      rw [List.cons_append] at here
      obtain ⟨starts, clear⟩ := clear_cons clear
      have other : d ≠ 0x22 := fun same => free (same ▸ List.mem_cons_self)
      rw [List.length_cons, Nat.add_right_comm, quoteLoop_byte here starts (if_neg other)]
      by_cases room : buf.length < BUF_SIZE
      · cases next : (z ++ rest).head? with
        | none => rfl
        | some e =>
            rw [store_room room]
            change quoteLoop content (z.length + rounds) (j + 1) 1 (buf ++ [e]) = _
            have length : (buf ++ [e]).length = buf.length + 1 := by
              rw [List.length_append, List.length_singleton]
            apply ih (drop_next here) (fun member => free (List.mem_cons_of_mem _ member)) clear
            · rw [length]
              exact room
            · rw [length]
              refine full.imp (fun full => ?_) fun both => ⟨both.1, ?_⟩
              · rw [List.length_cons] at full
                omega
              · rintro rfl
                rw [both.1] at next
                cases next
      · rw [store_full (Nat.le_of_not_lt room)]
        rfl

theorem one_fits (e : Byte) : [e].length ≤ BUF_SIZE := by
  rw [List.length_singleton]
  decide

theorem quoteLoop_open (here : content.drop j = 0x22 :: (z ++ c :: rest)) (free : 0x22 ∉ z)
    (clear : z <+: beforeMark slashes (z ++ c :: rest)) :
    quoteLoop content (z.length + 1 + rounds) j 0 [] =
      if z.length < BUF_SIZE then quoteLoop content rounds (j + 1 + z.length) 1 (z ++ [c])
      else .error .outside := by
  have start : ¬slashes <+: 0x22 :: (z ++ c :: rest) := by
    intro starts
    exact absurd (List.cons_prefix_cons.mp starts).1 (by decide)
  obtain ⟨e, more, next⟩ : ∃ e more, z ++ c :: rest = e :: more := by
    cases z with
    | nil => exact ⟨c, rest, rfl⟩
    | cons e z => exact ⟨e, z ++ c :: rest, rfl⟩
  have first : (z ++ [c]) = e :: (z ++ [c]).tail := by
    cases z with
    | nil => exact congrArg (· :: []) (List.cons.inj next).1
    | cons e' z => exact congrArg (· :: (z ++ [c])) (List.cons.inj next).1
  rw [Nat.add_right_comm, quoteLoop_byte here start rfl, next, List.head?_cons,
    store_room (by decide : ([] : List Byte).length < BUF_SIZE)]
  change quoteLoop content (z.length + rounds) (j + 1) 1 [e] = _
  by_cases room : z.length < BUF_SIZE
  · rw [if_pos room, quoteLoop_copy (drop_next here) free clear
      (by rw [List.length_singleton]; omega), List.singleton_append, ← first]
  · rw [if_neg room]
    refine quoteLoop_full rounds (drop_next here) free clear (one_fits e) (.inl ?_)
    rw [List.length_singleton]
    omega

theorem quoteLoop_open_end (here : content.drop j = 0x22 :: z) (free : 0x22 ∉ z)
    (clear : z <+: beforeMark slashes z) :
    quoteLoop content (z.length + 1) j 0 [] = .error .outside := by
  have start : ¬slashes <+: 0x22 :: z := by
    intro starts
    exact absurd (List.cons_prefix_cons.mp starts).1 (by decide)
  rw [quoteLoop_byte here start rfl]
  cases z with
  | nil => rfl
  | cons e z =>
      rw [List.head?_cons, store_room (by decide : ([] : List Byte).length < BUF_SIZE)]
      have rest : content.drop (j + 1) = e :: z ++ [] := by rw [drop_next here, List.append_nil]
      exact quoteLoop_full 0 rest free (by rwa [List.append_nil]) (one_fits e)
        (.inr ⟨rfl, List.cons_ne_nil _ _⟩)

theorem quoteLoop_comment (here : content.drop j = rest) (starts : slashes <+: rest)
    (some_ : rounds ≠ 0) : quoteLoop content rounds j quotes buf = .ok (quotes, buf) := by
  obtain ⟨more, rfl⟩ := starts
  cases rounds with
  | zero => exact absurd rfl some_
  | succ rounds =>
      have start : content.drop j = 0x2f :: (0x2f :: more) := here
      rw [quoteLoop, byte_at start]
      dsimp only
      rw [byte_behind start, if_neg (by decide : ¬(0x2f : Byte) = 0x22), if_neg, if_pos ⟨rfl, rfl⟩]
      exact fun both => absurd both.2 (Option.some_ne_none _)

theorem quoteLoop_close (here : content.drop j = 0x22 :: rest) :
    quoteLoop content (rounds + 1) j 1 (z ++ [c]) = .ok (2, z ++ [0]) := by
  have other : ¬(0x22 : Byte) = 0x2f := by decide
  rw [quoteLoop, byte_at here]
  dsimp only
  rw [if_neg fun both => other both.1, if_neg fun both => other both.1]
  change Except.ok (2, (z ++ [c]).set ((z ++ [c]).length - 1) 0) = _
  rw [List.length_append, List.length_singleton, Nat.add_sub_cancel, List.set_append_right _ _ le_rfl,
    Nat.sub_self]
  rfl

/-- Behind the text of a line stands a line feed, or the content ends. -/
def LineStop (behind : List Byte) : Prop := behind = [] ∨ ∃ more, behind = 0x0a :: more

theorem shown_clear (stop : LineStop behind) :
    beforeMark slashes text <+: beforeMark slashes (text ++ behind) := by
  by_cases inside : slashes <:+: text
  · exact (beforeMark_inside inside).symm ▸ List.prefix_refl _
  · rw [(beforeMark_eq_self (by decide)).mpr inside]
    rcases stop with rfl | ⟨more, rfl⟩
    · rw [List.append_nil]
      exact ((beforeMark_eq_self (by decide)).mpr inside).symm ▸ List.prefix_refl text
    · rw [beforeMark_through (by decide) (by decide) inside]
      exact List.prefix_append _ _

variable {x value y : List Byte}

theorem drop_more {front : List Byte} (here : content.drop j = front ++ rest) :
    content.drop (j + front.length) = rest := by
  rw [← List.drop_drop, here, List.drop_left]

theorem quoteLoop_value (rounds : Nat) (here : content.drop j = x ++ 0x22 :: (value ++ c :: rest))
    (free : 0x22 ∉ x) (freeValue : 0x22 ∉ value)
    (clear : x ++ 0x22 :: value <+: beforeMark slashes (x ++ 0x22 :: (value ++ c :: rest))) :
    quoteLoop content (x.length + (value.length + 1 + rounds)) j 0 [] =
      if value.length < BUF_SIZE then
        quoteLoop content rounds (j + x.length + 1 + value.length) 1 (value ++ [c])
      else .error .outside := by
  have clearX := (List.prefix_append x _).trans clear
  have clearValue : value <+: beforeMark slashes (value ++ c :: rest) := by
    apply beforeMark_behind (x ++ [0x22])
    rw [List.append_assoc, List.append_assoc]
    exact clear
  rw [quoteLoop_skip _ _ here free clearX (List.cons_ne_nil _ _),
    quoteLoop_open (drop_more here) freeValue clearValue]

theorem quoteLoop_two (here : content.drop j = text ++ behind) (stop : LineStop behind)
    (shown : beforeMark slashes text = x ++ 0x22 :: (value ++ 0x22 :: y)) (free : 0x22 ∉ x)
    (freeValue : 0x22 ∉ value) : quoteLoop content text.length j 0 [] =
      if value.length < BUF_SIZE then .ok (2, value ++ [0]) else .error .outside := by
  have clear := @shown_clear text behind stop
  obtain ⟨tail, parts⟩ := beforeMark_initial slashes text
  rw [shown] at parts clear
  have places : text ++ behind = x ++ 0x22 :: (value ++ 0x22 :: (y ++ (tail ++ behind))) := by
    rw [← parts]
    simp only [List.append_assoc, List.cons_append]
  have length : text.length = x.length + (value.length + 1 + (y.length + tail.length + 1)) := by
    rw [← parts]
    simp only [List.length_append, List.length_cons]
    omega
  rw [places] at here clear
  rw [length, quoteLoop_value _ here free freeValue ((List.prefix_append_right_inj x).mpr
    (List.prefix_append (0x22 :: value) (0x22 :: y)) |>.trans clear)]
  have close := drop_more (drop_next (drop_more here))
  rw [quoteLoop_close close]

/-- What the loop stops at without a second quote: the end of the content, a line feed, or a
comment. -/
theorem shown_stop (text behind : List Byte) :
    ∃ after, text ++ behind = beforeMark slashes text ++ after ∧
      (after = [] ↔ behind = [] ∧ beforeMark slashes text = text) ∧
      ∀ {content : List Byte} (front buf : List Byte) (j quotes : Nat),
        content.drop j = front ++ after →
        after ≠ [] → quoteLoop content (text.length - (beforeMark slashes text).length)
          (j + front.length) quotes buf = .ok (quotes, buf) := by
  rcases beforeMark_parts slashes text with same | ⟨rest, parts, starts⟩
  · refine ⟨behind, congrArg (· ++ behind) same.symm, by simp [same], fun _ _ _ _ _ _ => ?_⟩
    rw [same, Nat.sub_self]
    rfl
  · have some_ : rest ≠ [] := fun none => absurd (none ▸ starts) (by decide)
    have longer : text.length = (beforeMark slashes text).length + rest.length :=
      (congrArg List.length parts).trans List.length_append
    have least := List.length_pos_iff.mpr some_
    refine ⟨rest ++ behind, ?_, ?_, fun _ _ _ _ here _ => ?_⟩
    · rw [← List.append_assoc, ← parts]
    · refine iff_of_false (fun none => some_ (List.append_eq_nil_iff.mp none).1) fun both => ?_
      rw [both.2] at longer
      omega
    · exact quoteLoop_comment (drop_more here) (starts.trans (List.prefix_append rest behind))
        (by omega)

theorem quoteLoop_one (here : content.drop j = text ++ behind) (stop : LineStop behind)
    (shown : beforeMark slashes text = x ++ 0x22 :: value) (free : 0x22 ∉ x)
    (freeValue : 0x22 ∉ value) :
    if BUF_SIZE ≤ value.length ∨ behind = [] ∧ beforeMark slashes text = text then
      quoteLoop content text.length j 0 [] = .error .outside
    else ∃ buf, quoteLoop content text.length j 0 [] = .ok (1, buf) := by
  have clear := @shown_clear text behind stop
  obtain ⟨after, places, ends, goesOn⟩ := shown_stop text behind
  have length : text.length =
      x.length + (value.length + 1 + (text.length - (beforeMark slashes text).length)) := by
    have within := (beforeMark_initial slashes text).length_le
    rw [shown, List.length_append, List.length_cons] at within ⊢
    omega
  cases after with
  | nil =>
      obtain ⟨rfl, whole⟩ := ends.mp rfl
      rw [if_pos (.inr ⟨rfl, whole⟩), length, whole, Nat.sub_self]
      obtain rfl : text = x ++ 0x22 :: value := whole.symm.trans shown
      have clear : x ++ 0x22 :: value <+: beforeMark slashes (x ++ 0x22 :: value) :=
        ⟨[], by rw [List.append_nil, shown]⟩
      rw [List.append_nil] at here
      rw [quoteLoop_skip _ _ here free ((List.prefix_append x _).trans clear) (List.cons_ne_nil _ _)]
      exact quoteLoop_open_end (drop_more here) freeValue
        (beforeMark_behind (x ++ [0x22]) (by rwa [List.append_assoc]))
  | cons c more =>
      have going : ¬(behind = [] ∧ beforeMark slashes text = text) := fun both =>
        List.cons_ne_nil _ _ (ends.mpr both)
      rw [places, shown, List.append_assoc, List.cons_append] at here clear
      have reads := quoteLoop_value (text.length - (beforeMark slashes text).length)
        here free freeValue clear
      rw [← length] at reads
      by_cases room : value.length < BUF_SIZE
      · rw [if_neg fun bad => bad.elim (Nat.not_le_of_lt room) going]
        rw [if_pos room] at reads
        have last := goesOn (x ++ 0x22 :: value) (value ++ [c]) j 1
          (by rw [here, List.append_assoc]; rfl) (List.cons_ne_nil _ _)
        rw [List.length_append, List.length_cons, Nat.add_comm value.length, ← Nat.add_assoc,
          ← Nat.add_assoc] at last
        exact ⟨_, reads.trans last⟩
      · rw [if_pos (.inl (Nat.le_of_not_lt room))]
        rwa [if_neg room] at reads

theorem quoteLoop_none (here : content.drop j = text ++ behind) (stop : LineStop behind)
    (free : 0x22 ∉ beforeMark slashes text) : quoteLoop content text.length j 0 [] =
      if (behind = [] ∧ beforeMark slashes text = text) ∧ text.getLast? = some 0x2f then
        .error .outside
      else .ok (0, []) := by
  have clear := @shown_clear text behind stop
  obtain ⟨after, places, ends, goesOn⟩ := shown_stop text behind
  by_cases none : after = []
  · obtain ⟨rfl, whole⟩ := ends.mp none
    rw [whole] at free clear
    rw [List.append_nil] at here clear
    induction text using List.reverseRecOn with
    | nil => rfl
    | append_singleton z c _ =>
        have other : ¬c = 0x22 := fun same =>
          free (List.mem_append_right _ (List.mem_singleton.mpr same.symm))
        rw [List.length_append, List.length_singleton, quoteLoop_skip _ _ here
          (fun member => free (List.mem_append_left _ member)) ((List.prefix_append z _).trans clear)
          (List.cons_ne_nil _ _), quoteLoop, byte_at (drop_more here)]
        dsimp only
        rw [byte_behind (drop_more here), if_neg other, List.getLast?_concat]
        by_cases slash : c = 0x2f
        · rw [if_pos ⟨slash, rfl⟩, if_pos ⟨⟨rfl, whole⟩, congrArg some slash⟩]
        · have goes : ¬((([] : List Byte) = [] ∧ beforeMark slashes (z ++ [c]) = z ++ [c]) ∧
              some c = some 0x2f) := fun both => slash (Option.some.inj both.2)
          rw [if_neg fun both => slash both.1, if_neg fun both => slash both.1, if_neg goes]
          rfl
  · have going : ¬(behind = [] ∧ beforeMark slashes text = text) := fun both => none (ends.mpr both)
    have within := (beforeMark_initial slashes text).length_le
    have length : text.length = (beforeMark slashes text).length +
        (text.length - (beforeMark slashes text).length) := by omega
    rw [places] at here clear
    have skip := quoteLoop_skip (text.length - (beforeMark slashes text).length) []
      here free clear none
    rw [← length] at skip
    rw [if_neg fun both => going both.1, skip]
    exact goesOn _ _ _ _ here none

theorem quotes_cases (shown : List Byte) :
    (0x22 ∉ shown ∧ shown.splitOn 0x22 = [shown]) ∨
    (∃ x value, shown = x ++ 0x22 :: value ∧ 0x22 ∉ x ∧ 0x22 ∉ value ∧
      shown.splitOn 0x22 = [x, value]) ∨
    ∃ x value y z more, shown = x ++ 0x22 :: (value ++ 0x22 :: y) ∧ 0x22 ∉ x ∧ 0x22 ∉ value ∧
      shown.splitOn 0x22 = x :: value :: z :: more := by
  by_cases one : 0x22 ∈ shown
  · obtain ⟨x, rest, rfl, free⟩ := List.eq_append_cons_of_mem one
    rw [List.splitOn_append_cons_self_of_not_mem free]
    by_cases two : 0x22 ∈ rest
    · obtain ⟨value, y, rfl, freeValue⟩ := List.eq_append_cons_of_mem two
      obtain ⟨z, more, last⟩ := List.exists_cons_of_ne_nil (List.splitOn_ne_nil (0x22 : Byte) y)
      rw [List.splitOn_append_cons_self_of_not_mem freeValue, last]
      exact .inr (.inr ⟨x, value, y, z, more, rfl, free, freeValue, rfl⟩)
    · rw [List.splitOn_eq_singleton two]
      exact .inr (.inl ⟨x, rest, rfl, free, two, rfl⟩)
  · exact .inl ⟨one, List.splitOn_eq_singleton one⟩

end

/-! ## The end of a line -/

theorem equalPlace_le (bytes : List Byte) : equalPlace bytes ≤ bytes.length := Nat.sub_le _ _

theorem drop_equalPlace (bytes behind : List Byte) :
    (bytes ++ behind).drop (equalPlace bytes) = fromLast 0x3d bytes ++ behind := by
  obtain ⟨front, parts⟩ := fromLast_suffix (0x3d : Byte) bytes
  have place : equalPlace bytes = front.length := by
    have length := congrArg List.length parts
    rw [List.length_append] at length
    rw [equalPlace]
    omega
  rw [place]
  conv_lhs => rw [← parts]
  rw [List.append_assoc, List.drop_left]

theorem sub_equalPlace (bytes : List Byte) :
    bytes.length - equalPlace bytes = (fromLast 0x3d bytes).length := by
  have within := (fromLast_suffix (0x3d : Byte) bytes).length_le
  rw [equalPlace]
  omega

section

variable {content bytes behind : List Byte} {lf : Nat} {num : Int} {info : List HardInfo}

/-- What a pass is at behind a line. -/
def lineDone (bytes : List Byte) (info : List HardInfo) : InitState :=
  ⟨bytes.length, equalPlace bytes, -1, info⟩

theorem stringOf_closed (value : List Byte) :
    stringOf 0 (value ++ [0]) = stringOf 0 value := by
  by_cases inside : (0 : Byte) ∈ value
  · obtain ⟨x, y, rfl, free⟩ := List.eq_append_cons_of_mem inside
    rw [List.append_assoc, List.cons_append, stringOf_append free, stringOf_append free]
  · rw [stringOf_append inside, stringOf_of_free inside]

/-- What a line does with the quotes that were counted. -/
def lineSet (quoteCnt : Nat) (string : List Byte) (num : Int) (info : List HardInfo) :
    Except Stop (List HardInfo) :=
  if quoteCnt = 0 ∧ num ≠ -1 then .error (.returned NO_CONTEXT_ERR)
  else if num = -1 then .ok info
  else if quoteCnt = 1 then .error (.returned ONLY_ONE_QUOTE_ERR)
  else setContext string num info

theorem finishLine_set (content bytes : List Byte) :
    finishLine content bytes.length ⟨lf, equalPlace bytes, num, info⟩ =
      (quoteLoop content (fromLast 0x3d bytes).length (equalPlace bytes) 0 []) >>= fun looped =>
        (lineSet looped.1 (stringOf 0 looped.2) num info).map (lineDone bytes) := by
  rw [finishLine, if_neg (Nat.not_lt_of_le (equalPlace_le bytes)), sub_equalPlace]
  refine congrArg _ (funext fun looped => ?_)
  obtain ⟨quoteCnt, buf⟩ := looped
  dsimp only
  rw [lineSet]
  by_cases none : quoteCnt = 0 ∧ num ≠ -1
  · rw [if_pos none, if_pos none]
    rfl
  rw [if_neg none, if_neg none]
  by_cases unset : num = -1
  · rw [if_pos unset, if_pos unset, unset]
    rfl
  rw [if_neg unset, if_neg unset]
  by_cases one : quoteCnt = 1
  · rw [if_pos one, if_pos one]
    rfl
  rw [if_neg one, if_neg one, setContext]
  cases verifySymbol (stringOf 0 buf) num with
  | none => rfl
  | some answer =>
      cases versiconKeyword[num.toNat]? with
      | none => rfl
      | some config =>
          dsimp only
          by_cases bad : answer.2 < 0
          · rw [if_pos bad, if_pos bad]
            rfl
          rw [if_neg bad, if_neg bad]
          cases fillHardwareInfo (text config.keyword) answer.1 config.type info <;> rfl

/-- **The end of a line.** -/
theorem finishLine_eq (parts : content = bytes ++ behind) (stop : LineStop behind) :
    finishLine content bytes.length ⟨lf, equalPlace bytes, num, info⟩ =
      (lineValue (fromLast 0x3d bytes) (decide (behind = [])) num info).map (lineDone bytes) := by
  have here := drop_equalPlace bytes behind
  rw [← parts] at here
  rw [finishLine_set, lineValue]
  generalize fromLast 0x3d bytes = text at here ⊢
  rcases quotes_cases (beforeMark slashes text) with ⟨free, split⟩ |
    ⟨x, value, shown, free, freeValue, split⟩ | ⟨x, value, y, z, more, shown, free, freeValue, split⟩
  · rw [quoteLoop_none here stop free, split]
    dsimp only
    by_cases out : (behind = [] ∧ beforeMark slashes text = text) ∧ text.getLast? = some 0x2f
    · rw [if_pos out, if_pos ⟨decide_eq_true out.1.1, out.1.2, out.2⟩]
      rfl
    · rw [if_neg out, if_neg fun all => out ⟨⟨of_decide_eq_true all.1, all.2.1⟩, all.2.2⟩]
      change (lineSet 0 _ num info).map _ = _
      rw [lineSet]
      by_cases unset : num = -1
      · rw [if_neg fun both => both.2 unset, if_pos unset, if_pos unset]
      · rw [if_pos ⟨rfl, unset⟩, if_neg unset]
  · have reads := quoteLoop_one here stop shown free freeValue
    rw [split]
    dsimp only
    by_cases out : BUF_SIZE ≤ value.length ∨ behind = [] ∧ beforeMark slashes text = text
    · rw [if_pos out] at reads
      rw [reads, if_pos (out.imp_right fun both => ⟨decide_eq_true both.1, both.2⟩)]
      rfl
    · rw [if_neg out] at reads
      obtain ⟨buf, reads⟩ := reads
      rw [reads, if_neg fun bad => out (bad.imp_right fun both => ⟨of_decide_eq_true both.1, both.2⟩)]
      change (lineSet 1 _ num info).map _ = _
      rw [lineSet, if_neg fun both => absurd both.1 (by decide), if_pos rfl]
  · rw [quoteLoop_two here stop shown free freeValue, split]
    dsimp only
    by_cases room : value.length < BUF_SIZE
    · rw [if_pos room, if_neg (Nat.not_le_of_lt room)]
      change (lineSet 2 (stringOf 0 (value ++ [0])) num info).map _ = _
      rw [lineSet, stringOf_closed, if_neg fun both => absurd both.1 (by decide),
        if_neg (by decide : ¬(2 : Nat) = 1)]
    · rw [if_neg room, if_pos (Nat.le_of_not_lt room)]
      rfl

end

/-! ## The keyword of a line -/

section

variable {before pre post behind content : List Byte} {num : Int} {info : List HardInfo} {c : Byte}

theorem LineStart.no_slash (start : LineStart before) {j : Nat} (low : before.length - 1 ≤ j)
    (slash : (before ++ pre)[j]? = some 0x2f) : before.length ≤ j := by
  rcases start with rfl | ⟨front, rfl⟩
  · exact Nat.zero_le j
  · rw [List.length_append, List.length_singleton] at low ⊢
    rcases Nat.lt_or_eq_of_le low with above | rfl
    · exact above
    · rw [Nat.add_sub_cancel, List.append_assoc, List.getElem?_append_right le_rfl,
        Nat.sub_self] at slash
      cases slash

theorem slashes_infix :
    slashes <:+: pre ↔ ∃ k : Nat, pre[k]? = some 0x2f ∧ pre[k + 1]? = some 0x2f := by
  rw [List.infix_iff_getElem?]
  constructor
  · rintro ⟨k, -, same⟩
    have first := same 0 (by decide)
    have second := same 1 (by decide)
    rw [Nat.zero_add] at first
    rw [Nat.add_comm] at second
    exact ⟨k, first, second⟩
  · rintro ⟨k, first, second⟩
    obtain ⟨inside, -⟩ := List.getElem?_eq_some_iff.mp second
    refine ⟨k, by rw [Nat.add_comm]; exact inside, fun i below => ?_⟩
    match i, below with
    | 0, _ => rw [Nat.zero_add]; exact first
    | 1, _ => rw [Nat.add_comm]; exact second

theorem commented_iff (start : LineStart before) :
    commented (before ++ (pre ++ 0x3d :: post)) (before.length - 1) (before.length + pre.length) =
      true ↔ slashes <:+: pre := by
  rw [commented, List.any_eq_true, slashes_infix]
  have places : ∀ k, (before ++ (pre ++ 0x3d :: post))[before.length + k]? =
      (pre ++ 0x3d :: post)[k]? := fun k => by
    rw [List.getElem?_append_right (Nat.le_add_right _ _), Nat.add_sub_cancel_left]
  constructor
  · rintro ⟨j, member, both⟩
    obtain ⟨first, second⟩ := Bool.and_eq_true_iff.mp both
    have first := eq_of_beq first
    have second := eq_of_beq second
    obtain ⟨low, high⟩ := List.mem_range'_1.mp member
    obtain ⟨k, rfl⟩ := Nat.exists_eq_add_of_le (start.no_slash low first)
    rw [places] at first
    rw [Nat.add_assoc, places] at second
    have below : k < pre.length := by omega
    rw [List.getElem?_append_left below] at first
    refine ⟨k, first, ?_⟩
    rcases Nat.lt_or_eq_of_le (Nat.succ_le_of_lt below) with inside | last
    · rwa [List.getElem?_append_left inside] at second
    · have same : k + 1 = pre.length := last
      rw [same, List.getElem?_append_right le_rfl, Nat.sub_self] at second
      exact absurd (Option.some.inj second) (by decide)
  · rintro ⟨k, first, second⟩
    obtain ⟨inside, -⟩ := List.getElem?_eq_some_iff.mp second
    refine ⟨before.length + k, List.mem_range'_1.mpr (by omega), ?_⟩
    rw [places, Nat.add_assoc, places, List.getElem?_append_left (by omega), first,
      List.getElem?_append_left inside, second]
    decide

theorem findKeyword_eq (post : List Byte) (start : LineStart before) :
    findKeyword (before ++ (pre ++ 0x3d :: post)) (before.length - 1) (before.length + pre.length) =
      keyOf (lead before ++ pre) := by
  have string : ∃ place, (if before.length - 1 = 0 then before.length - 1
        else before.length - 1 + 1) = place ∧
      (before ++ (pre ++ 0x3d :: post)).drop place = lead before ++ pre ++ 0x3d :: post ∧
      before.length + pre.length - place = (lead before ++ pre).length := by
    rcases start with rfl | ⟨front, rfl⟩
    · exact ⟨0, rfl, rfl, Nat.zero_add _⟩
    · cases front with
      | nil =>
          refine ⟨0, rfl, rfl, ?_⟩
          change 1 + pre.length = (0x0a :: pre).length
          rw [List.length_cons, Nat.add_comm]
      | cons c front =>
          have other : lead (c :: front ++ [0x0a]) = [] := if_neg fun same =>
            absurd (congrArg List.length same) (by simp)
          refine ⟨(c :: front ++ [0x0a]).length, ?_, ?_, ?_⟩
          · rw [List.length_append, List.length_cons, List.length_singleton, Nat.add_sub_cancel,
              if_neg (Nat.succ_ne_zero _)]
          · rw [other, List.drop_left, List.nil_append]
          · rw [other, Nat.add_sub_cancel_left, List.nil_append]
  obtain ⟨place, starts, behind, length⟩ := string
  simp only [findKeyword, starts, behind, length, List.take_left]

theorem equalPlace_equal (bytes : List Byte) : equalPlace (bytes ++ [0x3d]) = bytes.length := by
  rw [equalPlace, fromLast_snoc, List.length_append]
  exact Nat.add_sub_cancel _ _

theorem equalPlace_other (bytes : List Byte) (other : c ≠ 0x3d) :
    equalPlace (bytes ++ [c]) = equalPlace bytes := by
  rw [equalPlace, equalPlace,
    fromLast_behind fun member => other (List.mem_singleton.mp member).symm, List.length_append,
    List.length_append, Nat.add_sub_add_right]

/-- What a pass is at inside a line. -/
def lineAt (before pre : List Byte) (num : Int) (info : List HardInfo) : InitState :=
  ⟨before.length - 1, equalPlace (before ++ pre), num, info⟩

theorem initRound_equal (start : LineStart before)
    (parts : content = before ++ (pre ++ 0x3d :: post)) :
    initRound content (lineAt before pre num info) (before.length + pre.length) =
      if slashes <:+: pre then .ok (lineAt before (pre ++ [0x3d]) num info)
      else keyOf (lead before ++ pre) >>= fun num =>
        lineEnd content (lineAt before (pre ++ [0x3d]) num info) (before.length + pre.length) := by
  have here : content[before.length + pre.length]? = some 0x3d := by
    rw [parts, List.getElem?_append_right (Nat.le_add_right _ _), Nat.add_sub_cancel_left,
      List.getElem?_append_right le_rfl, Nat.sub_self]
    rfl
  have place : equalPlace (before ++ (pre ++ [0x3d])) = before.length + pre.length := by
    rw [← List.append_assoc, equalPlace_equal, List.length_append]
  have behind : ¬before.length + pre.length < before.length - 1 := by omega
  rw [initRound, if_pos here]
  simp only [lineAt, place]
  refine (if_neg behind).trans ?_
  by_cases inside : slashes <:+: pre
  · refine (if_pos ?_).trans (if_pos inside).symm
    rw [parts]
    exact (commented_iff start).mpr inside
  · rw [if_neg inside, ← findKeyword_eq post start, ← parts]
    refine if_neg ?_
    rw [parts]
    exact fun is => inside ((commented_iff start).mp is)

theorem initRound_other (other : c ≠ 0x3d) (parts : content = before ++ (pre ++ c :: post)) :
    initRound content (lineAt before pre num info) (before.length + pre.length) =
      lineEnd content (lineAt before (pre ++ [c]) num info) (before.length + pre.length) := by
  have here : content[before.length + pre.length]? = some c := by
    rw [parts, List.getElem?_append_right (Nat.le_add_right _ _), Nat.add_sub_cancel_left,
      List.getElem?_append_right le_rfl, Nat.sub_self]
    rfl
  rw [initRound, if_neg fun same => other (Option.some.inj (here.symm.trans same)), lineAt, lineAt,
    ← List.append_assoc, equalPlace_other _ other]

theorem lineEnd_inside (s : InitState) (inside : c ≠ 0x0a) (more : behind ≠ [])
    (parts : content = before ++ (pre ++ c :: behind)) :
    lineEnd content s (before.length + pre.length) = .ok s := by
  have here : content[before.length + pre.length]? = some c := by
    rw [parts, List.getElem?_append_right (Nat.le_add_right _ _), Nat.add_sub_cancel_left,
      List.getElem?_append_right le_rfl, Nat.sub_self]
    rfl
  have length : content.length = before.length + (pre.length + (behind.length + 1)) := by
    rw [parts, List.length_append, List.length_append, List.length_cons]
  have least := List.length_pos_iff.mpr more
  rw [lineEnd, if_neg fun same => inside (Option.some.inj (here.symm.trans same)),
    if_neg (by omega)]

theorem initRounds_line (pre : List Byte) (num : Int) (info : List HardInfo)
    (start : LineStart before)
    (parts : content = before ++ (pre ++ (post ++ behind))) (inside : 0x0a ∉ post)
    (more : behind ≠ []) :
    (List.range' (before.length + pre.length) post.length).foldlM (initRound content)
        (lineAt before pre num info) =
      (lineKey (lead before) pre post num).map fun num => lineAt before (pre ++ post) num info := by
  induction post generalizing pre num with
  | nil =>
      rw [lineKey, List.append_nil]
      rfl
  | cons c post ih =>
      have next : content = before ++ (pre ++ [c] ++ (post ++ behind)) := by
        rw [parts, List.append_assoc pre]
        rfl
      have place : before.length + (pre ++ [c]).length = before.length + pre.length + 1 := by
        rw [List.length_append, List.length_singleton, Nat.add_assoc]
      have ih := fun num => @ih (pre ++ [c]) num next fun member =>
        inside (List.mem_cons_of_mem _ member)
      have stays : ∀ s, lineEnd content s (before.length + pre.length) = .ok s := fun s =>
        lineEnd_inside s (fun same => inside (same ▸ List.mem_cons_self))
          (List.append_ne_nil_of_right_ne_nil _ more) parts
      have joined : pre ++ [c] ++ post = pre ++ c :: post := List.append_assoc _ _ _
      simp only [place, joined] at ih
      rw [List.length_cons, List.range'_succ, List.foldlM_cons, lineKey]
      by_cases equal : c = 0x3d
      · subst equal
        rw [initRound_equal start parts]
        by_cases comment : slashes <:+: pre
        · rw [if_pos comment, if_neg fun both => both.2 comment]
          exact ih num
        · rw [if_neg comment, if_pos ⟨rfl, comment⟩]
          cases keyOf (lead before ++ pre) with
          | error stop => rfl
          | ok num =>
              change (lineEnd content _ _ >>= fun s => _) = _
              rw [stays]
              exact ih num
      · rw [initRound_other equal parts, stays, if_neg fun both => equal both.1]
        exact ih num

/-! ## The content -/

theorem lineKey_append (front pre post last : List Byte) (num : Int) :
    lineKey front pre (post ++ last) num =
      lineKey front pre post num >>= lineKey front (pre ++ post) last := by
  induction post generalizing pre num with
  | nil =>
      rw [List.nil_append, List.append_nil, lineKey]
      rfl
  | cons c post ih =>
      have joined : pre ++ [c] ++ post = pre ++ c :: post := List.append_assoc _ _ _
      have ih := ih (pre ++ [c])
      rw [joined] at ih
      rw [List.cons_append, lineKey, lineKey]
      by_cases key : c = 0x3d ∧ ¬slashes <:+: pre
      · rw [if_pos key, if_pos key]
        cases keyOf (front ++ pre) with
        | error stop => rfl
        | ok num => exact ih num
      · rw [if_neg key, if_neg key]
        exact ih num

theorem lineKey_snoc (front pre : List Byte) (c : Byte) (num : Int) :
    lineKey front [] (pre ++ [c]) num = lineKey front [] pre num >>= fun num =>
      if c = 0x3d ∧ ¬slashes <:+: pre then keyOf (front ++ pre) else .ok num := by
  rw [lineKey_append, List.nil_append]
  refine congrArg _ (funext fun num => ?_)
  rw [lineKey]
  by_cases key : c = 0x3d ∧ ¬slashes <:+: pre
  · rw [if_pos key, if_pos key]
    cases keyOf (front ++ pre) <;> rfl
  · rw [if_neg key, if_neg key, lineKey]

theorem map_map {α β γ : Type} (x : Except Stop α) (f : α → β) (g : β → γ) :
    (x.map f).map g = x.map (g ∘ f) := by
  cases x <;> rfl

theorem map_info {content : List Byte} (x : Except Stop (List HardInfo)) :
    x.map (InitState.hardwareInfo ∘ lineDone content) = x := by
  cases x <;> rfl

theorem passedOver_snoc : PassedOver (pre ++ [c]) ↔ c = 0x3d ∧ slashes <:+: pre := by
  constructor
  · rintro (none | ⟨front, parts, comment⟩)
    · exact absurd (List.append_eq_nil_iff.mp none).2 (List.cons_ne_nil _ _)
    · obtain ⟨rfl, same⟩ := List.append_inj' parts rfl
      exact ⟨(List.cons.inj same).1, comment⟩
  · rintro ⟨rfl, comment⟩
    exact .inr ⟨pre, rfl, comment⟩

theorem lineEnd_last (inside : c ≠ 0x0a) (parts : content = before ++ (pre ++ [c])) :
    lineEnd content (lineAt before (pre ++ [c]) num info) (before.length + pre.length) =
      (lineValue (fromLast 0x3d (before ++ (pre ++ [c]))) true num info).map
        (lineDone content) := by
  have here : content[before.length + pre.length]? = some c := by
    rw [parts, List.getElem?_append_right (Nat.le_add_right _ _), Nat.add_sub_cancel_left,
      List.getElem?_append_right le_rfl, Nat.sub_self]
    rfl
  have length : before.length + pre.length + 1 = content.length := by
    rw [parts, List.length_append, List.length_append, List.length_singleton, Nat.add_assoc]
  rw [lineEnd, if_neg fun same => inside (Option.some.inj (here.symm.trans same)),
    if_pos length, lineAt, ← parts]
  exact finishLine_eq (List.append_nil content).symm (.inl rfl)

theorem initRounds_last (start : LineStart before) (parts : content = before ++ post)
    (inside : 0x0a ∉ post) :
    ((List.range' before.length post.length).foldlM (initRound content)
        (lineAt before [] (-1) info)).map InitState.hardwareInfo =
      lineRun before post true info := by
  induction post using List.reverseRecOn with
  | nil => rfl
  | append_singleton pre c _ =>
      have last : content = before ++ ([] ++ (pre ++ [c])) := parts
      have bytes := initRounds_line [] (-1) info start last
        (fun member => inside (List.mem_append_left _ member)) (List.cons_ne_nil _ _)
      have other : c ≠ 0x0a := fun same =>
        inside (List.mem_append_right _ (List.mem_singleton.mpr same.symm))
      have value := fun num => @lineEnd_last before pre content num info c other parts
      rw [List.length_nil, Nat.add_zero] at bytes
      rw [List.length_append, List.length_singleton, List.range'_concat, List.foldlM_append, bytes,
        lineRun, lineKey_snoc, Nat.one_mul]
      cases lineKey (lead before) [] pre (-1) with
      | error stop => rfl
      | ok num =>
          change ((initRound content (lineAt before ([] ++ pre) num info)
            (before.length + pre.length) >>= pure).map _) = ite _ _ _ >>= fun num => ite _ _ _
          rw [bind_pure, List.nil_append]
          by_cases equal : c = 0x3d
          · subst equal
            rw [initRound_equal start parts]
            by_cases comment : slashes <:+: pre
            · have passed : PassedOver (pre ++ [0x3d]) := passedOver_snoc.mpr ⟨rfl, comment⟩
              rw [if_pos comment, if_neg fun both => both.2 comment]
              exact (if_pos ⟨rfl, passed⟩).symm
            · have read : ¬(true = true ∧ PassedOver (pre ++ [0x3d])) := fun both =>
                comment (passedOver_snoc.mp both.2).2
              rw [if_neg comment, if_pos ⟨rfl, comment⟩]
              cases keyOf (lead before ++ pre) with
              | error stop => rfl
              | ok num =>
                  change (lineEnd content _ _).map _ = ite _ _ _
                  rw [value, if_neg read, map_map]
                  exact map_info _
          · have read : ¬(true = true ∧ PassedOver (pre ++ [c])) := fun both =>
              equal (passedOver_snoc.mp both.2).1
            rw [initRound_other equal parts, value, if_neg fun both => equal both.1, map_map]
            change _ = ite _ _ _
            rw [if_neg read]
            exact map_info _

theorem initRounds_next (start : LineStart before)
    (parts : content = before ++ (post ++ 0x0a :: behind)) (inside : 0x0a ∉ post) :
    (List.range' before.length (post.length + 1)).foldlM (initRound content)
        (lineAt before [] (-1) info) =
      (lineRun before post false info).map (lineAt (before ++ post ++ [0x0a]) [] (-1)) := by
  have bytes := initRounds_line [] (-1) info
    start parts inside (List.cons_ne_nil _ _)
  rw [List.length_nil, Nat.add_zero] at bytes
  rw [List.range'_concat, List.foldlM_append, bytes, lineRun, Nat.one_mul]
  cases lineKey (lead before) [] post (-1) with
  | error stop => rfl
  | ok num =>
      have here : content[before.length + post.length]? = some 0x0a := by
        rw [parts, List.getElem?_append_right (Nat.le_add_right _ _), Nat.add_sub_cancel_left,
          List.getElem?_append_right le_rfl, Nat.sub_self]
        rfl
      have place : equalPlace (before ++ (post ++ [0x0a])) = equalPlace (before ++ post) := by
        rw [← List.append_assoc]
        exact equalPlace_other _ (by decide)
      have ends := @finishLine_eq content (before ++ post) (0x0a :: behind) (before.length - 1) num
        info (by rw [parts, List.append_assoc]) (.inr ⟨behind, rfl⟩)
      change (initRound content (lineAt before ([] ++ post) num info)
        (before.length + post.length) >>= pure) =
        (if false = true ∧ PassedOver post then .ok info
          else lineValue (fromLast 0x3d (before ++ post)) false num info).map _
      rw [bind_pure, List.nil_append, initRound_other (by decide) parts, lineEnd, if_pos here, lineAt,
        place, ← List.length_append, ends, if_neg fun both => Bool.false_ne_true both.1,
        decide_eq_false (List.cons_ne_nil _ _)]
      refine congrArg (Except.map · _) (funext fun info => ?_)
      have length : (before ++ (post ++ [0x0a])).length - 1 = (before ++ post).length := by
        rw [← List.append_assoc, List.length_append, List.length_singleton, Nat.add_sub_cancel]
      rw [lineDone, lineAt, List.append_nil, List.append_assoc, place, length]

theorem initRounds_lines (start : LineStart before) (parts : content = before ++ post) :
    ((List.range' before.length post.length).foldlM (initRound content)
        (lineAt before [] (-1) info)).map InitState.hardwareInfo =
      linesRun before (post.splitOn 0x0a) info := by
  induction post using lines_induction (0x0a : Byte) generalizing before info with
  | last line free =>
      rw [List.splitOn_eq_singleton free]
      exact initRounds_last start parts free
  | next line rest free ih =>
      obtain ⟨next, lines, more⟩ := List.exists_cons_of_ne_nil (List.splitOn_ne_nil (0x0a : Byte) rest)
      have behind : LineStart (before ++ line ++ [0x0a]) := .inr ⟨before ++ line, rfl⟩
      have length : (before ++ line ++ [0x0a]).length = before.length + (line.length + 1) := by
        rw [List.length_append, List.length_append, List.length_singleton, Nat.add_assoc]
      have ih := fun info => @ih (before ++ line ++ [0x0a]) info behind (by
        rw [parts, List.append_assoc, List.append_assoc]
        rfl)
      rw [length] at ih
      rw [List.splitOn_append_cons_self_of_not_mem free, more, linesRun, ← more]
      have rounds : line.length + 1 + rest.length = (line ++ 0x0a :: rest).length := by
        rw [List.length_append, List.length_cons, Nat.add_right_comm, Nat.add_assoc]
      rw [← rounds, ← List.range'_append_1, List.foldlM_append, initRounds_next start parts free]
      cases lineRun before line false info with
      | error stop => rfl
      | ok info => exact ih info

/-- **The pass goes through the lines.** -/
theorem cfgPass_lines (old : VersionConfig → Option ConfigType) (content : List Byte) :
    cfgPass old content = linesRun [] (content.splitOn 0x0a) (emptyInfo old) := by
  rw [cfgPass, List.range_eq_range']
  exact initRounds_lines (.inl rfl) (List.nil_append _).symm

end

end PosFirmware.CfgManage
