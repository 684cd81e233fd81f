import Mathlib.Order.Basic

/-! # Lines that lose, damage and repeat

What is on a line between a sender and a receiver: items in the order in which they were
sent, of which some may be lost, damaged so that they are not read, or repeated. What an
item says held when it was sent, and the states in which the items were sent ascend.
-/

namespace PosFirmware.Foundation

variable {τ ι β : Type} [Preorder τ]

/-- The items were sent one after the other, in states that ascend from `low` to `high`. -/
inductive Ascending (carries : τ → ι → Prop) : τ → τ → List ι → Prop
  | nil {low high : τ} (below : low ≤ high) : Ascending carries low high []
  | cons {low t high : τ} {item : ι} {rest : List ι} (below : low ≤ t) (carried : carries t item)
      (past : Ascending carries t high rest) : Ascending carries low high (item :: rest)

namespace Ascending

variable {carries : τ → ι → Prop} {low high : τ} {items : List ι}

theorem le (ascending : Ascending carries low high items) : low ≤ high := by
  induction ascending with
  | nil below => exact below
  | cons below _ _ past => exact below.trans past

/-- A line may start in an earlier state. -/
theorem from_lower {lower : τ} (below : lower ≤ low) (ascending : Ascending carries low high items) :
    Ascending carries lower high items := by
  cases ascending with
  | nil here => exact .nil (below.trans here)
  | cons here carried past => exact .cons (below.trans here) carried past

/-- The sender goes on to a later state. -/
theorem to_higher {higher : τ} (above : high ≤ higher) (ascending : Ascending carries low high items) :
    Ascending carries low higher items := by
  induction ascending with
  | nil below => exact .nil (below.trans above)
  | cons below carried _ past => exact .cons below carried (past above)

/-- What the items say may be said more weakly. -/
theorem imp {weaker : τ → ι → Prop} (weakens : ∀ t item, carries t item → weaker t item)
    (ascending : Ascending carries low high items) : Ascending weaker low high items := by
  induction ascending with
  | nil below => exact .nil below
  | cons below carried _ past => exact .cons below (weakens _ _ carried) past

/-- An item is sent. -/
theorem send {item : ι} (carried : carries high item) (ascending : Ascending carries low high items) :
    Ascending carries low high (items ++ [item]) := by
  induction ascending with
  | nil below => exact .cons below carried (.nil le_rfl)
  | cons below here _ past => exact .cons below here (past carried)

/-- Items are lost. -/
theorem sublist {fewer : List ι} (part : fewer.Sublist items)
    (ascending : Ascending carries low high items) : Ascending carries low high fewer := by
  induction part generalizing low with
  | slnil => exact ascending
  | cons item _ past =>
    cases ascending with
    | cons below _ later => exact (past later).from_lower below
  | cons_cons item _ past =>
    cases ascending with
    | cons below carried later => exact .cons below carried (past later)

end Ascending

/-- What a line does to the items on it. -/
inductive LineFault (β : Type) where
  /-- The item at a place is lost. -/
  | lose (place : Nat)
  /-- The item at a place is damaged. -/
  | damage (place : Nat) (damaged : β)
  /-- The item at a place comes twice. -/
  | again (place : Nat)

/-- The line after a fault; items are damaged so that they are not read. -/
def LineFault.apply (read : β → Option ι) (line : List β) : LineFault β → List β
  | .lose place => line.eraseIdx place
  | .damage place damaged => if (read damaged).isNone then line.set place damaged else line
  | .again place => line.take (place + 1) ++ line.drop place

/-- A damaged item is as good as a lost one. -/
theorem filterMap_set_sublist {read : β → Option ι} {damaged : β} (unread : read damaged = none)
    (line : List β) (place : Nat) :
    ((line.set place damaged).filterMap read).Sublist (line.filterMap read) := by
  induction line generalizing place with
  | nil => exact List.Sublist.refl _
  | cons item rest past =>
    cases place with
    | zero =>
      rw [List.set_cons_zero, List.filterMap_cons_none unread]
      exact (List.sublist_cons_self item rest).filterMap read
    | succ place =>
      rw [List.set_cons_succ]
      have shorter := past place
      cases readable : read item with
      | none => rwa [List.filterMap_cons_none readable, List.filterMap_cons_none readable]
      | some first =>
        rw [List.filterMap_cons_some readable, List.filterMap_cons_some readable]
        exact shorter.cons_cons first

/-- A repeated item is the same item again. -/
theorem Ascending.again {carries : τ → ι → Prop} {low high : τ} {read : β → Option ι}
    {line : List β} (place : Nat) (ascending : Ascending carries low high (line.filterMap read)) :
    Ascending carries low high ((line.take (place + 1) ++ line.drop place).filterMap read) := by
  induction line generalizing low place with
  | nil => simpa using ascending
  | cons item rest past =>
    cases place with
    | zero =>
      cases readable : read item with
      | none =>
        rw [List.filterMap_cons_none readable] at ascending
        simpa [readable] using ascending
      | some first =>
        rw [List.filterMap_cons_some readable] at ascending
        cases ascending with
        | cons below carried later =>
          simpa [readable] using Ascending.cons below carried (.cons le_rfl carried later)
    | succ place =>
      rw [List.take_succ_cons, List.drop_succ_cons, List.cons_append]
      cases readable : read item with
      | none =>
        rw [List.filterMap_cons_none readable] at ascending ⊢
        exact past place ascending
      | some first =>
        rw [List.filterMap_cons_some readable] at ascending ⊢
        cases ascending with
        | cons below carried later => exact .cons below carried (past place later)

/-- Faults of the line keep the order of what is on it. -/
theorem Ascending.fault {carries : τ → ι → Prop} {low high : τ} {read : β → Option ι}
    {line : List β} (ascending : Ascending carries low high (line.filterMap read))
    (fault : LineFault β) :
    Ascending carries low high ((fault.apply read line).filterMap read) := by
  cases fault with
  | lose place => exact ascending.sublist ((List.eraseIdx_sublist line place).filterMap read)
  | damage place damaged =>
    simp only [LineFault.apply]
    split
    · next unread =>
      exact ascending.sublist (filterMap_set_sublist (Option.isNone_iff_eq_none.mp unread) _ _)
    · exact ascending
  | again place => exact ascending.again place

end PosFirmware.Foundation
