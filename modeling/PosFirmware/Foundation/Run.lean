import Mathlib.Data.List.Basic

/-! # Runs over events

A system that takes one event after the other, and what holds in every state of a run
whose events all meet a condition in the states in which they happen.
-/

namespace PosFirmware.Foundation

variable {σ ε : Type} {step : σ → ε → σ} {condition : σ → ε → Prop}

/-- The state after the events of a run. -/
def runEvents (step : σ → ε → σ) (s : σ) (events : List ε) : σ := events.foldl step s

/-- Every event of a run meets the condition where it happens. -/
def Meets (step : σ → ε → σ) (condition : σ → ε → Prop) : σ → List ε → Prop
  | _, [] => True
  | s, event :: rest => condition s event ∧ Meets step condition (step s event) rest

instance Meets.decidable [∀ s event, Decidable (condition s event)] (s : σ) :
    (events : List ε) → Decidable (Meets step condition s events)
  | [] => inferInstanceAs (Decidable True)
  | event :: rest =>
      have := Meets.decidable (step s event) rest
      inferInstanceAs (Decidable (_ ∧ Meets step condition (step s event) rest))

/-- A run that meets a condition meets a weaker one. -/
theorem Meets.mono {weaker : σ → ε → Prop} (weakens : ∀ s event, condition s event → weaker s event)
    {s : σ} {events : List ε} (meets : Meets step condition s events) :
    Meets step weaker s events := by
  induction events generalizing s with
  | nil => trivial
  | cons event rest past => exact ⟨weakens s event meets.1, past meets.2⟩

/-- What holds at first and is kept by every event that meets the condition holds after
every run whose events meet it. -/
theorem runEvents_keeps {kept : σ → Prop}
    (each : ∀ s event, kept s → condition s event → kept (step s event)) {s : σ} (first : kept s)
    {events : List ε} (meets : Meets step condition s events) : kept (runEvents step s events) := by
  induction events generalizing s with
  | nil => exact first
  | cons event rest past => exact past (each s event first meets.1) meets.2

/-- What holds at first and is kept by every event holds after every run. -/
theorem runEvents_always {kept : σ → Prop} (each : ∀ s event, kept s → kept (step s event)) {s : σ}
    (first : kept s) {events : List ε} : kept (runEvents step s events) := by
  induction events generalizing s with
  | nil => exact first
  | cons event rest past => exact past (each s event first)

/-- Two conditions that agree while something is kept, which one of them keeps, are met by the
same runs. -/
theorem Meets.congr {kept : σ → Prop} {other : σ → ε → Prop}
    (each : ∀ s event, kept s → condition s event → kept (step s event))
    (same : ∀ s event, kept s → (other s event ↔ condition s event)) {s : σ} (first : kept s)
    (events : List ε) : Meets step other s events ↔ Meets step condition s events := by
  induction events generalizing s with
  | nil => exact Iff.rfl
  | cons event rest past =>
    refine (and_congr_left' (same s event first)).trans (and_congr_right fun meets => ?_)
    exact past (each s event first meets)

/-- What holds at first, and after an event exactly when the event meets the condition,
holds all along a run exactly when every event of it meets the condition. -/
theorem keeps_iff_meets {kept : σ → Prop}
    (each : ∀ s event, kept s → (kept (step s event) ↔ condition s event)) {s : σ}
    (first : kept s) (events : List ε) :
    (∀ n, kept (runEvents step s (events.take n))) ↔ Meets step condition s events := by
  induction events generalizing s with
  | nil =>
    refine ⟨fun _ => trivial, fun _ n => ?_⟩
    rw [List.take_nil]
    exact first
  | cons event rest past =>
    constructor
    · intro always
      have next : kept (step s event) := always 1
      exact ⟨(each s event first).mp next, (past next).mp fun n => always (n + 1)⟩
    · rintro ⟨meets, later⟩ n
      have next := (each s event first).mpr meets
      cases n with
      | zero => exact first
      | succ n => exact (past next).mpr later n

/-! ## Steps that can fail -/

/-- Every event of a run whose steps can fail meets the condition where it happens. -/
def MeetsPartial (step : σ → ε → Option σ) (condition : σ → ε → Prop) : σ → List ε → Prop
  | _, [] => True
  | s, event :: rest =>
      condition s event ∧ ∀ next ∈ step s event, MeetsPartial step condition next rest

instance MeetsPartial.decidable {step : σ → ε → Option σ}
    [∀ s event, Decidable (condition s event)] :
    (s : σ) → (events : List ε) → Decidable (MeetsPartial step condition s events)
  | _, [] => inferInstanceAs (Decidable True)
  | s, event :: rest =>
      have : ∀ next, Decidable (MeetsPartial step condition next rest) :=
        fun next => MeetsPartial.decidable next rest
      inferInstanceAs (Decidable (_ ∧ ∀ next ∈ step s event, MeetsPartial step condition next rest))

variable {partialStep : σ → ε → Option σ}

/-- A run whose events meet a condition under which a step succeeds and keeps something
succeeds and keeps it. -/
theorem foldlM_keeps {kept : σ → Prop}
    (each : ∀ s event, kept s → condition s event →
      ∃ next, partialStep s event = some next ∧ kept next) {s : σ} (first : kept s)
    {events : List ε} (meets : MeetsPartial partialStep condition s events) :
    ∃ last, events.foldlM partialStep s = some last ∧ kept last := by
  induction events generalizing s with
  | nil => exact ⟨s, rfl, first⟩
  | cons event rest past =>
    obtain ⟨next, steps, keeps⟩ := each s event first meets.1
    obtain ⟨last, runs, ends⟩ := past keeps (meets.2 next steps)
    refine ⟨last, ?_, ends⟩
    rw [List.foldlM_cons, steps]
    exact runs

/-- The front of a run meets the condition, and so does the rest from where the front ends. -/
theorem MeetsPartial.append {s : σ} {front back : List ε}
    (meets : MeetsPartial partialStep condition s (front ++ back)) :
    MeetsPartial partialStep condition s front ∧ ∀ mid, front.foldlM partialStep s = some mid →
      MeetsPartial partialStep condition mid back := by
  induction front generalizing s with
  | nil =>
    refine ⟨trivial, fun mid ends => ?_⟩
    cases ends
    exact meets
  | cons event rest past =>
    refine ⟨⟨meets.1, fun next steps => (past (meets.2 next steps)).1⟩, fun mid ends => ?_⟩
    rw [List.foldlM_cons] at ends
    obtain ⟨next, steps, runs⟩ := Option.bind_eq_some_iff.mp ends
    exact (past (meets.2 next steps)).2 mid runs

end PosFirmware.Foundation
