import Mathlib.Logic.Function.Basic
import Mathlib.Data.List.Basic
import Mathlib.Tactic

/-! # Loops

A loop that writes one entry of a table in each turn leaves what it wrote, unless a later turn
writes there again. A loop that takes two steps in each turn takes twice as many of them.
-/

namespace PosFirmware.Foundation

variable {ι α : Type} [DecidableEq ι]

/-- Entries written in turn. -/
def fillTable (start : ι → α) (place : Nat → ι) (value : Nat → α) (turns : Nat) : ι → α :=
  (List.range turns).foldl (fun table i => Function.update table (place i) (value i)) start

variable (start : ι → α) {place : Nat → ι} (value : Nat → α) {turns : Nat}

theorem fillTable_succ : fillTable start place value (turns + 1) =
    Function.update (fillTable start place value turns) (place turns) (value turns) := by
  rw [fillTable, List.range_succ, List.foldl_append]
  rfl

theorem fillTable_place {i : Nat} (apart : ∀ j < turns, i < j → place j ≠ place i)
    (inside : i < turns) : fillTable start place value turns (place i) = value i := by
  induction turns with
  | zero => exact absurd inside (Nat.not_lt_zero i)
  | succ turns ih =>
      rw [fillTable_succ]
      rcases Nat.lt_succ_iff_lt_or_eq.mp inside with earlier | rfl
      · rw [Function.update_of_ne (apart turns (Nat.lt_succ_self turns) earlier).symm]
        exact ih (fun j below => apart j (Nat.lt_succ_of_lt below)) earlier
      · rw [Function.update_self]

theorem fillTable_outside {k : ι} (outside : ∀ j < turns, place j ≠ k) :
    fillTable start place value turns k = start k := by
  induction turns with
  | zero => rfl
  | succ turns ih =>
      rw [fillTable_succ, Function.update_of_ne (outside turns (Nat.lt_succ_self turns)).symm]
      exact ih fun j below => outside j (Nat.lt_succ_of_lt below)

/-- Two steps in each turn. -/
theorem foldl_pairs {σ : Type} (step : Nat → σ → σ) (s : σ) (turns : Nat) :
    (List.range turns).foldl (fun s i => step (2 * i + 1) (step (2 * i) s)) s =
      (List.range (2 * turns)).foldl (fun s i => step i s) s := by
  induction turns with
  | zero => rfl
  | succ turns ih =>
      rw [List.range_succ, List.foldl_append, ih, show 2 * (turns + 1) = 2 * turns + 1 + 1 from rfl,
        List.range_succ, List.range_succ, List.foldl_append, List.foldl_append]
      rfl

end PosFirmware.Foundation

/-! ## Loops that may return from the middle

A loop whose body either goes round with a new state or leaves the function with
a code. `run` follows it for a number of rounds; a run that left stays where it
is. What the body keeps holds after every round (`run_keeps`), and a measure that
every round lowers makes the loop leave (`returns_of_measure`).
-/

namespace PosFirmware.Foundation

universe u

/-- What one round of a loop ends in. -/
inductive Outcome (σ : Type u) where
  | running (state : σ)
  | returned (code : Int) (state : σ)

namespace Outcome

variable {σ : Type u}

/-- The state reached, whether the loop goes on or not. -/
def state : Outcome σ → σ
  | running state => state
  | returned _ state => state

@[simp] theorem state_running (state : σ) : (running state).state = state := rfl

@[simp] theorem state_returned (code : Int) (state : σ) : (returned code state).state = state := rfl

/-- One more round, if the loop is still going. -/
def next (step : σ → Outcome σ) : Outcome σ → Outcome σ
  | running state => step state
  | returned code state => returned code state

/-- The loop after a number of rounds. -/
def run (step : σ → Outcome σ) (start : Outcome σ) : Nat → Outcome σ
  | 0 => start
  | rounds + 1 => (run step start rounds).next step

/-- The loop leaves the function after finitely many rounds. -/
def Returns (step : σ → Outcome σ) (start : Outcome σ) : Prop :=
  ∃ rounds code state, run step start rounds = returned code state

@[simp] theorem next_running (step : σ → Outcome σ) (state : σ) :
    (running state).next step = step state := rfl

@[simp] theorem next_returned (step : σ → Outcome σ) (code : Int) (state : σ) :
    (returned code state).next step = returned code state := rfl

@[simp] theorem run_zero (step : σ → Outcome σ) (start : Outcome σ) : run step start 0 = start := rfl

theorem run_succ (step : σ → Outcome σ) (start : Outcome σ) (rounds : Nat) :
    run step start (rounds + 1) = (run step start rounds).next step := rfl

/-- The first round, and then the others. -/
theorem run_next (step : σ → Outcome σ) (start : Outcome σ) (rounds : Nat) :
    run step start (rounds + 1) = run step (start.next step) rounds := by
  induction rounds with
  | zero => rfl
  | succ rounds past => rw [run_succ, past, run_succ]

/-- A loop that has left stays where it is. -/
@[simp] theorem run_returned (step : σ → Outcome σ) (code : Int) (state : σ) (rounds : Nat) :
    run step (returned code state) rounds = returned code state := by
  induction rounds with
  | zero => rfl
  | succ rounds past => rw [run_succ, past, next_returned]

/-- What holds at the start and is kept by the body in every state met holds after
every round, when something is known of the states met. -/
theorem run_keeps_of {step : σ → Outcome σ} {start : Outcome σ} {kept : Outcome σ → Prop}
    {known : σ → Prop} (met : ∀ rounds state, run step start rounds = running state → known state)
    (first : kept start) (each : ∀ state, known state → kept (running state) → kept (step state))
    (rounds : Nat) : kept (run step start rounds) := by
  induction rounds with
  | zero => exact first
  | succ rounds past =>
    rw [run_succ]
    cases reached : run step start rounds with
    | running state =>
      rw [reached] at past
      exact each state (met rounds state reached) past
    | returned code state =>
      rw [reached] at past
      exact past

/-- What holds at the start and is kept by the body holds after every round. -/
theorem run_keeps {step : σ → Outcome σ} {start : Outcome σ} {kept : Outcome σ → Prop}
    (first : kept start) (each : ∀ state, kept (running state) → kept (step state)) (rounds : Nat) :
    kept (run step start rounds) :=
  (@run_keeps_of _ _ _ _ fun _ => True) (fun _ _ _ => trivial) first (fun state _ => each state)
    rounds

/-- Every state in which the loop goes on meets a condition. -/
def Always (step : σ → Outcome σ) (start : σ) (condition : σ → Prop) : Prop :=
  ∀ rounds state, run step (running start) rounds = running state → condition state

/-- **A flag that a round clears unless a condition holds** is set after some rounds exactly when
the condition held in each; what the rounds keep while it is set holds then. -/
theorem run_flag {step : σ → Outcome σ} {flag condition kept : σ → Prop}
    (clear : ∀ state, ¬ flag state → ¬ flag (step state).state)
    (each : ∀ state, kept state → flag state →
      (flag (step state).state ↔ condition state) ∧ (condition state → kept (step state).state))
    {start : σ} (first : kept start) (set : flag start) (rounds : Nat) :
    (flag (run step (running start) rounds).state ↔
        ∀ before < rounds, ∀ state, run step (running start) before = running state →
          condition state) ∧
      (flag (run step (running start) rounds).state →
        kept (run step (running start) rounds).state) := by
  induction rounds with
  | zero => exact ⟨iff_of_true set fun _ below => absurd below (Nat.not_lt_zero _), fun _ => first⟩
  | succ rounds past =>
    obtain ⟨past, keeps⟩ := past
    rw [run_succ]
    cases reached : run step (running start) rounds with
    | returned code state =>
      rw [reached] at past keeps
      refine ⟨past.trans ⟨fun all before below other at_ => ?_,
        fun all before below => all before (by omega)⟩, keeps⟩
      rcases Nat.lt_succ_iff_lt_or_eq.mp below with earlier | rfl
      · exact all before earlier other at_
      · rw [reached] at at_
        simp at at_
    | running state =>
      rw [reached] at past keeps
      simp only [next_running, state_running] at past keeps ⊢
      constructor
      · constructor
        · intro after before below other at_
          have now : flag state := by
            by_contra cleared
            exact clear state cleared after
          rcases Nat.lt_succ_iff_lt_or_eq.mp below with earlier | rfl
          · exact past.mp now before earlier other at_
          · rw [reached] at at_
            obtain rfl : state = other := by simpa using at_
            exact (each state (keeps now) now).1.mp after
        · intro all
          have now := past.mpr fun before below => all before (by omega)
          exact (each state (keeps now) now).1.mpr (all rounds (by omega) state reached)
      · intro after
        have now : flag state := by
          by_contra cleared
          exact clear state cleared after
        exact (each state (keeps now) now).2 ((each state (keeps now) now).1.mp after)

/-- A loop that returned stays returned. -/
theorem run_of_returned {step : σ → Outcome σ} {start : Outcome σ} {rounds later : Nat} {code : Int}
    {state : σ} (reached : run step start rounds = returned code state) (late : rounds ≤ later) :
    run step start later = returned code state := by
  induction later, late using Nat.le_induction with
  | base => exact reached
  | succ later _ past => rw [run_succ, past, next_returned]

/-- A loop that returned has met what it met before. -/
theorem always_of_returned {step : σ → Outcome σ} {start : σ} {condition : σ → Prop}
    {rounds : Nat} {code : Int} {last : σ}
    (reached : run step (running start) rounds = returned code last) :
    Always step start condition ↔ ∀ before < rounds, ∀ state,
      run step (running start) before = running state → condition state := by
  refine ⟨fun all before _ => all before, fun all before state at_ => ?_⟩
  rcases Nat.lt_or_ge before rounds with earlier | late
  · exact all before earlier state at_
  · rw [run_of_returned reached late] at at_
    simp at at_

/-- A measure that every round lowers, from some round on, makes the loop return. -/
theorem returns_of_measure {step : σ → Outcome σ} {start : Outcome σ} {known : σ → Prop}
    (measure : σ → Nat) (first : Nat)
    (met : ∀ rounds state, first ≤ rounds → run step start rounds = running state → known state)
    (lowers : ∀ state after, known state → step state = running after →
      measure after < measure state) : Returns step start := by
  suffices later : ∀ bound rounds state, first ≤ rounds → run step start rounds = running state →
      measure state < bound → Returns step start by
    cases reached : run step start first with
    | running state => exact later _ first state le_rfl reached (Nat.lt_succ_self _)
    | returned code state => exact ⟨first, code, state, reached⟩
  intro bound
  induction bound with
  | zero => exact fun _ _ _ _ below => absurd below (Nat.not_lt_zero _)
  | succ bound smaller =>
    intro rounds state late reached below
    have next : run step start (rounds + 1) = step state := by rw [run_succ, reached, next_running]
    cases ended : step state with
    | running after =>
      have lower := lowers state after (met rounds state late reached) ended
      exact smaller (rounds + 1) after (by omega) (next.trans ended) (by omega)
    | returned code after => exact ⟨rounds + 1, code, after, next.trans ended⟩

/-- A measure that every round lowers bounds the rounds. -/
theorem returned_of_measure {step : σ → Outcome σ} (measure : σ → Nat)
    (lowers : ∀ state after, step state = running after → measure after < measure state)
    (start : σ) :
    ∃ code last, run step (running start) (measure start + 1) = returned code last := by
  suffices within : ∀ rounds state, measure state ≤ rounds →
      ∃ code last, run step (running state) (rounds + 1) = returned code last from
    within _ start le_rfl
  intro rounds
  induction rounds with
  | zero =>
    intro state small
    cases ended : step state with
    | running after => exact absurd (lowers state after ended) (by omega)
    | returned code last => exact ⟨code, last, ended⟩
  | succ rounds past =>
    intro state small
    rw [run_next, next_running]
    cases ended : step state with
    | running after =>
      have lower := lowers state after ended
      exact past after (by omega)
    | returned code last => exact ⟨code, last, run_returned _ _ _ _⟩

/-- A measure into a well-founded order that every round lowers makes the loop return. -/
theorem returns_of_wellFounded {α : Type*} {r : α → α → Prop} (wf : WellFounded r)
    {step : σ → Outcome σ} {known : σ → Prop} (measure : σ → α)
    (keeps : ∀ state after, known state → step state = running after → known after)
    (lowers : ∀ state after, known state → step state = running after →
      r (measure after) (measure state)) {start : σ} (first : known start) :
    Returns step (running start) := by
  suffices later : ∀ value rounds state, run step (running start) rounds = running state →
      known state → measure state = value → Returns step (running start) from
    later _ 0 start rfl first rfl
  intro value
  induction value using wf.induction with
  | _ value smaller =>
    rintro rounds state reached holds rfl
    have next : run step (running start) (rounds + 1) = step state := by
      rw [run_succ, reached, next_running]
    cases ended : step state with
    | running after =>
      exact smaller _ (lowers state after holds ended) (rounds + 1) after (next.trans ended)
        (keeps state after holds ended) rfl
    | returned code after => exact ⟨rounds + 1, code, after, next.trans ended⟩

end Outcome

end PosFirmware.Foundation
