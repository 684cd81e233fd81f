import Mathlib.Tactic

/-! # Programs that may stop for good

Imperative code over an explicit state. A program either returns a value or
stops in a state it never leaves; both outcomes keep the state. `Triple` states
what holds after a program, one postcondition for each outcome, and has one rule
for each way of composing programs.
-/

namespace PosFirmware.Foundation

universe u v w

/-- A program over a state: `none` is a program that stopped. -/
def Prog (σ : Type u) (α : Type v) := σ → Option α × σ

namespace Prog

variable {σ : Type u} {α β ι : Type v}

/-- Sequencing: a program that stopped is not continued. -/
protected def bind (first : Prog σ α) (next : α → Prog σ β) : Prog σ β := fun state =>
  match first state with
  | (some value, state') => next value state'
  | (none, state') => (none, state')

instance : Monad (Prog σ) where
  pure value := fun state => (some value, state)
  bind := Prog.bind

/-- The program that stops. -/
def halt : Prog σ α := fun state => (none, state)

/-- A value read from the state. -/
def read (value : σ → α) : Prog σ α := fun state => (some (value state), state)

/-- A step that changes the state and returns a value. -/
def step (change : σ → α × σ) : Prog σ α := fun state =>
  (some (change state).1, (change state).2)

/-- A change of the state. -/
def modify (change : σ → σ) : Prog σ PUnit := fun state => (some ⟨⟩, change state)

/-- A loop over a list of indices that is left with the first value its body
gives. -/
def firstM (body : ι → Prog σ (Option α)) : List ι → Prog σ (Option α)
  | [] => pure none
  | index :: rest => do
      match ← body index with
      | some value => pure (some value)
      | none => firstM body rest

/-- A program repeated until it gives a value, a number of times at most. -/
def retry (body : Prog σ (Option α)) : Nat → Prog σ α
  | 0 => halt
  | fuel + 1 => do
      match ← body with
      | some value => pure value
      | none => retry body fuel

@[simp] theorem pure_run (value : α) (state : σ) :
    (pure value : Prog σ α) state = (some value, state) := rfl

@[simp] theorem halt_run (state : σ) : (halt : Prog σ α) state = (none, state) := rfl

@[simp] theorem read_run (value : σ → α) (state : σ) :
    read value state = (some (value state), state) := rfl

@[simp] theorem step_run (change : σ → α × σ) (state : σ) :
    step change state = (some (change state).1, (change state).2) := rfl

@[simp] theorem modify_run (change : σ → σ) (state : σ) :
    modify change state = (some ⟨⟩, change state) := rfl

/-- A program continued after it returned. -/
theorem bind_run (first : Prog σ α) (next : α → Prog σ β) (state : σ) :
    (first >>= next) state = match first state with
      | (some value, state') => next value state'
      | (none, state') => (none, state') := rfl

/-- A program continued after a known result. -/
theorem bind_of_some {first : Prog σ α} {next : α → Prog σ β} {state state' : σ} {value : α}
    (returned : first state = (some value, state')) :
    (first >>= next) state = next value state' := by
  rw [bind_run, returned]

/-- A step continued with its result. -/
theorem step_bind_run (change : σ → α × σ) (next : α → Prog σ β) (state : σ) :
    (step change >>= next) state = next (change state).1 (change state).2 := rfl

/-- A step with a known result continued. -/
theorem step_bind_of {change : σ → α × σ} {next : α → Prog σ β} {state state' : σ} {value : α}
    (run : change state = (value, state')) : (step change >>= next) state = next value state' := by
  rw [step_bind_run, run]

/-- A change of the state continued. -/
theorem modify_bind_run (change : σ → σ) (next : PUnit → Prog σ β) (state : σ) :
    (modify change >>= next) state = next ⟨⟩ (change state) := rfl

/-- A value read is passed on. -/
theorem read_bind_run (value : σ → α) (next : α → Prog σ β) (state : σ) :
    (read value >>= next) state = next (value state) state := rfl

/-- A known value read is passed on. -/
theorem read_bind_of {value : σ → α} {next : α → Prog σ β} {state : σ} {result : α}
    (known : value state = result) : (read value >>= next) state = next result state := by
  rw [read_bind_run, known]

/-- A program that stopped is not continued. -/
theorem bind_of_none {first : Prog σ α} {next : α → Prog σ β} {state state' : σ}
    (stopped : first state = (none, state')) : (first >>= next) state = (none, state') := by
  rw [bind_run, stopped]

/-- A loop that is left in its first round. -/
theorem firstM_of_some {body : ι → Prog σ (Option α)} {index : ι} {rest : List ι}
    {state state' : σ} {value : α} (returned : body index state = (some (some value), state')) :
    firstM body (index :: rest) state = (some (some value), state') := by
  rw [firstM, bind_of_some returned]
  rfl

/-- A loop that goes on after its first round. -/
theorem firstM_of_none {body : ι → Prog σ (Option α)} {index : ι} {rest : List ι}
    {state state' : σ} (returned : body index state = (some none, state')) :
    firstM body (index :: rest) state = firstM body rest state' := by
  rw [firstM, bind_of_some returned]

instance : LawfulMonad (Prog σ) := LawfulMonad.mk' (Prog σ)
  (fun prog => by
    funext state
    change (prog >>= fun value => pure value) state = prog state
    rw [bind_run]
    rcases prog state with ⟨_ | value, state'⟩ <;> rfl)
  (fun _ _ => rfl)
  (fun prog next last => by
    funext state
    simp only [bind_run]
    rcases prog state with ⟨_ | value, state'⟩ <;> rfl)

end Prog

/-- From a state that meets the precondition, a program that returns meets the
first postcondition, and one that stops the second. -/
def Triple {σ : Type u} {α : Type v} (pre : σ → Prop) (prog : Prog σ α) (post : α → σ → Prop)
    (stopped : σ → Prop) : Prop :=
  ∀ state, pre state → match prog state with
    | (some value, state') => post value state'
    | (none, state') => stopped state'

namespace Triple

variable {σ : Type u} {α β ι : Type v} {pre : σ → Prop} {post : α → σ → Prop} {stopped : σ → Prop}

/-- The postcondition of a run that returned. -/
theorem returns {prog : Prog σ α} (triple : Triple pre prog post stopped) {state state' : σ}
    {value : α} (start : pre state) (run : prog state = (some value, state')) :
    post value state' := by
  simpa only [run] using triple state start

/-- The postcondition of a run that stopped. -/
theorem stops {prog : Prog σ α} (triple : Triple pre prog post stopped) {state state' : σ}
    (start : pre state) (run : prog state = (none, state')) : stopped state' := by
  simpa only [run] using triple state start

/-- What holds after a run that returned and after one that stopped holds after
the run. -/
theorem final {prog : Prog σ α} {inv : σ → Prop} (triple : Triple pre prog (fun _ => inv) inv)
    {state : σ} (start : pre state) : inv (prog state).2 := by
  have holds := triple state start
  rcases run : prog state with ⟨_ | value, state'⟩
  · rwa [run] at holds
  · rwa [run] at holds

/-- Consequence: a stronger precondition, weaker postconditions. -/
theorem mono {prog : Prog σ α} {pre' : σ → Prop} {post' : α → σ → Prop} {stopped' : σ → Prop}
    (triple : Triple pre prog post stopped) (stronger : ∀ state, pre' state → pre state)
    (weaker : ∀ value state, post value state → post' value state)
    (weakerStopped : ∀ state, stopped state → stopped' state) :
    Triple pre' prog post' stopped' := by
  intro state start
  have holds := triple state (stronger state start)
  rcases run : prog state with ⟨_ | value, state'⟩
  · rw [run] at holds
    exact weakerStopped state' holds
  · rw [run] at holds
    exact weaker value state' holds

/-- Two postconditions established separately. -/
theorem and {prog : Prog σ α} {post' : α → σ → Prop} {stopped' : σ → Prop}
    (triple : Triple pre prog post stopped) (triple' : Triple pre prog post' stopped') :
    Triple pre prog (fun value state => post value state ∧ post' value state)
      fun state => stopped state ∧ stopped' state := by
  intro state start
  have holds := triple state start
  have holds' := triple' state start
  rcases run : prog state with ⟨_ | value, state'⟩
  · rw [run] at holds holds'
    exact ⟨holds, holds'⟩
  · rw [run] at holds holds'
    exact ⟨holds, holds'⟩

theorem pure {value : α} (holds : ∀ state, pre state → post value state) :
    Triple pre (Pure.pure value) post stopped := holds

theorem halt (holds : ∀ state, pre state → stopped state) :
    Triple pre (Prog.halt : Prog σ α) post stopped := holds

theorem read {value : σ → α} (holds : ∀ state, pre state → post (value state) state) :
    Triple pre (Prog.read value) post stopped := holds

theorem step {change : σ → α × σ}
    (holds : ∀ state, pre state → post (change state).1 (change state).2) :
    Triple pre (Prog.step change) post stopped := holds

/-- A step whose result is only named, for changes that must not be unfolded. -/
theorem step_named {change : σ → α × σ}
    (holds : ∀ state value state', change state = (value, state') → pre state → post value state') :
    Triple pre (Prog.step change) post stopped := fun state start => holds state _ _ rfl start

theorem modify {change : σ → σ} {post : PUnit → σ → Prop}
    (holds : ∀ state, pre state → post ⟨⟩ (change state)) :
    Triple pre (Prog.modify change) post stopped := holds

/-- Sequencing through an intermediate condition. -/
theorem bind {first : Prog σ α} {next : α → Prog σ β} {m : α → σ → Prop}
    {post : β → σ → Prop} (before : Triple pre first m stopped)
    (after : ∀ value, Triple (m value) (next value) post stopped) :
    Triple pre (first >>= next) post stopped := by
  intro state start
  have holds := before state start
  rw [Prog.bind_run]
  rcases run : first state with ⟨_ | value, state'⟩
  · simpa only [run] using holds
  · rw [run] at holds
    exact after value state' holds

/-- A test on the program's own data. -/
theorem ite {test : Prop} [Decidable test] {yes no : Prog σ α}
    (whenTrue : test → Triple pre yes post stopped)
    (whenFalse : ¬ test → Triple pre no post stopped) :
    Triple pre (if test then yes else no) post stopped := by
  split
  · exact whenTrue ‹_›
  · exact whenFalse ‹_›

/-- A precondition that does not depend on the state is a hypothesis. -/
theorem of_fact {fact : Prop} {prog : Prog σ α}
    (triple : fact → Triple pre prog post stopped) :
    Triple (fun state => fact ∧ pre state) prog post stopped :=
  fun state start => triple start.1 state start.2

/-- The state a program starts from may be named. -/
theorem each {prog : Prog σ α}
    (triple : ∀ start, pre start → Triple (fun state => state = start) prog post stopped) :
    Triple pre prog post stopped :=
  fun state holds => triple state holds state rfl

/-- A loop keeps an invariant of the indices that are left, until its body gives
a value. -/
theorem firstM (post : α → σ → Prop) (stopped : σ → Prop) {body : ι → Prog σ (Option α)}
    (invariant : List ι → σ → Prop)
    (iteration : ∀ index rest, Triple (invariant (index :: rest)) (body index)
      (fun result state => match result with
        | some value => post value state
        | none => invariant rest state) stopped)
    (indices : List ι) :
    Triple (invariant indices) (Prog.firstM body indices)
      (fun result state => match result with
        | some value => post value state
        | none => invariant [] state) stopped := by
  induction indices with
  | nil => exact Triple.pure fun _ start => start
  | cons index rest ih =>
      refine Triple.bind (iteration index rest) fun result => ?_
      cases result with
      | some value => exact Triple.pure fun _ holds => holds
      | none => exact ih

/-- A repetition keeps an invariant until its body gives a value. -/
theorem retry {body : Prog σ (Option α)} (iteration : Triple pre body
    (fun result state => match result with
      | some value => post value state
      | none => pre state) stopped)
    (halted : ∀ state, pre state → stopped state) (fuel : Nat) :
    Triple pre (Prog.retry body fuel) post stopped := by
  induction fuel with
  | zero => exact Triple.halt halted
  | succ fuel ih =>
      refine Triple.bind iteration fun result => ?_
      cases result with
      | some value => exact Triple.pure fun _ holds => holds
      | none => exact ih

end Triple

/-- A program keeps an invariant, whether it returns or stops. -/
def Keeps {σ : Type u} {α : Type v} (inv : σ → Prop) (prog : Prog σ α) : Prop :=
  Triple inv prog (fun _ => inv) inv

namespace Keeps

variable {σ : Type u} {α β ι : Type v} {inv : σ → Prop}

/-- The invariant as a postcondition. -/
theorem triple {prog : Prog σ α} (keeps : Keeps inv prog) :
    Triple inv prog (fun _ => inv) fun _ => True :=
  keeps.mono (fun _ holds => holds) (fun _ _ holds => holds) fun _ _ => trivial

theorem pure (value : α) : Keeps inv (Pure.pure value : Prog σ α) := Triple.pure fun _ holds => holds

theorem halt : Keeps inv (Prog.halt : Prog σ α) := Triple.halt fun _ holds => holds

theorem read (value : σ → α) : Keeps inv (Prog.read value) := Triple.read fun _ holds => holds

theorem step {change : σ → α × σ} (keeps : ∀ state, inv state → inv (change state).2) :
    Keeps inv (Prog.step change) := Triple.step keeps

theorem step_named {change : σ → α × σ}
    (keeps : ∀ state value state', change state = (value, state') → inv state → inv state') :
    Keeps inv (Prog.step change) := Triple.step_named keeps

theorem bind {first : Prog σ α} {next : α → Prog σ β} (keeps : Keeps inv first)
    (keeps' : ∀ value, Keeps inv (next value)) : Keeps inv (first >>= next) :=
  Triple.bind keeps keeps'

theorem ite {test : Prop} [Decidable test] {yes no : Prog σ α} (keeps : Keeps inv yes)
    (keeps' : Keeps inv no) : Keeps inv (if test then yes else no) :=
  Triple.ite (fun _ => keeps) fun _ => keeps'

/-- A loop keeps what every round keeps. -/
theorem firstM {body : ι → Prog σ (Option α)} {indices : List ι}
    (keeps : ∀ index ∈ indices, Keeps inv (body index)) : Keeps inv (Prog.firstM body indices) := by
  induction indices with
  | nil => exact .pure _
  | cons index rest ih =>
      refine .bind (keeps index List.mem_cons_self) fun result => ?_
      cases result with
      | some value => exact .pure _
      | none => exact ih fun other member => keeps other (List.mem_cons_of_mem _ member)

/-- What the first round of a loop establishes and the others keep. -/
theorem after_first {pre : σ → Prop} {body : ι → Prog σ (Option α)} {index : ι} {rest : List ι}
    (first : Triple pre (body index) (fun _ => inv) inv)
    (keeps : ∀ other ∈ rest, Keeps inv (body other)) :
    Triple pre (Prog.firstM body (index :: rest)) (fun _ => inv) inv := by
  refine Triple.bind first fun result => ?_
  cases result with
  | some value => exact Keeps.pure (some value)
  | none => exact firstM keeps

end Keeps

end PosFirmware.Foundation
