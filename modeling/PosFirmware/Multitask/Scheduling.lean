import Mathlib.Algebra.GroupWithZero.Nat
import PosFirmware.Multitask.Paxos
import PosFirmware.Foundation.Run

/-!
# The task that runs

At task level one task is current and every task that is ready has a higher slot
(`Consistent`). The calls of tasks keep this, and so does an interrupt that chooses a task only
when it comes before the one chosen so far (`scheduler_runsFirst`). A chosen task is passed
over otherwise (`interrupt_runsLater`).
-/

namespace PosFirmware.Multitask

open PosFirmware.Foundation

abbrev TaskTable := Nat → Option OsTask

/-! ## Tables -/

/-- Tasks are in the slots of their priorities, and those that sleep have some ticks left. -/
structure WellFormed (table : TaskTable) : Prop where
  priority : ∀ i task, table i = some task → task.priority = i
  slots : ∀ i task, table i = some task → i < MAX_NOS_TASKS
  asleep : ∀ i task, table i = some task → task.state = .sleeping → task.sleepTicks ≠ 0

theorem WellFormed.write {table : TaskTable} (wf : WellFormed table) {i : Nat} {task : OsTask}
    (priority : task.priority = i) (slot : i < MAX_NOS_TASKS)
    (asleep : task.state = .sleeping → task.sleepTicks ≠ 0) :
    WellFormed (Function.update table i (some task)) where
  priority j other here := by
    by_cases same : j = i
    · subst same
      rw [Function.update_self] at here
      cases here
      exact priority
    · rw [Function.update_of_ne same] at here
      exact wf.priority j other here
  slots j other here := by
    by_cases same : j = i
    · exact same ▸ slot
    · rw [Function.update_of_ne same] at here
      exact wf.slots j other here
  asleep j other here := by
    by_cases same : j = i
    · subst same
      rw [Function.update_self] at here
      cases here
      exact asleep
    · rw [Function.update_of_ne same] at here
      exact wf.asleep j other here

theorem WellFormed.setState {table : TaskTable} (wf : WellFormed table) {i : Nat} {task : OsTask}
    (here : table i = some task) {state : NosState} (awake : state ≠ .sleeping) :
    WellFormed (Function.update table i (some (task.setState state))) :=
  wf.write (wf.priority i task here) (wf.slots i task here) fun asleep => absurd asleep awake

/-- No task is current. -/
def NoneCurrent (table : TaskTable) : Prop :=
  ∀ i task, table i = some task → task.state ≠ .current

theorem NoneCurrent.write {table : TaskTable} (none : NoneCurrent table) {i : Nat} {task : OsTask}
    (other : task.state ≠ .current) : NoneCurrent (Function.update table i (some task)) := by
  intro j held here
  by_cases same : j = i
  · subst same
    rw [Function.update_self] at here
    cases here
    exact other
  · rw [Function.update_of_ne same] at here
    exact none j held here

/-- Every task that is ready comes after a slot, or is in it. -/
def FirstReady (table : TaskTable) (first : Nat) : Prop :=
  ∀ i task, table i = some task → task.state = .ready → first ≤ i

theorem FirstReady.write {table : TaskTable} {first i : Nat} (least : FirstReady table first)
    {task : OsTask} (fits : task.state = .ready → first ≤ i) :
    FirstReady (Function.update table i (some task)) first := by
  intro j held here ready
  by_cases same : j = i
  · subst same
    rw [Function.update_self] at here
    cases here
    exact fits ready
  · rw [Function.update_of_ne same] at here
    exact least j held here ready

/-- The tasks that sleep are left as they are. -/
def KeepsAsleep (table table' : TaskTable) : Prop :=
  ∀ i task, table i = some task → task.state = .sleeping → table' i = some task

theorem KeepsAsleep.trans {table table' table'' : TaskTable} (first : KeepsAsleep table table')
    (second : KeepsAsleep table' table'') : KeepsAsleep table table'' :=
  fun i task here asleep => second i task (first i task here asleep) asleep

theorem KeepsAsleep.write {table : TaskTable} {i : Nat} {task : OsTask}
    (awake : ∀ old, table i = some old → old.state ≠ .sleeping) :
    KeepsAsleep table (Function.update table i (some task)) := by
  intro j held here asleep
  by_cases same : j = i
  · subst same
    exact absurd asleep (awake held here)
  · rw [Function.update_of_ne same]
    exact here

/-- A task that is current or ready. -/
def OsTask.Runnable (task : OsTask) : Prop := task.state = .current ∨ task.state = .ready

/-- The tasks that are runnable stay so. -/
def KeepsRunnable (table table' : TaskTable) : Prop :=
  ∀ i task, table i = some task → task.Runnable → ∃ task', table' i = some task' ∧ task'.Runnable

theorem KeepsRunnable.trans {table table' table'' : TaskTable}
    (first : KeepsRunnable table table') (second : KeepsRunnable table' table'') :
    KeepsRunnable table table'' := by
  intro i task here runnable
  obtain ⟨task', here', runnable'⟩ := first i task here runnable
  exact second i task' here' runnable'

theorem KeepsRunnable.write {table : TaskTable} {i : Nat} {task : OsTask}
    (runnable : task.Runnable) : KeepsRunnable table (Function.update table i (some task)) := by
  intro j held here still
  by_cases same : j = i
  · subst same
    exact ⟨task, Function.update_self _ _ _, runnable⟩
  · exact ⟨held, (Function.update_of_ne same _ _).trans here, still⟩

/-! ## Choosing a task -/

/-- The scheduler at task level: the current task comes before those that are ready. -/
structure Consistent (s : Os) : Prop where
  wf : WellFormed s.taskTable
  level : s.inOsIsr = 0
  next : s.pNextTask = s.pCurTask
  current : ∃ task, s.taskTable s.pCurTask = some task ∧ task.state = .current
  single : ∀ i task, s.taskTable i = some task → task.state = .current → i = s.pCurTask
  highest : FirstReady s.taskTable s.pCurTask

theorem Os.update_some {s : Os} {i : Nat} {task : OsTask} (here : s.taskTable i = some task)
    (change : OsTask → OsTask) : s.update i change =
      some { s with taskTable := Function.update s.taskTable i (some (change task)) } := by
  rw [Os.update, here, Option.map_some]

theorem restoreNextTask_spec {s : Os} (wf : WellFormed s.taskTable) (level : s.inOsIsr = 0)
    (none : NoneCurrent s.taskTable) {task : OsTask} (here : s.taskTable s.pNextTask = some task)
    (ready : task.state = .ready) (least : FirstReady s.taskTable s.pNextTask) :
    ∃ s', restoreNextTask s = some s' ∧ Consistent s' ∧ KeepsAsleep s.taskTable s'.taskTable ∧
      KeepsRunnable s.taskTable s'.taskTable := by
  refine ⟨_, Os.update_some (s := { s with pCurTask := s.pNextTask }) here _, ?_, ?_, ?_⟩
  · refine ⟨wf.setState here (by decide), level, rfl, ?_, ?_, ?_⟩
    · exact ⟨_, Function.update_self _ _ _, rfl⟩
    · intro i held found current
      by_contra other
      exact none i held ((Function.update_of_ne other _ _).symm.trans found) current
    · exact least.write fun current => NosState.noConfusion current
  · refine KeepsAsleep.write fun old found => ?_
    cases here.symm.trans found
    rw [ready]
    decide
  · exact KeepsRunnable.write (.inl rfl)

theorem Os.isReady_iff {s : Os} {i : Nat} :
    s.isReady i = true ↔ ∃ task, s.taskTable i = some task ∧ task.state = .ready := by
  unfold Os.isReady
  cases s.taskTable i with
  | none => simp
  | some task => simp

theorem osScheduler_spec {s : Os} (wf : WellFormed s.taskTable) (level : s.inOsIsr = 0)
    (none : NoneCurrent s.taskTable) {i : Nat} {task : OsTask} (here : s.taskTable i = some task)
    (ready : task.state = .ready) :
    ∃ s', osScheduler s = some s' ∧ Consistent s' ∧ KeepsAsleep s.taskTable s'.taskTable := by
  have isReady : s.isReady i = true := Os.isReady_iff.mpr ⟨task, here, ready⟩
  unfold osScheduler
  rw [if_neg (not_not.mpr level)]
  cases found : (List.range MAX_NOS_TASKS).find? s.isReady with
  | none =>
    have absent := List.find?_eq_none.mp found i (List.mem_range.mpr (wf.slots i task here))
    exact absurd isReady absent
  | some first =>
    obtain ⟨chosen, -, before⟩ := List.find?_range_eq_some.mp found
    obtain ⟨held, there, readyThere⟩ := Os.isReady_iff.mp chosen
    have least : FirstReady s.taskTable first := by
      intro j other found' ready'
      by_contra earlier
      have passed := before j (Nat.not_le.mp earlier)
      rw [Os.isReady_iff.mpr ⟨other, found', ready'⟩] at passed
      cases passed
    obtain ⟨s', restores, consistent, asleep, -⟩ :=
      restoreNextTask_spec (s := { s with pNextTask := first }) wf level none there readyThere least
    exact ⟨s', restores, consistent, asleep⟩

/-! ## The calls of tasks -/

theorem Consistent.leave {s : Os} (consistent : Consistent s) {task : OsTask}
    (other : task.state ≠ .current) :
    NoneCurrent (Function.update s.taskTable s.pCurTask (some task)) := by
  intro i held here current
  by_cases same : i = s.pCurTask
  · subst same
    rw [Function.update_self] at here
    cases here
    exact other current
  · rw [Function.update_of_ne same] at here
    exact same (consistent.single i held here current)

theorem Consistent.single_write {s : Os} (consistent : Consistent s) {pTask : Nat} {task : OsTask}
    (other : task.state ≠ .current) (i : Nat) (held : OsTask)
    (here : Function.update s.taskTable pTask (some task) i = some held)
    (current : held.state = .current) : i = s.pCurTask := by
  by_cases same : i = pTask
  · subst same
    rw [Function.update_self] at here
    cases here
    exact absurd current other
  · rw [Function.update_of_ne same] at here
    exact consistent.single i held here current

theorem Consistent.keepsAsleep {s : Os} (consistent : Consistent s) (task : OsTask) :
    KeepsAsleep s.taskTable (Function.update s.taskTable s.pCurTask (some task)) := by
  refine KeepsAsleep.write fun old here => ?_
  obtain ⟨cur, there, current⟩ := consistent.current
  cases there.symm.trans here
  rw [current]
  decide

theorem osSleep_spec {s : Os} (consistent : Consistent s) {sleepTime : BitVec 32}
    (ready : sleepTime ≠ 0 → ∃ i, s.isReady i = true) :
    ∃ s', osSleep s sleepTime = some s' ∧ Consistent s' ∧ KeepsAsleep s.taskTable s'.taskTable ∧
      (sleepTime ≠ 0 → ∃ task, s'.taskTable s.pCurTask = some task ∧ task.state = .sleeping ∧
        task.sleepTicks = sleepTime) := by
  obtain ⟨cur, here, current⟩ := consistent.current
  unfold osSleep
  by_cases sleeps : sleepTime ≠ 0
  · obtain ⟨i, isReady⟩ := ready sleeps
    obtain ⟨task, there, readyThere⟩ := Os.isReady_iff.mp isReady
    have away : i ≠ s.pCurTask := by
      rintro rfl
      cases here.symm.trans there
      rw [current] at readyThere
      cases readyThere
    let asleep : OsTask := { cur with state := .sleeping, sleepTicks := sleepTime }
    obtain ⟨s', runs, consistent', keeps⟩ := osScheduler_spec
      (s := { s with taskTable := Function.update s.taskTable s.pCurTask (some asleep) })
      (consistent.wf.write (consistent.wf.priority _ cur here) (consistent.wf.slots _ cur here)
        fun _ => sleeps)
      consistent.level (consistent.leave (NosState.noConfusion ·))
      ((Function.update_of_ne away _ _).trans there) readyThere
    refine ⟨s', ?_, consistent', (consistent.keepsAsleep _).trans keeps, fun _ => ⟨asleep, ?_, rfl, rfl⟩⟩
    · rw [if_pos sleeps, Os.update_some here]
      exact runs
    · exact keeps _ _ (Function.update_self _ _ _) rfl
  · obtain ⟨s', runs, consistent', keeps⟩ := osScheduler_spec
      (s := { s with taskTable :=
        Function.update s.taskTable s.pCurTask (some (cur.setState .ready)) })
      (consistent.wf.setState here (by decide)) consistent.level
      (consistent.leave (NosState.noConfusion ·)) (Function.update_self _ _ _) rfl
    refine ⟨s', ?_, consistent', (consistent.keepsAsleep _).trans keeps,
      fun awake => absurd awake sleeps⟩
    rw [if_neg sleeps, Os.update_some here]
    exact runs

theorem osSuspend_spec {s : Os} (consistent : Consistent s) {pTask : Nat} {task : OsTask}
    (here : s.taskTable pTask = some task)
    (ready : pTask = s.pCurTask → ∃ i, s.isReady i = true) :
    ∃ s', osSuspend s pTask = some s' ∧ Consistent s' ∧ ∀ i task, i ≠ pTask →
      s.taskTable i = some task → task.state = .sleeping → s'.taskTable i = some task := by
  obtain ⟨cur, there, current⟩ := consistent.current
  let readied := Function.update s.taskTable s.pCurTask (some (cur.setState .ready))
  have wf : WellFormed readied := consistent.wf.setState there (by decide)
  have none : NoneCurrent readied := consistent.leave (NosState.noConfusion ·)
  obtain ⟨held, found⟩ : ∃ held, readied pTask = some held := by
    by_cases same : pTask = s.pCurTask
    · subst same
      exact ⟨_, Function.update_self _ _ _⟩
    · exact ⟨task, (Function.update_of_ne same _ _).trans here⟩
  let suspended := Function.update readied pTask (some (held.setState .suspended))
  obtain ⟨i, other, other', readyOther⟩ :
      ∃ i other, suspended i = some other ∧ other.state = .ready := by
    by_cases same : pTask = s.pCurTask
    · obtain ⟨i, isReady⟩ := ready same
      obtain ⟨other, other', readyOther⟩ := Os.isReady_iff.mp isReady
      have away : i ≠ s.pCurTask := by
        rintro rfl
        cases there.symm.trans other'
        rw [current] at readyOther
        cases readyOther
      refine ⟨i, other, ?_, readyOther⟩
      exact (Function.update_of_ne (same ▸ away) _ _).trans
        ((Function.update_of_ne away _ _).trans other')
    · refine ⟨s.pCurTask, cur.setState .ready, ?_, rfl⟩
      exact (Function.update_of_ne (Ne.symm same) _ _).trans (Function.update_self _ _ _)
  obtain ⟨s', runs, consistent', keeps⟩ := osScheduler_spec
    (s := { s with taskTable := suspended }) (wf.setState found (by decide)) consistent.level
    (none.write (NosState.noConfusion ·)) other' readyOther
  refine ⟨s', ?_, consistent', fun i task away old asleep => ?_⟩
  · unfold osSuspend
    rw [Os.update_some there]
    change (Os.update { s with taskTable := readied } pTask _).bind _ = _
    rw [Os.update_some (s := { s with taskTable := readied }) found]
    exact runs
  · refine keeps i task ?_ asleep
    exact (Function.update_of_ne away _ _).trans (consistent.keepsAsleep _ i task old asleep)

theorem Consistent.resumed {s : Os} (consistent : Consistent s) {pTask : Nat} {task : OsTask}
    (here : s.taskTable pTask = some task) (suspended : task.state = .suspended)
    {sleepTicks : BitVec 32} (after : s.pCurTask ≤ pTask) :
    Consistent { s with
      taskTable := Function.update s.taskTable pTask
        (some { task with state := .ready, sleepTicks := sleepTicks }) } := by
  obtain ⟨cur, there, current⟩ := consistent.current
  have away : pTask ≠ s.pCurTask := by
    rintro rfl
    cases here.symm.trans there
    rw [current] at suspended
    cases suspended
  refine ⟨?_, consistent.level, consistent.next, ⟨cur, ?_, current⟩, ?_, ?_⟩
  · exact consistent.wf.write (consistent.wf.priority _ task here)
      (consistent.wf.slots _ task here) (NosState.noConfusion ·)
  · exact (Function.update_of_ne (Ne.symm away) _ _).trans there
  · exact consistent.single_write (NosState.noConfusion ·)
  · exact consistent.highest.write fun _ => after

theorem Consistent.preempt {s : Os} (consistent : Consistent s) {table : TaskTable}
    (wf : WellFormed table) (single : ∀ i task, table i = some task → task.state = .current →
      i = s.pCurTask) {cur : OsTask} (there : table s.pCurTask = some cur) {i : Nat} {task : OsTask}
    (here : table i = some task) (ready : task.state = .ready) (away : i ≠ s.pCurTask) :
    ∃ s', osScheduler { s with
        taskTable := Function.update table s.pCurTask (some (cur.setState .ready)) } = some s' ∧
      Consistent s' ∧
      KeepsAsleep (Function.update table s.pCurTask (some (cur.setState .ready))) s'.taskTable := by
  refine osScheduler_spec (i := i) (wf.setState there (by decide)) consistent.level ?_
    ((Function.update_of_ne away _ _).trans here) ready
  intro j held found current
  by_cases same : j = s.pCurTask
  · subst same
    have new := (Function.update_self _ _ _).symm.trans found
    cases new
    cases current
  · exact same (single j held ((Function.update_of_ne same _ _).symm.trans found) current)

theorem osResume_spec {s : Os} (consistent : Consistent s) {pTask : Nat} {task : OsTask}
    (here : s.taskTable pTask = some task) :
    ∃ s', osResume s pTask = some s' ∧ Consistent s' ∧ KeepsAsleep s.taskTable s'.taskTable := by
  obtain ⟨cur, there, current⟩ := consistent.current
  unfold osResume
  rw [here]
  dsimp only [Option.bind_eq_bind, Option.bind_some]
  by_cases suspended : task.state = .suspended
  · have away : pTask ≠ s.pCurTask := by
      rintro rfl
      cases here.symm.trans there
      rw [current] at suspended
      cases suspended
    rw [if_pos suspended, Os.update_some here, Option.bind_some]
    let resumed : OsTask := { task with state := .ready, sleepTicks := 0 }
    have asleep : KeepsAsleep s.taskTable (Function.update s.taskTable pTask (some resumed)) := by
      refine KeepsAsleep.write fun old found => ?_
      cases here.symm.trans found
      rw [suspended]
      decide
    have cur' : Function.update s.taskTable pTask (some resumed) s.pCurTask = some cur :=
      (Function.update_of_ne (Ne.symm away) _ _).trans there
    dsimp only
    rw [cur', Option.bind_some]
    have places : task.priority = pTask := consistent.wf.priority _ task here
    have curPlace : cur.priority = s.pCurTask := consistent.wf.priority _ cur there
    by_cases before : task.priority < cur.priority
    · have wf : WellFormed (Function.update s.taskTable pTask (some resumed)) :=
        consistent.wf.write places (consistent.wf.slots _ task here) (NosState.noConfusion ·)
      obtain ⟨s', runs, consistent', keeps⟩ :=
        consistent.preempt wf (consistent.single_write (NosState.noConfusion ·)) cur'
          (Function.update_self _ _ _) rfl away
      refine ⟨s', ?_, consistent', asleep.trans (KeepsAsleep.trans ?_ keeps)⟩
      · rw [if_pos before, Os.update_some cur', Option.bind_some, if_pos consistent.level]
        exact runs
      · refine KeepsAsleep.write fun old found => ?_
        cases cur'.symm.trans found
        rw [current]
        decide
    · exact ⟨_, if_neg before, consistent.resumed here suspended (by omega), asleep⟩
  · rw [if_neg suspended]
    exact ⟨s, rfl, consistent, fun _ _ found _ => found⟩

theorem osCreate_spec {s : Os} (consistent : Consistent s) (priority : Nat) (allocated : Bool) :
    ∃ s' pTask, osCreate s priority allocated = some (s', pTask) ∧ Consistent s' ∧
      KeepsAsleep s.taskTable s'.taskTable := by
  obtain ⟨cur, there, current⟩ := consistent.current
  unfold osCreate
  by_cases refused : TASK_PRIOR_USER0 < priority ∧ priority ≠ TASK_PRIOR_APP ∧
      priority ≠ TASK_PRIOR_IDLE
  · rw [if_pos refused]
    exact ⟨s, none, rfl, consistent, fun _ _ found _ => found⟩
  · rw [if_neg refused]
    by_cases fresh : (s.taskTable priority).isNone ∧ allocated
    · rw [if_pos fresh]
      have empty : s.taskTable priority = none := Option.isNone_iff_eq_none.mp fresh.1
      have away : priority ≠ s.pCurTask := by
        rintro rfl
        cases there.symm.trans empty
      have slot : priority < MAX_NOS_TASKS := by
        simp only [TASK_PRIOR_USER0, TASK_PRIOR_APP, TASK_PRIOR_IDLE] at refused
        simp only [MAX_NOS_TASKS]
        omega
      have curPlace : cur.priority = s.pCurTask := consistent.wf.priority _ cur there
      let task : OsTask := { state := .ready, priority := priority, sleepTicks := 0 }
      have asleep : KeepsAsleep s.taskTable (Function.update s.taskTable priority (some task)) :=
        KeepsAsleep.write fun old found => by cases empty.symm.trans found
      have cur' : Function.update s.taskTable priority (some task) s.pCurTask = some cur :=
        (Function.update_of_ne (Ne.symm away) _ _).trans there
      have wf : WellFormed (Function.update s.taskTable priority (some task)) :=
        consistent.wf.write rfl slot (NosState.noConfusion ·)
      dsimp only
      rw [cur']
      dsimp only [Option.bind_eq_bind, Option.bind_some]
      by_cases before : priority < cur.priority
      · obtain ⟨s', runs, consistent', keeps⟩ :=
          consistent.preempt wf (consistent.single_write (NosState.noConfusion ·)) cur'
          (Function.update_self _ _ _) rfl away
        refine ⟨s', some priority, ?_, consistent', asleep.trans (KeepsAsleep.trans ?_ keeps)⟩
        · rw [if_pos before, Os.update_some cur', Option.bind_some]
          change (osScheduler { s with
            taskTable := Function.update (Function.update s.taskTable priority (some task))
              s.pCurTask (some (cur.setState .ready)) }).bind _ = _
          rw [runs]
          rfl
        · refine KeepsAsleep.write fun old found => ?_
          cases cur'.symm.trans found
          rw [current]
          decide
      · refine ⟨_, _, if_neg before, ?_, asleep⟩
        exact ⟨wf, consistent.level, consistent.next, ⟨cur, cur', current⟩,
          consistent.single_write (NosState.noConfusion ·), consistent.highest.write fun _ => by omega⟩
    · rw [if_neg fresh]
      exact ⟨s, none, rfl, consistent, fun _ _ found _ => found⟩

/-! ## Interrupts -/

/-- A task that becomes runnable after some more ticks. -/
def Awaits (table : TaskTable) (i : Nat) : Nat → Prop
  | 0 => ∃ task, table i = some task ∧ task.Runnable
  | left + 1 => ∃ task, table i = some task ∧ task.state = .sleeping ∧
      task.sleepTicks.toNat = left + 1

theorem Awaits.keep {table table' : TaskTable} {i left : Nat} (awaits : Awaits table i left)
    (asleep : KeepsAsleep table table') (runnable : KeepsRunnable table table') :
    Awaits table' i left := by
  cases left with
  | zero =>
    obtain ⟨task, here, runs⟩ := awaits
    exact runnable i task here runs
  | succ left =>
    obtain ⟨task, here, sleeps, ticks⟩ := awaits
    exact ⟨task, asleep i task here sleeps, sleeps, ticks⟩

theorem Awaits.congr {table table' : TaskTable} {i left : Nat} (awaits : Awaits table i left)
    (same : table' i = table i) : Awaits table' i left := by
  cases left with
  | zero =>
    obtain ⟨task, here, runs⟩ := awaits
    exact ⟨task, same.trans here, runs⟩
  | succ left =>
    obtain ⟨task, here, sleeps⟩ := awaits
    exact ⟨task, same.trans here, sleeps⟩

/-- The scheduler in an interrupt: the task that is chosen comes before those that are ready. -/
structure Interrupted (s : Os) : Prop where
  wf : WellFormed s.taskTable
  level : s.inOsIsr = 1
  none : NoneCurrent s.taskTable
  cur : ∃ task, s.taskTable s.pCurTask = some task ∧ task.state = .ready
  next : ∃ task, s.taskTable s.pNextTask = some task ∧ task.state = .ready
  first : FirstReady s.taskTable s.pNextTask

theorem irqEntry_spec {s : Os} (consistent : Consistent s) :
    ∃ s', irqEntry s = some s' ∧ Interrupted s' ∧ KeepsAsleep s.taskTable s'.taskTable := by
  obtain ⟨cur, there, current⟩ := consistent.current
  refine ⟨_, Os.update_some (s := { s with inOsIsr := s.inOsIsr + 1 }) there _, ?_,
    consistent.keepsAsleep _⟩
  refine ⟨consistent.wf.setState there (by decide), ?_, consistent.leave (NosState.noConfusion ·),
    ⟨_, Function.update_self _ _ _, rfl⟩, ?_, ?_⟩
  · exact congrArg (· + 1) consistent.level
  · refine ⟨cur.setState .ready, ?_, rfl⟩
    change Function.update s.taskTable s.pCurTask _ s.pNextTask = _
    rw [consistent.next, Function.update_self]
  · change FirstReady (Function.update s.taskTable s.pCurTask _) s.pNextTask
    rw [consistent.next]
    exact consistent.highest.write fun _ => Nat.le_refl _

theorem irqEnd_spec {s : Os} (interrupted : Interrupted s) :
    ∃ s', irqEnd s = some s' ∧ Consistent s' ∧ KeepsAsleep s.taskTable s'.taskTable ∧
      KeepsRunnable s.taskTable s'.taskTable := by
  obtain ⟨task, here, ready⟩ := interrupted.next
  exact restoreNextTask_spec (s := { s with inOsIsr := s.inOsIsr - 1 }) interrupted.wf
    (congrArg (· - 1) interrupted.level) interrupted.none here ready interrupted.first

/-- A task that is resumed is chosen when it comes before the one that was interrupted: it then
has to come before the one chosen so far. -/
theorem osResume_interrupted {s : Os} (interrupted : Interrupted s) {pTask : Nat} {task : OsTask}
    (here : s.taskTable pTask = some task)
    (order : task.state = .suspended → pTask < s.pCurTask → pTask < s.pNextTask) :
    ∃ s', osResume s pTask = some s' ∧ Interrupted s' ∧ KeepsAsleep s.taskTable s'.taskTable ∧
      KeepsRunnable s.taskTable s'.taskTable := by
  obtain ⟨cur, there, curReady⟩ := interrupted.cur
  obtain ⟨next, chosen, nextReady⟩ := interrupted.next
  unfold osResume
  rw [here]
  dsimp only [Option.bind_eq_bind, Option.bind_some]
  by_cases suspended : task.state = .suspended
  · have differs : ∀ i held, s.taskTable i = some held → held.state = .ready → i ≠ pTask := by
      rintro i held found ready rfl
      cases here.symm.trans found
      rw [suspended] at ready
      cases ready
    have away := differs _ cur there curReady
    have awayNext := differs _ next chosen nextReady
    rw [if_pos suspended, Os.update_some here, Option.bind_some]
    let resumed : OsTask := { task with state := .ready, sleepTicks := 0 }
    let table := Function.update s.taskTable pTask (some resumed)
    have asleep : KeepsAsleep s.taskTable table := by
      refine KeepsAsleep.write fun old found => ?_
      cases here.symm.trans found
      rw [suspended]
      decide
    have runnable : KeepsRunnable s.taskTable table := KeepsRunnable.write (.inr rfl)
    have wf : WellFormed table := interrupted.wf.write (interrupted.wf.priority _ task here)
      (interrupted.wf.slots _ task here) (NosState.noConfusion ·)
    have none : NoneCurrent table := interrupted.none.write (NosState.noConfusion ·)
    have cur' : table s.pCurTask = some cur := (Function.update_of_ne away _ _).trans there
    have next' : table s.pNextTask = some next := (Function.update_of_ne awayNext _ _).trans chosen
    have new : table pTask = some resumed := Function.update_self _ _ _
    dsimp only
    change ∃ s', (table s.pCurTask).bind _ = some s' ∧ _
    rw [cur', Option.bind_some]
    have places : task.priority = pTask := interrupted.wf.priority _ task here
    have curPlace : cur.priority = s.pCurTask := interrupted.wf.priority _ cur there
    by_cases before : task.priority < cur.priority
    · have sooner := order suspended (by omega)
      have readied : KeepsRunnable table
          (Function.update table s.pCurTask (some (cur.setState .ready))) :=
        KeepsRunnable.write (.inr rfl)
      have still : KeepsAsleep table
          (Function.update table s.pCurTask (some (cur.setState .ready))) := by
        refine KeepsAsleep.write fun old found => ?_
        cases cur'.symm.trans found
        rw [curReady]
        decide
      refine ⟨{ s with
        taskTable := Function.update table s.pCurTask (some (cur.setState .ready)),
        pNextTask := pTask }, ?_, ?_, asleep.trans still, runnable.trans readied⟩
      · rw [if_pos before]
        change (Os.update { s with taskTable := table } s.pCurTask _).bind _ = _
        rw [Os.update_some (s := { s with taskTable := table }) cur', Option.bind_some]
        refine if_neg ?_
        change s.inOsIsr ≠ 0
        rw [interrupted.level]
        decide
      · refine ⟨wf.setState cur' (by decide), interrupted.level,
          none.write (NosState.noConfusion ·), ⟨_, Function.update_self _ _ _, rfl⟩,
          ⟨resumed, (Function.update_of_ne (Ne.symm away) _ _).trans new, rfl⟩, ?_⟩
        have least : FirstReady table pTask := by
          refine FirstReady.write ?_ fun _ => Nat.le_refl _
          exact fun i held found ready =>
            Nat.le_trans (Nat.le_of_lt sooner) (interrupted.first i held found ready)
        exact least.write fun _ => show pTask ≤ s.pCurTask by omega
    · refine ⟨_, if_neg before, ?_, asleep, runnable⟩
      have chosenFirst := interrupted.first _ cur there curReady
      exact ⟨wf, interrupted.level, none, ⟨cur, cur', curReady⟩, ⟨next, next', nextReady⟩,
        interrupted.first.write fun _ => by omega⟩
  · rw [if_neg suspended]
    exact ⟨s, rfl, interrupted, fun _ _ found _ => found, fun _ held found runs => ⟨held, found, runs⟩⟩

/-- One task of the loop over the sleeping tasks. -/
structure Ticked (s s' : Os) (i : Nat) : Prop where
  interrupted : Interrupted s'
  other : ∀ j, j ≠ i → s'.taskTable j = s.taskTable j
  occupied : (s.taskTable i).isSome → (s'.taskTable i).isSome
  awaits : ∀ left, Awaits s.taskTable i left → Awaits s'.taskTable i (left - 1)

theorem Interrupted.sleepOn {s : Os} (interrupted : Interrupted s) {i : Nat} {task : OsTask}
    (here : s.taskTable i = some task) (asleep : task.state = .sleeping) {ticks : BitVec 32}
    (left : ticks ≠ 0) :
    Interrupted { s with
      taskTable := Function.update s.taskTable i (some { task with sleepTicks := ticks }) } := by
  obtain ⟨cur, there, curReady⟩ := interrupted.cur
  obtain ⟨next, chosen, nextReady⟩ := interrupted.next
  have differs : ∀ j held, s.taskTable j = some held → held.state = .ready → j ≠ i := by
    rintro j held found ready rfl
    cases here.symm.trans found
    rw [asleep] at ready
    cases ready
  refine ⟨?_, interrupted.level, ?_, ⟨cur, ?_, curReady⟩, ⟨next, ?_, nextReady⟩, ?_⟩
  · exact interrupted.wf.write (interrupted.wf.priority _ task here)
      (interrupted.wf.slots _ task here) fun _ => left
  · refine interrupted.none.write ?_
    change task.state ≠ .current
    rw [asleep]
    decide
  · exact (Function.update_of_ne (differs _ cur there curReady) _ _).trans there
  · exact (Function.update_of_ne (differs _ next chosen nextReady) _ _).trans chosen
  · refine interrupted.first.write fun ready => ?_
    change task.state = .ready at ready
    rw [asleep] at ready
    cases ready

theorem wakeUp_spec {s : Os} (interrupted : Interrupted s) {i : Nat} {task : OsTask}
    (here : s.taskTable i = some task) (asleep : task.state = .sleeping) {ticks : BitVec 32} :
    ∃ s', wakeUp { s with
        taskTable := Function.update s.taskTable i (some { task with sleepTicks := ticks }) } i task =
          some s' ∧ Interrupted s' ∧ (∀ j, j ≠ i → s'.taskTable j = s.taskTable j) ∧
      ∃ task', s'.taskTable i = some task' ∧ task'.Runnable := by
  obtain ⟨cur, there, curReady⟩ := interrupted.cur
  obtain ⟨next, chosen, nextReady⟩ := interrupted.next
  have differs : ∀ j held, s.taskTable j = some held → held.state = .ready → j ≠ i := by
    rintro j held found ready rfl
    cases here.symm.trans found
    rw [asleep] at ready
    cases ready
  let slept : OsTask := { task with sleepTicks := ticks }
  let table := Function.update (Function.update s.taskTable i (some slept)) i
    (some (slept.setState .ready))
  have same : table = Function.update s.taskTable i (some (slept.setState .ready)) :=
    Function.update_idem _ _ _
  have other : ∀ j, j ≠ i → table j = s.taskTable j := fun j away => by
    rw [same, Function.update_of_ne away]
  have wf : WellFormed table := by
    rw [same]
    exact interrupted.wf.write (interrupted.wf.priority _ task here)
      (interrupted.wf.slots _ task here) (NosState.noConfusion ·)
  have none : NoneCurrent table := by
    rw [same]
    exact interrupted.none.write (NosState.noConfusion ·)
  have new : table i = some (slept.setState .ready) := Function.update_self _ _ _
  have cur' : table s.pCurTask = some cur := (other _ (differs _ cur there curReady)).trans there
  have next' : table s.pNextTask = some next :=
    (other _ (differs _ next chosen nextReady)).trans chosen
  have places : task.priority = i := interrupted.wf.priority _ task here
  have nextPlace : next.priority = s.pNextTask := interrupted.wf.priority _ next chosen
  have unfolded : wakeUp { s with
      taskTable := Function.update s.taskTable i (some { task with sleepTicks := ticks }) } i task =
        if task.priority < next.priority then some { s with taskTable := table, pNextTask := i }
        else some { s with taskTable := table } := by
    unfold wakeUp
    rw [Os.update_some (Function.update_self _ _ _)]
    change (table s.pNextTask).bind _ = _
    rw [next']
    rfl
  rw [unfolded]
  by_cases before : task.priority < next.priority
  · refine ⟨_, if_pos before, ⟨wf, interrupted.level, none, ⟨cur, cur', curReady⟩,
      ⟨_, new, rfl⟩, ?_⟩, other, _, new, .inr rfl⟩
    change FirstReady table i
    rw [same]
    refine FirstReady.write ?_ fun _ => Nat.le_refl _
    intro j held found ready
    have chosenFirst := interrupted.first j held found ready
    omega
  · refine ⟨_, if_neg before, ⟨wf, interrupted.level, none, ⟨cur, cur', curReady⟩,
      ⟨next, next', nextReady⟩, ?_⟩, other, _, new, .inr rfl⟩
    change FirstReady table s.pNextTask
    rw [same]
    exact interrupted.first.write fun _ => by omega

/-- One turn of the loop of `OsTimerLisr`. -/
theorem timerTask_spec {s : Os} (interrupted : Interrupted s) {i : Nat} {task : OsTask}
    (here : s.taskTable i = some task) : ∃ s', timerTask s i = some s' ∧ Ticked s s' i := by
  unfold timerTask
  rw [here]
  dsimp only [Option.bind_eq_bind, Option.bind_some]
  by_cases asleep : task.state = .sleeping
  · have some_left := interrupted.wf.asleep i task here asleep
    have count : (task.sleepTicks - 1).toNat = task.sleepTicks.toNat - 1 := by
      have positive : 0 < task.sleepTicks.toNat :=
        Nat.pos_of_ne_zero fun zero => some_left (BitVec.eq_of_toNat_eq zero)
      have small := task.sleepTicks.isLt
      have one : (1 : BitVec 32).toNat = 1 := rfl
      rw [BitVec.toNat_sub, one]
      omega
    have known : ∀ left, Awaits s.taskTable i left → left = task.sleepTicks.toNat := by
      intro left awaits
      cases left with
      | zero =>
        obtain ⟨held, found, runs⟩ := awaits
        cases here.symm.trans found
        rw [OsTask.Runnable, asleep] at runs
        obtain current | ready := runs
        · cases current
        · cases ready
      | succ left =>
        obtain ⟨held, found, -, ticks⟩ := awaits
        cases here.symm.trans found
        exact ticks.symm
    rw [if_pos asleep, Os.update_some here, Option.bind_some]
    by_cases awake : task.sleepTicks - 1 = 0
    · obtain ⟨s', wakes, interrupted', other, task', here', runs⟩ := wakeUp_spec interrupted here asleep
      refine ⟨s', (if_pos awake).trans wakes, interrupted', other, ?_, ?_⟩
      · rw [here']
        exact fun _ => rfl
      · intro left awaits
        have zero : left - 1 = 0 := by
          rw [known left awaits, ← count, awake]
          rfl
        rw [zero]
        exact ⟨task', here', runs⟩
    · refine ⟨_, if_neg awake, interrupted.sleepOn here asleep awake, ?_, ?_, ?_⟩
      · exact fun j away => Function.update_of_ne away _ _
      · intro _
        change (Function.update s.taskTable i _ i).isSome
        rw [Function.update_self]
        rfl
      · intro left awaits
        have positive : (task.sleepTicks - 1).toNat ≠ 0 :=
          fun zero => awake (BitVec.eq_of_toNat_eq zero)
        rw [known left awaits, ← count]
        obtain ⟨more, size⟩ := Nat.exists_eq_succ_of_ne_zero positive
        rw [size]
        exact ⟨_, Function.update_self _ _ _, asleep, size⟩
  · rw [if_neg asleep]
    refine ⟨s, rfl, interrupted, fun _ _ => rfl, id, fun left awaits => ?_⟩
    cases left with
    | zero => exact awaits
    | succ left =>
      obtain ⟨held, found, sleeps, -⟩ := awaits
      cases here.symm.trans found
      exact absurd sleeps asleep

theorem timerTasks_spec {s : Os} (interrupted : Interrupted s) {slots : List Nat}
    (distinct : slots.Nodup) (occupied : ∀ i ∈ slots, (s.taskTable i).isSome) :
    ∃ s', slots.foldlM timerTask s = some s' ∧ Interrupted s' ∧
      (∀ j ∉ slots, s'.taskTable j = s.taskTable j) ∧
      ∀ j ∈ slots, ∀ left, Awaits s.taskTable j left → Awaits s'.taskTable j (left - 1) := by
  induction slots generalizing s with
  | nil => exact ⟨s, rfl, interrupted, fun _ _ => rfl, fun _ member => nomatch member⟩
  | cons i rest past =>
    obtain ⟨fresh, others⟩ := List.nodup_cons.mp distinct
    obtain ⟨task, here⟩ := Option.isSome_iff_exists.mp (occupied i List.mem_cons_self)
    obtain ⟨mid, runs, ticked⟩ := timerTask_spec interrupted here
    have still : ∀ j ∈ rest, mid.taskTable j = s.taskTable j := fun j member =>
      ticked.other j fun same => fresh (same ▸ member)
    obtain ⟨s', ends, interrupted', away, awaits⟩ := past ticked.interrupted others
      fun j member => by
        rw [still j member]
        exact occupied j (List.mem_cons_of_mem _ member)
    refine ⟨s', ?_, interrupted', fun j outside => ?_, fun j member left waits => ?_⟩
    · rw [List.foldlM_cons, runs]
      exact ends
    · obtain ⟨notHere, notLater⟩ := not_or.mp (mt List.mem_cons.mpr outside)
      rw [away j notLater, ticked.other j notHere]
    · obtain rfl | later := List.mem_cons.mp member
      · exact (ticked.awaits left waits).congr (away j fresh)
      · exact awaits j later left (waits.congr (still j later))

/-- The calls of an interrupt that keep the choice right: every slot is occupied at a tick, and
a task that is resumed before the interrupted one comes before the one chosen so far. -/
def IsrFits (s : Os) : IsrCall → Prop
  | .resume pTask => (s.taskTable pTask).isSome ∧
      ((s.taskTable pTask).any (·.state = .suspended) → pTask < s.pCurTask → pTask < s.pNextTask)
  | .tick => ∀ i < MAX_NOS_TASKS, (s.taskTable i).isSome

instance (s : Os) : (call : IsrCall) → Decidable (IsrFits s call)
  | .resume _ => inferInstanceAs (Decidable (_ ∧ _))
  | .tick => inferInstanceAs (Decidable (∀ i < MAX_NOS_TASKS, (s.taskTable i).isSome))

theorem isrCalls_spec {s : Os} (interrupted : Interrupted s) {calls : List IsrCall}
    (fits : MeetsPartial isrCall IsrFits s calls) :
    ∃ s', calls.foldlM isrCall s = some s' ∧ Interrupted s' ∧ ∀ i left,
      Awaits s.taskTable i left → Awaits s'.taskTable i (left - calls.count .tick) := by
  induction calls generalizing s with
  | nil => exact ⟨s, rfl, interrupted, fun _ _ waits => waits⟩
  | cons call rest past =>
    suffices first : ∃ mid, isrCall s call = some mid ∧ Interrupted mid ∧ ∀ i left,
        Awaits s.taskTable i left → Awaits mid.taskTable i (left - [call].count .tick) by
      obtain ⟨mid, runs, interrupted', waits⟩ := first
      obtain ⟨s', ends, interrupted'', waits'⟩ := past interrupted' (fits.2 mid runs)
      refine ⟨s', ?_, interrupted'', fun i left awaits => ?_⟩
      · rw [List.foldlM_cons, runs]
        exact ends
      · have later := waits' i _ (waits i left awaits)
        rwa [Nat.sub_sub, ← List.count_append] at later
    cases call with
    | resume pTask =>
      obtain ⟨task, here⟩ := Option.isSome_iff_exists.mp fits.1.1
      have order : task.state = .suspended → pTask < s.pCurTask → pTask < s.pNextTask :=
        fun suspended => fits.1.2 (by rw [here]; simp [suspended])
      obtain ⟨mid, runs, interrupted', asleep, runnable⟩ :=
        osResume_interrupted interrupted here order
      exact ⟨mid, runs, interrupted', fun i left waits => waits.keep asleep runnable⟩
    | tick =>
      obtain ⟨mid, runs, interrupted', -, waits⟩ := timerTasks_spec interrupted
        List.nodup_range fun i member => fits.1 i (List.mem_range.mp member)
      refine ⟨mid, runs, interrupted', fun i left awaits => waits i ?_ left awaits⟩
      have held : ∃ task, s.taskTable i = some task := by
        cases left with
        | zero => exact awaits.imp fun _ held => held.1
        | succ left => exact awaits.imp fun _ held => held.1
      obtain ⟨task, here⟩ := held
      exact List.mem_range.mpr (interrupted.wf.slots i task here)

/-! ## Runs -/

/-- The events of the runs: the calls are about tasks, another task is ready when the current one
gives up, and an interrupt keeps the choice right. -/
def Fits (s : Os) : Event → Prop
  | .create _ _ => True
  | .sleep sleepTime => sleepTime ≠ 0 → ∃ i < MAX_NOS_TASKS, s.isReady i = true
  | .suspend pTask => (s.taskTable pTask).isSome ∧
      (pTask = s.pCurTask → ∃ i < MAX_NOS_TASKS, s.isReady i = true)
  | .resume pTask => (s.taskTable pTask).isSome
  | .interrupt calls => ∀ entered ∈ irqEntry s, MeetsPartial isrCall IsrFits entered calls

instance (s : Os) : (event : Event) → Decidable (Fits s event)
  | .create _ _ => inferInstanceAs (Decidable True)
  | .sleep _ => inferInstanceAs (Decidable (_ → _))
  | .suspend _ => inferInstanceAs (Decidable (_ ∧ _))
  | .resume pTask => inferInstanceAs (Decidable ((s.taskTable pTask).isSome = true))
  | .interrupt calls => inferInstanceAs
      (Decidable (∀ entered ∈ irqEntry s, MeetsPartial isrCall IsrFits entered calls))

/-- The ticks of an event. -/
def Event.ticks : Event → Nat
  | .interrupt calls => calls.count .tick
  | _ => 0

/-- What an event does: the scheduler stays consistent, and the tasks that sleep and are not
suspended sleep on, or are runnable after their last tick. -/
theorem step_spec {s : Os} (consistent : Consistent s) {event : Event} (fits : Fits s event) :
    ∃ s', step s event = some s' ∧ Consistent s' ∧ ∀ i left, event ≠ .suspend i →
      Awaits s.taskTable i (left + 1) → Awaits s'.taskTable i (left + 1 - event.ticks) := by
  have asleepOn : ∀ {s' : Os}, KeepsAsleep s.taskTable s'.taskTable → ∀ i left,
      Awaits s.taskTable i (left + 1) → Awaits s'.taskTable i (left + 1) := by
    rintro s' keeps i left ⟨task, here, sleeps, ticks⟩
    exact ⟨task, keeps i task here sleeps, sleeps, ticks⟩
  cases event with
  | create priority allocated =>
    obtain ⟨s', pTask, runs, consistent', keeps⟩ := osCreate_spec consistent priority allocated
    exact ⟨s', congrArg (Option.map Prod.fst) runs, consistent', fun i left _ => asleepOn keeps i left⟩
  | sleep sleepTime =>
    obtain ⟨s', runs, consistent', keeps, -⟩ :=
      osSleep_spec consistent fun sleeps => (fits sleeps).imp fun _ ready => ready.2
    exact ⟨s', runs, consistent', fun i left _ => asleepOn keeps i left⟩
  | suspend pTask =>
    obtain ⟨task, here⟩ := Option.isSome_iff_exists.mp fits.1
    obtain ⟨s', runs, consistent', keeps⟩ :=
      osSuspend_spec consistent here fun own => (fits.2 own).imp fun _ ready => ready.2
    refine ⟨s', runs, consistent', fun i left other => ?_⟩
    rintro ⟨task, found, sleeps, ticks⟩
    have away : i ≠ pTask := fun same => other (same ▸ rfl)
    exact ⟨task, keeps i task away found sleeps, sleeps, ticks⟩
  | resume pTask =>
    obtain ⟨task, here⟩ := Option.isSome_iff_exists.mp fits
    obtain ⟨s', runs, consistent', keeps⟩ := osResume_spec consistent here
    exact ⟨s', runs, consistent', fun i left _ => asleepOn keeps i left⟩
  | interrupt calls =>
    obtain ⟨entered, enters, interrupted, keeps⟩ := irqEntry_spec consistent
    obtain ⟨mid, runs, interrupted', waits⟩ := isrCalls_spec interrupted (fits entered enters)
    obtain ⟨s', ends, consistent', asleep, runnable⟩ := irqEnd_spec interrupted'
    refine ⟨s', ?_, consistent', fun i left _ awaits => ?_⟩
    · change (irqEntry s).bind _ = _
      rw [enters, Option.bind_some]
      change (calls.foldlM isrCall entered).bind _ = _
      rw [runs]
      exact ends
    · exact (waits i _ (asleepOn keeps i left awaits)).keep asleep runnable

/-- The task that runs is runnable, and no runnable task has a smaller priority number. -/
def RunsFirst (s : Os) : Prop :=
  ∃ cur, s.taskTable s.pCurTask = some cur ∧ cur.Runnable ∧
    ∀ i task, s.taskTable i = some task → task.Runnable → cur.priority ≤ task.priority

theorem Consistent.runsFirst {s : Os} (consistent : Consistent s) : RunsFirst s := by
  obtain ⟨cur, there, current⟩ := consistent.current
  refine ⟨cur, there, .inl current, fun i task here runnable => ?_⟩
  rw [consistent.wf.priority _ cur there, consistent.wf.priority i task here]
  obtain isCurrent | ready := runnable
  · exact Nat.le_of_eq (consistent.single i task here isCurrent).symm
  · exact consistent.highest i task here ready

/-- The ticks of a run. -/
def ticks (events : List Event) : Nat := (events.map Event.ticks).sum

theorem ticks_append (front back : List Event) : ticks (front ++ back) = ticks front + ticks back := by
  rw [ticks, ticks, ticks, List.map_append, List.sum_append]

/-- The tasks that called `OsSleep` in a run from `s` to `s'`, and were not suspended meanwhile:
before the last of their ticks they sleep, and the event with this tick makes them runnable. -/
def WakesInTime (s : Os) (events : List Event) (s' : Os) : Prop :=
  ∀ before sleepTime during caller, events = before ++ .sleep sleepTime :: during →
    before.foldlM step s = some caller → sleepTime ≠ 0 →
    (∀ event ∈ during, event ≠ .suspend caller.pCurTask) →
      (ticks during < sleepTime.toNat → ∃ task,
        s'.taskTable caller.pCurTask = some task ∧ task.state = .sleeping) ∧
      ∀ front last, during = front ++ [last] → ticks front < sleepTime.toNat →
        sleepTime.toNat ≤ ticks during →
          ∃ task, s'.taskTable caller.pCurTask = some task ∧ task.Runnable

theorem asleep_run {s : Os} (consistent : Consistent s) {events : List Event}
    (fits : MeetsPartial step Fits s events) {i left : Nat}
    (quiet : ∀ event ∈ events, event ≠ .suspend i)
    (sleeps : Awaits s.taskTable i (left + ticks events + 1)) :
    ∃ s', events.foldlM step s = some s' ∧ Consistent s' ∧ Awaits s'.taskTable i (left + 1) := by
  induction events generalizing s with
  | nil => exact ⟨s, rfl, consistent, sleeps⟩
  | cons event rest past =>
    have split : ticks (event :: rest) = event.ticks + ticks rest := ticks_append [event] rest
    obtain ⟨mid, runs, consistent', waits⟩ := step_spec consistent fits.1
    have still := waits i _ (quiet event List.mem_cons_self) sleeps
    have less : left + ticks (event :: rest) + 1 - event.ticks = left + ticks rest + 1 := by omega
    rw [less] at still
    obtain ⟨s', ends, last⟩ := past consistent' (fits.2 mid runs)
      (fun other member => quiet other (List.mem_cons_of_mem _ member)) still
    refine ⟨s', ?_, last⟩
    rw [List.foldlM_cons, runs]
    exact ends

/-- **The highest-priority runnable task runs**, no empty slot is dereferenced, and tasks that
sleep wake up in time, in every run whose interrupts keep the choice right. -/
theorem scheduler_runsFirst {s : Os} (consistent : Consistent s) {events : List Event}
    (fits : MeetsPartial step Fits s events) :
    ∃ s', events.foldlM step s = some s' ∧ RunsFirst s' ∧ WakesInTime s events s' := by
  have each : ∀ s event, Consistent s → Fits s event →
      ∃ next, step s event = some next ∧ Consistent next := by
    intro s event consistent fits
    obtain ⟨next, runs, consistent', -⟩ := step_spec consistent fits
    exact ⟨next, runs, consistent'⟩
  obtain ⟨s', runs, consistent'⟩ := foldlM_keeps each consistent fits
  refine ⟨s', runs, consistent'.runsFirst, ?_⟩
  rintro before sleepTime during caller rfl reached sleeps quiet
  obtain ⟨early, later⟩ := fits.append
  obtain ⟨caller', reached', calls⟩ := foldlM_keeps each consistent early
  cases reached.symm.trans reached'
  obtain ⟨fitsSleep, fitsDuring⟩ := later caller reached
  obtain ⟨asleep, falls, consistentAsleep, -, slept⟩ :=
    osSleep_spec calls fun sleeps => (fitsSleep sleeps).imp fun _ ready => ready.2
  obtain ⟨task, here, sleeping, size⟩ := slept sleeps
  rw [List.foldlM_append, reached] at runs
  change ((step caller (.sleep sleepTime)).bind fun next => during.foldlM step next) = some s' at runs
  rw [show step caller (.sleep sleepTime) = some asleep from falls, Option.bind_some] at runs
  have fitsAsleep := fitsDuring asleep falls
  have awaits : ∀ left, left + 1 = sleepTime.toNat →
      Awaits asleep.taskTable caller.pCurTask (left + 1) := fun left total =>
    ⟨task, here, sleeping, by rw [size, total]⟩
  constructor
  · intro few
    obtain ⟨left, total⟩ : ∃ left, left + ticks during + 1 = sleepTime.toNat :=
      ⟨sleepTime.toNat - ticks during - 1, by omega⟩
    obtain ⟨s'', ends, -, held, found, sleepsOn, -⟩ :=
      asleep_run consistentAsleep fitsAsleep quiet (awaits _ total)
    cases runs.symm.trans ends
    exact ⟨held, found, sleepsOn⟩
  · rintro front last rfl few enough
    obtain ⟨left, total⟩ : ∃ left, left + ticks front + 1 = sleepTime.toNat :=
      ⟨sleepTime.toNat - ticks front - 1, by omega⟩
    obtain ⟨fitsFront, fitsLast⟩ := fitsAsleep.append
    obtain ⟨mid, ends, consistentMid, waits⟩ := asleep_run consistentAsleep fitsFront
      (fun event member => quiet event (List.mem_append_left _ member)) (awaits _ total)
    obtain ⟨s'', wakes, -, kept⟩ := step_spec consistentMid (fitsLast mid ends).1
    have still := kept _ left (quiet last (List.mem_append_right _ List.mem_cons_self)) waits
    rw [ticks_append, show ticks [last] = last.ticks from Nat.add_zero _] at enough
    rw [show left + 1 - last.ticks = 0 by omega] at still
    rw [List.foldlM_append, ends] at runs
    change (step mid last).bind some = some s' at runs
    rw [wakes, Option.bind_some] at runs
    cases runs
    exact still

theorem booted_consistent : Consistent booted := by
  have alone : ∀ i task, booted.taskTable i = some task → i = TASK_PRIOR_APP ∧
      task = { state := .current, priority := TASK_PRIOR_APP, sleepTicks := 0 } := by
    intro i task here
    by_cases main : i = TASK_PRIOR_APP
    · subst main
      cases here
      exact ⟨rfl, rfl⟩
    · change Function.update (fun _ => none) TASK_PRIOR_APP _ i = some task at here
      rw [Function.update_of_ne main] at here
      cases here
  refine ⟨⟨fun i task here => ?_, fun i task here => ?_, fun i task here asleep => ?_⟩, rfl, rfl,
    ⟨_, rfl, rfl⟩, fun i task here _ => (alone i task here).1,
    fun i task here ready => ?_⟩ <;> obtain ⟨rfl, rfl⟩ := alone i task here
  · rfl
  · decide
  · cases asleep
  · cases ready

/-- A scheduler with a task in every slot, of which the first one is current. -/
def fullTable : Os where
  taskTable i := if i < MAX_NOS_TASKS then
    some { state := if i = 0 then .current else .ready, priority := i, sleepTicks := 0 } else none
  pCurTask := 0
  pNextTask := 0
  inOsIsr := 0

theorem fullTable_consistent : Consistent fullTable where
  wf := by
    refine ⟨fun i task here => ?_, fun i task here => ?_, fun i task here asleep => ?_⟩ <;>
      simp only [fullTable] at here <;> split at here <;> cases here
    · rfl
    · assumption
    · dsimp only at asleep
      split at asleep <;> cases asleep
  level := rfl
  next := rfl
  current := ⟨_, rfl, rfl⟩
  single i task here current := by
    simp only [fullTable] at here
    split at here <;> cases here
    dsimp only at current
    split at current
    · assumption
    · cases current
  highest i _ _ _ := Nat.zero_le i

/-- The first task sleeps for two ticks. -/
def sleepTwo : List Event := [.sleep 2, .interrupt [.tick], .interrupt [.tick]]

/-- Two ticks wake up the first task. -/
theorem scheduler_runsFirst_ticks :
    ∃ s', sleepTwo.foldlM step fullTable = some s' ∧ RunsFirst s' ∧
      WakesInTime fullTable sleepTwo s' :=
  scheduler_runsFirst fullTable_consistent (by decide)

/-- The events that lead to an interrupt in which two tasks wait to be resumed. -/
def suspendTwo : List Event :=
  [.create 31 true, .create 5 true, .suspend 5, .create 10 true, .suspend 10]

/-- A task that is resumed after one that comes before it runs in its place, and a tick
dereferences an empty slot. -/
theorem interrupt_runsLater :
    (∃ s', (suspendTwo ++ [Event.interrupt [.resume 5, .resume 10]]).foldlM step booted = some s' ∧
      ¬ RunsFirst s') ∧
    (suspendTwo ++ [Event.interrupt [.tick]]).foldlM step booted = none := by
  refine ⟨⟨_, rfl, ?_⟩, rfl⟩
  rintro ⟨cur, there, -, least⟩
  have first := least 5 _ rfl (.inr rfl)
  cases there
  exact absurd first (by decide)

end PosFirmware.Multitask
