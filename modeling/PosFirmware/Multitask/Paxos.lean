import Mathlib.Logic.Function.Basic

/-!
# The task scheduler

`paxos.c` and the interrupt entry and exit of `init.S`. A task is named by its slot of
`TaskTable`, which is its priority. An operation has no result when it dereferences an empty
slot, or when the scheduler is entered in an interrupt, where it hangs.
-/

namespace PosFirmware.Multitask

def MAX_NOS_TASKS : Nat := 32
def TASK_PRIOR_USER0 : Nat := 26
def TASK_PRIOR_APP : Nat := 30
def TASK_PRIOR_IDLE : Nat := 31

/-- `NOS_STATE_CURRENT`, `NOS_STATE_READY`, `NOS_STATE_SUSPENDED` and `NOS_STATE_SLEEPING`. -/
inductive NosState where
  | current
  | ready
  | suspended
  | sleeping
  deriving DecidableEq

/-- `OS_TASK`, as far as the scheduler uses it. -/
structure OsTask where
  state : NosState
  priority : Nat
  sleepTicks : BitVec 32

/-- The variables of the scheduler once `OsInit` has made a task current. -/
structure Os where
  taskTable : Nat → Option OsTask
  pCurTask : Nat
  pNextTask : Nat
  inOsIsr : Nat

/-- A task is written through its pointer. -/
def Os.update (s : Os) (pTask : Nat) (change : OsTask → OsTask) : Option Os :=
  (s.taskTable pTask).map fun task =>
    { s with taskTable := Function.update s.taskTable pTask (some (change task)) }

def OsTask.setState (state : NosState) (task : OsTask) : OsTask := { task with state := state }

/-- `RestoreNextTask`, where `TaskSwitch` and an interrupt end. -/
def restoreNextTask (s : Os) : Option Os :=
  { s with pCurTask := s.pNextTask }.update s.pNextTask (OsTask.setState .current)

def Os.isReady (s : Os) (i : Nat) : Bool := (s.taskTable i).any (·.state = .ready)

/-- `OsScheduler`. When no task is ready it does nothing. -/
def osScheduler (s : Os) : Option Os :=
  if s.inOsIsr ≠ 0 then none
  else
    match (List.range MAX_NOS_TASKS).find? s.isReady with
    | none => some s
    | some i => restoreNextTask { s with pNextTask := i }

/-- `OsSuspend`. -/
def osSuspend (s : Os) (pTask : Nat) : Option Os := do
  let s ← s.update s.pCurTask (OsTask.setState .ready)
  let s ← s.update pTask (OsTask.setState .suspended)
  osScheduler s

/-- `OsResume`. -/
def osResume (s : Os) (pTask : Nat) : Option Os := do
  let task ← s.taskTable pTask
  if task.state = .suspended then
    let s ← s.update pTask fun task => { task with state := .ready, sleepTicks := 0 }
    let cur ← s.taskTable s.pCurTask
    if task.priority < cur.priority then
      let s ← s.update s.pCurTask (OsTask.setState .ready)
      if s.inOsIsr = 0 then osScheduler s else some { s with pNextTask := pTask }
    else some s
  else some s

/-- `OsSleep`. -/
def osSleep (s : Os) (sleepTime : BitVec 32) : Option Os := do
  let s ←
    if sleepTime ≠ 0 then
      s.update s.pCurTask fun task => { task with state := .sleeping, sleepTicks := sleepTime }
    else s.update s.pCurTask (OsTask.setState .ready)
  osScheduler s

/-- A task that has slept long enough. -/
def wakeUp (s : Os) (i : Nat) (task : OsTask) : Option Os := do
  let s ← s.update i (OsTask.setState .ready)
  let next ← s.taskTable s.pNextTask
  if task.priority < next.priority then some { s with pNextTask := i } else some s

/-- The body of the loop of `OsTimerLisr`. -/
def timerTask (s : Os) (i : Nat) : Option Os := do
  let task ← s.taskTable i
  if task.state = .sleeping then
    let s ← s.update i fun task => { task with sleepTicks := task.sleepTicks - 1 }
    if task.sleepTicks - 1 = 0 then wakeUp s i task else some s
  else some s

/-- `OsTimerLisr`. -/
def osTimerLisr (s : Os) : Option Os := (List.range MAX_NOS_TASKS).foldlM timerTask s

/-- `OsCreate`: the scheduler, and the task it returns. -/
def osCreate (s : Os) (priority : Nat) (allocated : Bool) : Option (Os × Option Nat) :=
  if TASK_PRIOR_USER0 < priority ∧ priority ≠ TASK_PRIOR_APP ∧ priority ≠ TASK_PRIOR_IDLE then
    some (s, none)
  else if (s.taskTable priority).isNone ∧ allocated then do
    let task := { state := .ready, priority := priority, sleepTicks := 0 }
    let s := { s with taskTable := Function.update s.taskTable priority (some task) }
    let cur ← s.taskTable s.pCurTask
    if priority < cur.priority then
      let s ← s.update s.pCurTask (OsTask.setState .ready)
      let s ← osScheduler s
      some (s, some priority)
    else some (s, some priority)
  else some (s, none)

/-- What an interrupt handler does to the scheduler. -/
inductive IsrCall where
  /-- `OsResume` is called. -/
  | resume (pTask : Nat)
  /-- `OsTimerLisr` is called. -/
  | tick
  deriving DecidableEq

def isrCall (s : Os) : IsrCall → Option Os
  | .resume pTask => osResume s pTask
  | .tick => osTimerLisr s

/-- `Irq_Handler` marks the task that was interrupted. -/
def irqEntry (s : Os) : Option Os :=
  { s with inOsIsr := s.inOsIsr + 1 }.update s.pCurTask (OsTask.setState .ready)

/-- `IRQ_END`. -/
def irqEnd (s : Os) : Option Os := restoreNextTask { s with inOsIsr := s.inOsIsr - 1 }

/-- An interrupt. -/
def interrupt (s : Os) (calls : List IsrCall) : Option Os := do
  let s ← irqEntry s
  let s ← calls.foldlM isrCall s
  irqEnd s

/-- What happens at task level. -/
inductive Event where
  | create (priority : Nat) (allocated : Bool)
  | sleep (sleepTime : BitVec 32)
  | suspend (pTask : Nat)
  | resume (pTask : Nat)
  | interrupt (calls : List IsrCall)
  deriving DecidableEq

/-- The scheduler when control is back at task level. -/
def step (s : Os) : Event → Option Os
  | .create priority allocated => (osCreate s priority allocated).map Prod.fst
  | .sleep sleepTime => osSleep s sleepTime
  | .suspend pTask => osSuspend s pTask
  | .resume pTask => osResume s pTask
  | .interrupt calls => interrupt s calls

/-- The scheduler that `OsInit` leaves: the main task is current. -/
def booted : Os where
  taskTable := Function.update (fun _ => none) TASK_PRIOR_APP
    (some { state := .current, priority := TASK_PRIOR_APP, sleepTicks := 0 })
  pCurTask := TASK_PRIOR_APP
  pNextTask := TASK_PRIOR_APP
  inOsIsr := 0

end PosFirmware.Multitask
