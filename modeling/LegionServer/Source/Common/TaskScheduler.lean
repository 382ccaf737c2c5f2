import LegionServer.Library.Queues
import LegionServer.Library.Outcome

/-!
# Task schedulers

Tasks are shared objects: the queue and the context of the task that is running may hold
the same one. A handler is what it asks of its context, given what it keeps outside and
what it can read of its task. Times are whole numbers of the clock.
-/
namespace LegionServer.Source.Common
open Library

variable {K H : Type*}

abbrev TaskId := Nat

/-- `TaskScheduler::Task`; `taskEnd` is `_end`. -/
structure Task (K : Type*) where
  taskEnd : Int
  duration : Int
  group : Option UInt32
  repeated : UInt32
  task : K

def Task.isInGroup (task : Task K) (group : UInt32) : Bool := task.group == some group

structure TaskScheduler (K H : Type*) where
  now : Int
  /-- The task objects, and the number of the next one. -/
  tasks : TaskId → Task K
  nextTask : TaskId
  taskHolder : List TaskId
  /-- What the handlers keep between their calls. -/
  outside : H
  /-- The tasks invoked so far, with their repeat counters. -/
  invoked : List (K × UInt32)

inductive ContextCall (K : Type*) where
  | repeatAfter (duration : Int)
  | repeatAgain
  | schedule (time : Int) (group : Option UInt32) (task : K)
  | cancelAll
  | cancelGroup (group : UInt32)
  | cancelGroupsOf (groups : List UInt32)
  | delayAll (duration : Int)
  | delayGroup (group : UInt32) (duration : Int)
  | setGroup (group : UInt32)
  | clearGroup
  | async (task : K)
  | rescheduleAll (duration : Int)
  | rescheduleGroup (group : UInt32) (duration : Int)

/-- The calls that do not look at the clock of the scheduler. -/
def ContextCall.Relative : ContextCall K → Prop
  | .async _ | .rescheduleAll _ | .rescheduleGroup .. => False
  | _ => True

inductive SchedulerFault where
  /-- "Bad task logic, task context was consumed already!" -/
  | consumed
  | unfinished

structure TaskContext where
  task : TaskId
  consumed : Bool := false

abbrev Handlers (K H : Type*) := K → H → UInt32 → Option UInt32 → H × List (ContextCall K)

namespace TaskScheduler

variable (s : TaskScheduler K H)

/-- `Compare`. -/
def key (id : TaskId) : Int := (s.tasks id).taskEnd

def modifyTask (id : TaskId) (f : Task K → Task K) : TaskScheduler K H :=
  { s with tasks := Function.update s.tasks id (f (s.tasks id)) }

def insertTask (id : TaskId) : TaskScheduler K H :=
  { s with taskHolder := StableQueue.push s.key id s.taskHolder }

def scheduleAt (taskEnd time : Int) (group : Option UInt32) (task : K) : TaskScheduler K H :=
  insertTask
    { s with
      tasks := Function.update s.tasks s.nextTask ⟨taskEnd + time, time, group, 0, task⟩
      nextTask := s.nextTask + 1 }
    s.nextTask

def removeIf (filter : Task K → Bool) : TaskScheduler K H :=
  { s with taskHolder := s.taskHolder.filter fun id => !filter (s.tasks id) }

/-- One turn of `ModifyIf`: the tasks that `modify` changes go into the cache. -/
def modifyTurn (modify : Task K → Option (Task K))
    (turn : (TaskId → Task K) × List TaskId × List TaskId) (id : TaskId) :
    (TaskId → Task K) × List TaskId × List TaskId :=
  match modify (turn.1 id) with
  | some task =>
    let tasks := Function.update turn.1 id task
    (tasks, StableQueue.push (fun id => (tasks id).taskEnd) id turn.2.1, turn.2.2)
  | none => (turn.1, turn.2.1, turn.2.2 ++ [id])

def modifyIf (modify : Task K → Option (Task K)) : TaskScheduler K H :=
  let (tasks, cache, container) := s.taskHolder.foldl (modifyTurn modify) (s.tasks, [], [])
  { s with
    tasks
    taskHolder := StableQueue.merge (fun id => (tasks id).taskEnd) cache container }

def cancelAll : TaskScheduler K H := { s with taskHolder := [] }

def cancelGroup (group : UInt32) : TaskScheduler K H :=
  s.removeIf (·.isInGroup group)

def cancelGroupsOf (groups : List UInt32) : TaskScheduler K H :=
  s.removeIf fun task => groups.any (task.isInGroup ·)

def delayAll (duration : Int) : TaskScheduler K H :=
  s.modifyIf fun task => some { task with taskEnd := task.taskEnd + duration }

def delayGroup (group : UInt32) (duration : Int) : TaskScheduler K H :=
  s.modifyIf fun task =>
    if task.isInGroup group then some { task with taskEnd := task.taskEnd + duration } else none

def rescheduleAll (duration : Int) : TaskScheduler K H :=
  s.modifyIf fun task => some { task with taskEnd := s.now + duration }

def rescheduleGroup (group : UInt32) (duration : Int) : TaskScheduler K H :=
  s.modifyIf fun task =>
    if task.isInGroup group then some { task with taskEnd := s.now + duration } else none

/-- `Async`, which schedules one tick of the clock after the scheduler's now. -/
def async (task : K) : TaskScheduler K H := s.scheduleAt s.now 1 none task

def repeatTask (context : TaskContext) (duration : Int) :
    Except SchedulerFault (TaskScheduler K H × TaskContext) :=
  if context.consumed then .error .consumed
  else
    let s := s.modifyTask context.task fun task =>
      { task with
        duration
        taskEnd := task.taskEnd + duration
        repeated := task.repeated + 1 }
    .ok (s.insertTask context.task, { context with consumed := true })

def call (state : TaskScheduler K H × TaskContext) :
    ContextCall K → Except SchedulerFault (TaskScheduler K H × TaskContext)
  | .repeatAfter duration => state.1.repeatTask state.2 duration
  | .repeatAgain => state.1.repeatTask state.2 (state.1.tasks state.2.task).duration
  | .schedule time group task =>
    .ok (state.1.scheduleAt (state.1.tasks state.2.task).taskEnd time group task, state.2)
  | .cancelAll => .ok (state.1.cancelAll, state.2)
  | .cancelGroup group => .ok (state.1.cancelGroup group, state.2)
  | .cancelGroupsOf groups => .ok (state.1.cancelGroupsOf groups, state.2)
  | .delayAll duration => .ok (state.1.delayAll duration, state.2)
  | .delayGroup group duration => .ok (state.1.delayGroup group duration, state.2)
  | .setGroup group =>
    .ok (state.1.modifyTask state.2.task fun task => { task with group := some group }, state.2)
  | .clearGroup =>
    .ok (state.1.modifyTask state.2.task fun task => { task with group := none }, state.2)
  | .async task => .ok (state.1.async task, state.2)
  | .rescheduleAll duration => .ok (state.1.rescheduleAll duration, state.2)
  | .rescheduleGroup group duration => .ok (state.1.rescheduleGroup group duration, state.2)

/-- `TaskContext::Invoke`. -/
def invoke (handlers : Handlers K H) (s : TaskScheduler K H) (id : TaskId) :
    Except SchedulerFault (TaskScheduler K H) := do
  let task := s.tasks id
  let (outside, calls) := handlers task.task s.outside task.repeated task.group
  let s := { s with outside, invoked := s.invoked ++ [(task.task, task.repeated)] }
  let (s, _) ← calls.foldlM call (s, { task := id })
  .ok s

/-- The loop of `Dispatch`, for at most as many rounds as there is fuel. -/
def dispatchTasks (handlers : Handlers K H) (predicate : H → Bool) :
    Nat → TaskScheduler K H → Except SchedulerFault (TaskScheduler K H)
  | 0, _ => .error .unfinished
  | fuel + 1, s =>
    match s.taskHolder with
    | [] => .ok s
    | first :: rest =>
      if s.now < (s.tasks first).taskEnd then .ok s
      else do
        let s ← invoke handlers { s with taskHolder := rest } first
        if !predicate s.outside then .ok s else dispatchTasks handlers predicate fuel s

def dispatch (handlers : Handlers K H) (predicate : H → Bool) (fuel : Nat)
    (s : TaskScheduler K H) : Except SchedulerFault (TaskScheduler K H) :=
  if !predicate s.outside then .ok s else dispatchTasks handlers predicate fuel s

def update (handlers : Handlers K H) (predicate : H → Bool) (fuel : Nat)
    (s : TaskScheduler K H) (difftime : Int) : Except SchedulerFault (TaskScheduler K H) :=
  dispatch handlers predicate fuel { s with now := s.now + difftime }

end TaskScheduler
end LegionServer.Source.Common
