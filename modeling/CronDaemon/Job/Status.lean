/-!
# States of a task

The last known state of a task, what caused a run of it, how a run came out, and how healthy the
task is by its latest failures in a row.
-/

namespace CronDaemon.Job

/-- The last known state of a task. -/
inductive TaskStatus where
  /-- Not run since it was registered. -/
  | pending
  | running
  | complete
  | failed
  /-- Its missed run was passed over at a start. -/
  | skipped
  deriving DecidableEq, Repr, Inhabited

namespace TaskStatus

/-- All states. -/
def all : List TaskStatus := [pending, running, complete, failed, skipped]

/-- The name of a state. -/
def name : TaskStatus → String
  | pending => "pending"
  | running => "running"
  | complete => "complete"
  | failed => "failed"
  | skipped => "skipped"

/-- The state of a name. -/
def ofName? (name : String) : Option TaskStatus := all.find? fun status => status.name == name

theorem ofName?_name (status : TaskStatus) : ofName? status.name = some status := by
  cases status <;> decide

end TaskStatus

/-- What caused a run, or an attempt in it. -/
inductive Trigger where
  | schedule
  | catchUp
  | manual
  /-- An earlier attempt of the same run failed. -/
  | retry
  deriving DecidableEq, Repr, Inhabited

namespace Trigger

/-- All causes. -/
def all : List Trigger := [schedule, catchUp, manual, retry]

/-- The name of a cause. -/
def name : Trigger → String
  | schedule => "schedule"
  | catchUp => "catch_up"
  | manual => "manual"
  | retry => "retry"

/-- The cause of a name. -/
def ofName? (name : String) : Option Trigger := all.find? fun trigger => trigger.name == name

theorem ofName?_name (trigger : Trigger) : ofName? trigger.name = some trigger := by
  cases trigger <;> decide

end Trigger

/-- How asking for a run came out. -/
inductive RunOutcome where
  | completed
  | failed (message : String)
  /-- The task was running already; nothing was executed. -/
  | alreadyRunning
  deriving DecidableEq, Repr, Inhabited

/-- How healthy a task is. -/
inductive Health where
  | healthy
  | degraded
  | unhealthy
  deriving DecidableEq, Repr, Inhabited

namespace Health

/-- All grades, from best to worst. -/
def all : List Health := [healthy, degraded, unhealthy]

/-- The name of a grade. -/
def name : Health → String
  | healthy => "healthy"
  | degraded => "degraded"
  | unhealthy => "unhealthy"

/-- The grade of a name. -/
def ofName? (name : String) : Option Health := all.find? fun health => health.name == name

/-- The health of a task by its latest failures in a row: three make it unhealthy. -/
def ofFailures : Nat → Health
  | 0 => healthy
  | 1 | 2 => degraded
  | _ => unhealthy

/-- Go through the grades of tasks, keeping the worst so far and stopping at the worst of all. -/
def worstFrom (worst : Health) : List Health → Health
  | [] => worst
  | unhealthy :: _ => unhealthy
  | degraded :: rest => worstFrom degraded rest
  | healthy :: rest => worstFrom worst rest

/-- The worst grade of any task; healthy when there is none. -/
def overall (tasks : List Health) : Health := worstFrom healthy tasks

end Health

end CronDaemon.Job
