import CronDaemon.Scheduler.Registry

/-!
# Summaries of a scheduler's status

A summary counts the tasks by what became of them and names those that keep failing.
-/

namespace CronDaemon.Daemon

open Job Scheduler

/-- A summary of all tasks. -/
structure Summary where
  total : Nat
  enabled : Nat
  running : Nat
  failed : Nat
  skipped : Nat
  health : Health
  /-- The ids of the unhealthy tasks, in order. -/
  unhealthy : List String
  deriving DecidableEq, Repr, Inhabited

namespace Summary

/-- The number of tasks in a state. -/
def count (status : TaskStatus) (tasks : List Snapshot) : Nat :=
  tasks.countP fun task => task.status = status

/-- The ids of the unhealthy tasks, in order. -/
def unhealthyIds (tasks : List Snapshot) : List String :=
  ((tasks.filter fun task => task.health = .unhealthy).map (·.id)).mergeSort (· ≤ ·)

/-- The summary of a status. -/
def ofStatus (status : Status) : Summary where
  total := status.tasks.length
  enabled := status.tasks.countP (·.enabled)
  running := count .running status.tasks
  failed := count .failed status.tasks
  skipped := count .skipped status.tasks
  health := status.health
  unhealthy := unhealthyIds status.tasks

/-- The summary in a line. -/
def message (summary : Summary) : String :=
  s!"{summary.total} tasks, {summary.failed} failed, {summary.unhealthy.length} unhealthy"

end Summary

end CronDaemon.Daemon
