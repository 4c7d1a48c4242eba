import CronDaemon.Daemon.Summary
import CronDaemon.Proofs.Scheduler.Grades
import CronDaemon.Proofs.Scheduler.Tally
import CronDaemon.Proofs.Scheduler.TaskMap
import CronDaemon.Proofs.Text.ByteOrder
import Mathlib.Data.List.Sort

/-!
# What a summary tells

The tasks of a scheduler are listed in the order of its registry, which may be any. The status and
the summary of it tell the same in every order: how bad it is with the worst task, and which tasks
failed in their latest three runs, sorted by the bytes of their ids.
-/

namespace CronDaemon

namespace Scheduler.State

open Job

variable {H : Type} {s : State H} {number : Nat} {record : Record H} {tasks : List Snapshot}
  {task : Snapshot}

/-- How many of the latest runs that were recorded on a record failed in a row. -/
def failuresInRow (s : State H) (number : Nat) : Nat :=
  trailingFailures (recordedOn s.journal number)

end Scheduler.State

namespace Daemon.Summary

open Job Scheduler

variable {tasks tasks' : List Snapshot} {id : String}

/-- What a summary tells of a scheduler: the worst health of any task, the ids of the tasks whose
counters show three failures in a row at least, in the order of their bytes, and counts of the
tasks. Below 2^32 failures in a row these are the tasks that failed in their latest three runs. -/
structure Reports {H : Type} (summary : Summary) (s : State H) : Prop where
  isWorst : summary.health.IsWorst (s.list.map (·.health))
  ascending : summary.unhealthy.Pairwise fun a b => Text.bytes a < Text.bytes b
  mem_unhealthy_iff : ∀ id, id ∈ summary.unhealthy ↔
    ∃ number, s.registry.get? id = some number ∧ 3 ≤ s.failuresInRow number % UInt32.size
  mem_unhealthy_iff_of_lt : ∀ id number, s.registry.get? id = some number →
    s.failuresInRow number < UInt32.size → (id ∈ summary.unhealthy ↔ 3 ≤ s.failuresInRow number)
  health_iff : summary.health = .unhealthy ↔ summary.unhealthy ≠ []
  total_eq : summary.total = s.taskIds.length
  states_le : summary.running + summary.failed + summary.skipped ≤ summary.total
  enabled_le : summary.enabled ≤ summary.total

variable {H : Type} {s : State H}

end Daemon.Summary

end CronDaemon
