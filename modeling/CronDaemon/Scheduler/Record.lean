import CronDaemon.Cron.Search
import CronDaemon.Job.Spec
import CronDaemon.Scheduler.Options

/-!
# Records of registered tasks

A registration makes a record, which keeps what the task is and how its runs came out. A record
stays with the runs that were started on it, also when the task is removed or registered anew.
-/

namespace CronDaemon.Scheduler

open Job

/-- What the scheduler keeps about one registration of a task. -/
structure Record (H : Type) where
  id : String
  name : String
  description : String
  /-- The schedule text, if the task is scheduled. -/
  expression : Option String
  schedule : Option Cron.Schedule
  skippable : Bool
  retry : Option RetryPolicy
  handler : H
  enabled : Bool
  status : TaskStatus
  lastRun : Option Instant
  nextRun : Option Instant
  lastError : Option String
  /-- How many runs were recorded. -/
  runCount : Nat
  /-- How many of them failed. -/
  failureCount : Nat
  /-- How many of the latest failed in a row. The counter has 32 bits, and starts again from zero
  after the last of their values. -/
  consecutiveFailures : UInt32
  /-- How often the handler was called. -/
  calls : Nat

/-- A view of a task at one moment. -/
structure Snapshot where
  id : String
  name : String
  description : String
  schedule : Option String
  enabled : Bool
  skippable : Bool
  status : TaskStatus
  lastRun : Option Instant
  nextRun : Option Instant
  lastError : Option String
  runCount : Nat
  failureCount : Nat
  consecutiveFailures : UInt32
  health : Health
  deriving DecidableEq, Repr, Inhabited

/-- The next run of a task after what the clock reads. A task without a schedule has none, and does
not look at the clock. -/
def nextRun (zone : Zone) (schedule : Option Cron.Schedule) (clock : Except Fault Instant) :
    Except Fault (Option Instant) :=
  match schedule with
  | none => .ok none
  | some schedule => do schedule.nextAfter zone (← clock)

/-- The schedule text of a specification that counts: a blank one does not. -/
def expression? {H : Type} (spec : TaskSpec H) : Option String :=
  spec.schedule.filter fun text => !Text.isBlankText text

namespace Record

variable {H : Type}

/-- A fresh record of a task: no run yet, and the first one due by the schedule after what the clock
reads. A task without an id is refused first, then one without a handler, then one with a bad
schedule; last, the first run may not be computed. -/
def ofSpec (zone : Zone) (clock : Except Fault Instant) (spec : TaskSpec H) :
    Except SchedulerError (Record H) :=
  if Text.isBlankText spec.id then .error .missingId
  else
    match spec.handler with
    | none => .error (.missingHandler spec.id)
    | some handler =>
      match (expression? spec).mapM Cron.Schedule.parse with
      | .error cause => .error (.invalidSchedule spec.id cause)
      | .ok schedule =>
        match Scheduler.nextRun zone schedule clock with
        | .error fault => .error (.broken fault)
        | .ok next => .ok {
            id := spec.id
            name := spec.name
            description := spec.description
            expression := expression? spec
            schedule := schedule
            skippable := spec.skippable
            retry := spec.retry
            handler := handler
            enabled := spec.enabled
            status := .pending
            lastRun := spec.lastRun
            nextRun := next
            lastError := none
            runCount := 0
            failureCount := 0
            consecutiveFailures := 0
            calls := 0 }

/-- Whether the task is to be run by a tick: enabled, and its next run is past. -/
def isDue (record : Record H) (now : Instant) : Bool :=
  record.enabled && record.nextRun.any fun next => next < now

/-- The record after a run of it, with its result, the instant at which the run ended and the next
run. -/
def finished (record : Record H) (result : Except JobError Unit) (now : Instant)
    (next : Option Instant) : Record H :=
  let record := { record with
    lastRun := some now
    nextRun := next
    runCount := record.runCount + 1 }
  match result with
  | .ok () => { record with status := .complete, lastError := none, consecutiveFailures := 0 }
  | .error e => { record with
      status := .failed
      lastError := some e.message
      failureCount := record.failureCount + 1
      consecutiveFailures := record.consecutiveFailures + 1 }

/-- The record after a run of it that ended at an instant, if the next run can be computed. -/
def recorded (record : Record H) (zone : Zone) (now : Instant) (result : Except JobError Unit) :
    Except Fault (Record H) :=
  (Scheduler.nextRun zone record.schedule (.ok now)).map (record.finished result now)

/-- The record with its next run computed anew, if it can be; a task without a schedule is left as
it is. -/
def refreshed (record : Record H) (zone : Zone) (now : Instant) : Except Fault (Record H) :=
  match record.schedule with
  | none => .ok record
  | some _ => (Scheduler.nextRun zone record.schedule (.ok now)).map fun next =>
      { record with nextRun := next }

/-- Whether the last run of an enabled task lies before the cutoff. -/
def isStale (record : Record H) (cutoff : Instant) : Bool :=
  record.enabled && record.lastRun.any fun last => last < cutoff

/-- The record after the catch-up pass has passed over a missed run of a task that is not
running. -/
def passedOver (record : Record H) : Record H :=
  if record.status = .running then record else { record with status := .skipped }

/-- The health of a task. -/
def health (record : Record H) : Health := .ofFailures record.consecutiveFailures.toNat

/-- A view of a record. -/
def snapshot (record : Record H) : Snapshot where
  id := record.id
  name := record.name
  description := record.description
  schedule := record.expression
  enabled := record.enabled
  skippable := record.skippable
  status := record.status
  lastRun := record.lastRun
  nextRun := record.nextRun
  lastError := record.lastError
  runCount := record.runCount
  failureCount := record.failureCount
  consecutiveFailures := record.consecutiveFailures
  health := record.health

end Record

end CronDaemon.Scheduler
