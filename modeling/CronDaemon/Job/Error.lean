import CronDaemon.Calendar.Duration
import CronDaemon.Cron.Error

/-!
# Failures of runs and refusals of the scheduler

A run ends with an error that is recorded on its task; the scheduler refuses an operation with an
error of its own. Both keep their causes, and `message` gives the sentence for people. An operation
that breaks off is refused with its fault.
-/

namespace CronDaemon.Job

/-- Why a run failed. -/
inductive JobError where
  /-- The handler reports a failure, and whether another attempt may help. -/
  | failed (message : String) (retryable : Bool)
  | cancelled
  /-- The run was cancelled at its deadline, after the time allowed. -/
  | timedOut (limit : Duration)
  | panicked (message : String)
  deriving DecidableEq, Repr, Inhabited

namespace JobError

/-- The name of the kind of failure. -/
def kind : JobError → String
  | failed .. => "Failed"
  | cancelled => "Cancelled"
  | timedOut _ => "TimedOut"
  | panicked _ => "Panicked"

/-- The sentence for a failure. -/
def message : JobError → String
  | failed message _ => s!"Job failed: {message}"
  | cancelled => "Job cancelled"
  | timedOut limit => s!"Job exceeded its {limit.render} deadline"
  | panicked message => s!"Job panicked: {message}"

/-- Whether another attempt may help. -/
def isRetryable : JobError → Bool
  | failed _ retryable => retryable
  | _ => false

end JobError

/-- Why the scheduler refuses an operation. -/
inductive SchedulerError where
  | missingId
  | missingHandler (id : String)
  | invalidSchedule (id : String) (cause : Cron.CronError)
  | notFound (id : String)
  | alreadyRunning
  /-- There is nothing on which a run could be executed. -/
  | noRuntime
  /-- The operation breaks off. -/
  | broken (fault : Fault)
  deriving DecidableEq, Repr

namespace SchedulerError

/-- The name of the kind of refusal. -/
def kind : SchedulerError → String
  | missingId => "MissingId"
  | missingHandler _ => "MissingHandler"
  | invalidSchedule .. => "InvalidSchedule"
  | notFound _ => "NotFound"
  | alreadyRunning => "AlreadyRunning"
  | noRuntime => "NoRuntime"
  | broken _ => "Broken"

/-- The sentence for a refusal. -/
def message : SchedulerError → String
  | missingId => "Task id must not be empty"
  | missingHandler id => s!"Task {id} has no handler"
  | invalidSchedule id cause => s!"Task {id} has an invalid schedule: {cause.message}"
  | notFound id => s!"Task not found: {id}"
  | alreadyRunning => "Scheduler is already running"
  | noRuntime => "No tokio runtime available to run the task"
  | broken fault => fault.message

/-- The fault behind a refusal. -/
def fault? : SchedulerError → Option Fault
  | invalidSchedule _ cause => cause.fault?
  | broken fault => some fault
  | _ => none

/-- The structured form of a refusal. -/
def inspect (e : SchedulerError) : String :=
  match e with
  | missingHandler id => Text.record e.kind [("task_id", Text.quoted id)]
  | invalidSchedule id cause =>
    Text.record e.kind [("task_id", Text.quoted id), ("source", cause.inspect)]
  | notFound id => e.kind ++ "(" ++ Text.quoted id ++ ")"
  | _ => e.kind

end SchedulerError

end CronDaemon.Job
