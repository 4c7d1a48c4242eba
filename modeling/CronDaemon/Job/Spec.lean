import CronDaemon.Calendar.Timestamp
import CronDaemon.Cron.Schedule
import CronDaemon.Job.Error
import CronDaemon.Job.Status

/-!
# Task specifications

What a caller gives to have a task registered. The kind `H` of handlers is a parameter, since the
scheduler never looks into a handler.
-/

namespace CronDaemon.Job

/-- When a run with a retryable failure is attempted again. -/
structure RetryPolicy where
  /-- How many attempts may follow the first one. -/
  maxRetries : Nat
  /-- How long to wait before another attempt. -/
  delay : Duration
  deriving DecidableEq, Repr, Inhabited

/-- The structured form of a retry policy. -/
def RetryPolicy.inspect (policy : RetryPolicy) : String :=
  Text.record "RetryPolicy"
    [("max_retries", toString policy.maxRetries), ("delay", policy.delay.render)]

/-- What is needed to register a task. -/
structure TaskSpec (H : Type) where
  id : String
  name : String
  description : String
  /-- The schedule text; without one the task runs on demand only. -/
  schedule : Option String
  /-- Whether the task is triggered automatically. -/
  enabled : Bool
  /-- Whether a missed run may be passed over at a start. -/
  skippable : Bool
  retry : Option RetryPolicy
  /-- The last run that the caller knows of. -/
  lastRun : Option Instant
  handler : Option H
  deriving DecidableEq, Inhabited

namespace TaskSpec

variable {H : Type}

/-- A specification with a handler and nothing else set. -/
def new (id : String) (handler : H) : TaskSpec H where
  id := id
  name := id
  description := ""
  schedule := none
  enabled := true
  skippable := false
  retry := none
  lastRun := none
  handler := some handler

/-- The structured form of a specification, without its description. -/
def inspect (spec : TaskSpec H) : String :=
  Text.record "TaskSpec"
    [("id", Text.quoted spec.id), ("name", Text.quoted spec.name),
     ("schedule", Text.optional (spec.schedule.map Text.quoted)),
     ("enabled", toString spec.enabled), ("skippable", toString spec.skippable),
     ("retry", Text.optional (spec.retry.map RetryPolicy.inspect)),
     ("last_run", Text.optional (spec.lastRun.map Instant.render)),
     ("has_handler", toString spec.handler.isSome)]

end TaskSpec

end CronDaemon.Job
