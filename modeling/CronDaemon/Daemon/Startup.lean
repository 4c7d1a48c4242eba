import CronDaemon.Daemon.Summary
import CronDaemon.Scheduler.Event
import CronDaemon.Settings.Config

/-!
# Startup of the daemon

The resolved settings become the options of a scheduler, in which the one built-in task is
registered: the status report. Settings may override the schedule and the flags of a task. Whatever
is wrong with the zone or the schedule is found here, before the scheduler starts.
-/

namespace CronDaemon.Daemon

open Job Scheduler Settings

/-- Why the daemon does not come up. -/
inductive StartupError where
  | config (cause : ConfigError)
  | scheduler (cause : SchedulerError)
  /-- The startup breaks off. -/
  | broken (fault : Fault)
  deriving DecidableEq, Repr

/-- The fault behind an error. -/
def StartupError.fault? : StartupError → Option Fault
  | config _ => none
  | scheduler cause => cause.fault?
  | broken fault => some fault

/-- The structured form of an error. -/
def StartupError.inspect : StartupError → String
  | config cause => "Config(" ++ cause.inspect ++ ")"
  | scheduler cause => "Scheduler(" ++ cause.inspect ++ ")"
  | broken fault => fault.message

/-- The options that the settings give a scheduler. -/
def optionsOf (zones : Zone.Database) (config : SchedulerConfig) :
    Except ConfigError Options := do
  return { Options.standard with
    zone := ← config.zone zones
    catchUpWindow := .ofSecs config.catchUpWindowSecs
    taskTimeout := .ofSecs config.taskTimeoutSecs
    shutdownGrace := .ofSecs config.shutdownGraceSecs
    maxConcurrentTasks := config.maxConcurrentTasks }

/-- Let the settings override what a specification says. -/
def applyOverride {H : Type} (spec : TaskSpec H) (config : SchedulerConfig) : TaskSpec H :=
  match config.tasks.get? spec.id with
  | none => spec
  | some change => { spec with
      schedule := change.schedule.or spec.schedule
      enabled := change.enabled.getD spec.enabled
      skippable := change.skippable.getD spec.skippable }

namespace StatusReport

/-- The id of the status report. -/
def id : String := "scheduler-status-report"

/-- The schedule of the status report unless the settings give another. -/
def schedule : String := "@every 5m"

/-- The status report as it is registered at startup. -/
def spec {H : Type} (handler : H) : TaskSpec H :=
  { TaskSpec.new id handler with
    name := "Scheduler Status Report"
    description := "Log a summary of every task's run state and health"
    schedule := some schedule
    skippable := true }

/-- What the status report comes to. The status is missing if the scheduler is gone; a report that
is cancelled does not look. -/
def run (cancelled : Bool) (status : Option Status) : Except JobError String :=
  if cancelled then .error .cancelled
  else
    match status with
    | none => .error (.failed "scheduler is no longer available" false)
    | some status => .ok (Summary.ofStatus status).message

end StatusReport

/-- The scheduler of the daemon at an instant, with its built-in task. -/
def build {H : Type} (zones : Zone.Database) (report : H) (config : SchedulerConfig)
    (now : Instant) : Except StartupError (State H) := do
  let options ← (optionsOf zones config).mapError .config
  let scheduler ← (State.create? options now).elim (throw (.broken .oversizedPool)) pure
  (scheduler.register (applyOverride (StatusReport.spec report) config)).mapError .scheduler

end CronDaemon.Daemon
