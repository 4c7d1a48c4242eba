import CronDaemon.Daemon.Startup
import CronDaemon.Simulation.Handler

/-!
# Commands of a session

A command asks a simulated scheduler for something, lets time pass, or looks at the scheduler. A
demand is a command that takes time; it can be met in the background.
-/

namespace CronDaemon.Simulation

open Job Scheduler

/-- A command that takes time. -/
inductive Demand where
  | trigger (id : String)
  /-- Trigger several tasks together. -/
  | triggerAll (ids : List String)
  | start
  | stop
  deriving DecidableEq, Repr, Inhabited

/-- A look at a scheduler. -/
inductive Query where
  | task (id : String)
  | tasks
  | ids
  | isRunning
  | status
  | options
  | summary
  /-- A status report run by hand, perhaps with a cancelled token or without the scheduler. -/
  | report (cancelled dropped : Bool)
  deriving DecidableEq, Repr, Inhabited

/-- A command of a session. -/
inductive Command where
  | request (request : Request Handler)
  | look (query : Query)
  /-- Wait until a demand is met. -/
  | await (demand : Demand)
  /-- Let a demand be met in the background. -/
  | background (key : String) (demand : Demand)
  /-- Wait until a demand in the background is met. -/
  | join (key : String)
  | advance (time : Duration)

/-- The answer to a command. -/
inductive Answer where
  | done
  | refused (error : SchedulerError)
  | task (snapshot : Option Snapshot)
  | tasks (snapshots : List Snapshot)
  | ids (ids : List String)
  | flag (value : Bool)
  | status (status : Status)
  | options (options : Options)
  | summary (summary : Daemon.Summary)
  | report (result : Except JobError String)
  | outcome (result : Except SchedulerError RunOutcome)
  | outcomes (results : List (Except SchedulerError RunOutcome))
  /-- The demand was not met in time. -/
  | pending
  /-- Nothing in the background has this key. -/
  | unknownKey

/-- The request that a demand makes. -/
def Demand.request : Demand → Request Handler
  | trigger id => .trigger [id]
  | triggerAll ids => .trigger ids
  | start => .start
  | stop => .stop

/-- What a reply to a demand amounts to. -/
def Demand.answer (demand : Demand) : Reply → Answer
  | .started | .stopped => .done
  | .refused e => .refused e
  | .outcomes results =>
    match demand, results with
    | trigger _, [result] => .outcome result
    | _, results => .outcomes results

/-- The specification of a status report with nothing but its schedule. -/
def plainReport : TaskSpec Handler :=
  { TaskSpec.new Daemon.StatusReport.id Handler.report with
    schedule := some Daemon.StatusReport.schedule }

/-- Snapshots in the order of their ids. -/
def sortedTasks (tasks : List Snapshot) : List Snapshot := tasks.mergeSort fun a b => a.id ≤ b.id

/-- What a look at a scheduler shows. -/
def Query.answer (s : State Handler) : Query → Answer
  | task id => .task (s.get? id)
  | tasks => .tasks (sortedTasks s.list)
  | ids => .ids (s.taskIds.mergeSort (· ≤ ·))
  | isRunning => .flag s.running
  | status => .status { s.status with tasks := sortedTasks s.list }
  | options => .options s.options
  | summary => .summary (.ofStatus s.status)
  | report cancelled dropped =>
    .report (Daemon.StatusReport.run cancelled (if dropped then none else some s.status))

end CronDaemon.Simulation
