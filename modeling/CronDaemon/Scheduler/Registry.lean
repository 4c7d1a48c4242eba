import CronDaemon.Scheduler.State

/-!
# The registry of tasks

Registering puts a fresh record under an id and replaces what stood there; removing takes an id out.
Neither touches runs in progress, which go on with the record on which they were started. A refused
operation changes nothing.
-/

namespace CronDaemon.Scheduler

open Job

/-- A view of the whole scheduler. -/
structure Status where
  running : Bool
  timezone : String
  health : Health
  tasks : List Snapshot
  deriving DecidableEq, Repr, Inhabited

namespace State

variable {H : Type}

/-- Register a task. -/
def register (s : State H) (spec : TaskSpec H) : Except SchedulerError (State H) :=
  match Record.ofSpec s.options.zone s.reading spec with
  | .error e => .error e
  | .ok record =>
    .ok ({ s with
      records := s.records.insert s.nextId record
      registry := s.registry.insert spec.id s.nextId
      nextId := s.nextId + 1 }.note (.registered s.nextId s.now))

/-- Remove a task. -/
def remove (s : State H) (id : String) : Except SchedulerError (State H) :=
  match s.registry.get? id with
  | none => .error (.notFound id)
  | some _ => .ok { s with registry := s.registry.erase id }

/-- Let a task be triggered automatically or not. -/
def setEnabled (s : State H) (id : String) (enabled : Bool) : Except SchedulerError (State H) :=
  match s.registry.get? id with
  | none => .error (.notFound id)
  | some number =>
    .ok { s with records := s.records.modify number fun record =>
      { record with enabled := enabled } }

/-- A view of a task. -/
def get? (s : State H) (id : String) : Option Snapshot := (s.task? id).map fun e => e.2.snapshot

/-- The views of all tasks. -/
def list (s : State H) : List Snapshot := s.tasks.map fun e => e.2.snapshot

/-- The ids of all tasks. -/
def taskIds (s : State H) : List String := s.registry.keys

/-- A view of the whole scheduler. -/
def status (s : State H) : Status where
  running := s.running
  timezone := s.options.zone.name
  health := Health.overall (s.list.map (·.health))
  tasks := s.list

end State

end CronDaemon.Scheduler
