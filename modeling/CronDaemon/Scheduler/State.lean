import CronDaemon.Scheduler.Record
import CronDaemon.Table

/-!
# States of a scheduler

A state holds everything between two atomic steps: the records and which of them is registered
under which id, the runs in progress and where each stands, the worker pool, the tick loops, the
calls that start and stop the scheduler or wait for runs, and a journal of what happened. Times on
the steady clock are counted in nanoseconds from its beginning; the wall clock is the steady clock
set to some instant, and can be set anew.

A run that meets a fault breaks off. With it breaks the call that waits for it; the other runs of
that call are left where they are. So are the runs of a call on which its caller hangs up.

Runs, records, loops and calls are named by numbers that are never used twice. A lifetime is the
time between two stops; a run belongs to the lifetime in which it passed the guard, and is
cancelled with it.
-/

namespace CronDaemon.Scheduler

open Job

/-- A point on the steady clock, in nanoseconds. -/
abbrev Moment := Nat

/-- The end of the steady clock. It counts seconds in 63 bits, and may have run for a day before the
first moment. -/
def clockEnd : Moment := (0x8000000000000000 - 86400) * Duration.second

/-- The moment a duration later, if the steady clock gets there. -/
def momentAfter? (moment : Moment) (d : Duration) : Option Moment :=
  if moment + d.nanos < clockEnd then some (moment + d.nanos) else none

/-- How long a wait takes that would end past the end of the clock: thirty years. -/
def longestWait : Duration := .ofSecs (30 * 365 * 86400)

/-- The moment at which a wait ends. -/
def waitUntil (moment : Moment) (d : Duration) : Moment :=
  (momentAfter? moment d).getD (moment + longestWait.nanos)

/-- The cancellation of a run: with its lifetime, or on its own. -/
structure Token where
  /-- The lifetime to which the run belongs. -/
  lifetime : Nat
  /-- Whether the run was cancelled on its own, by its watchdog or by its handler. -/
  cancelled : Bool
  deriving DecidableEq, Repr, Inhabited

/-- Where a run stands. -/
inductive Phase where
  /-- Not looked at yet; it has not passed the guard. -/
  | spawned
  /-- It passed the guard and waits for a permit. -/
  | queued (token : Token)
  /-- Its handler executes. -/
  | executing (token : Token) (deadline : Moment) (attempt : Nat)
  /-- It waits until `wake` for its next attempt, after a failure. -/
  | resting (token : Token) (deadline : Moment) (attempt : Nat) (wake : Moment) (failure : JobError)
  /-- It passed the guard and broke off: it will never be recorded, and its task stays running. -/
  | stranded
  deriving DecidableEq, Repr, Inhabited

/-- Who drives a run. -/
inductive Owner where
  /-- The run was dispatched; stops wait for it. -/
  | dispatched
  /-- A call waits for the run. -/
  | call (id : Nat)
  deriving DecidableEq, Repr, Inhabited

/-- A run in progress. -/
structure Run where
  /-- The record on which it was started. -/
  record : Nat
  trigger : Trigger
  owner : Owner
  phase : Phase
  deriving DecidableEq, Repr, Inhabited

/-- The worker pool. -/
structure Pool where
  /-- The permits that no run holds. -/
  free : Nat
  /-- The runs that wait for a permit, the longest waiting first. -/
  waiting : List Nat
  deriving DecidableEq, Repr, Inhabited

/-- A tick loop that has not exited. -/
structure TickLoop where
  /-- The lifetime with which it ends. -/
  lifetime : Nat
  /-- Its next tick; a loop that was not looked at yet has none. -/
  nextTick : Option Moment
  deriving DecidableEq, Repr, Inhabited

/-- What a call for runs has got for one id. -/
inductive Part where
  /-- The run is in progress. -/
  | run (id : Nat)
  /-- The outcome is known. -/
  | settled (result : Except SchedulerError RunOutcome)

/-- How a call came out. -/
inductive Reply where
  | started
  | stopped
  | refused (error : SchedulerError)
  | outcomes (results : List (Except SchedulerError RunOutcome))

/-- A call that takes time, and where it stands. -/
inductive Call where
  /-- Waits for its runs. -/
  | triggering (parts : List Part)
  /-- A start that waits for the lock on the loop handle. -/
  | starting
  /-- A start that holds the lock and waits for its catch-up runs. -/
  | catchingUp
  /-- A stop that waits for the lock on the loop handle. -/
  | stopping
  /-- A stop that waits for the loop to exit. -/
  | leaving (loop : Nat)
  /-- A stop that waits for dispatched runs until a moment; `woken` when they were all finished
  once. -/
  | draining (limit : Moment) (woken : Bool)
  /-- The call has returned. -/
  | returned (reply : Reply)

/-- The lock on the loop handle. -/
structure Lock where
  /-- The call that holds the lock. -/
  holder : Option Nat
  /-- The calls that wait for it, the longest waiting first. -/
  waiting : List Nat
  deriving DecidableEq, Repr, Inhabited

/-- How an attempt ended. -/
inductive Ending where
  | completed (message : String)
  | failed (error : JobError)
  /-- The handler panicked; a payload that is not a text is unknown. -/
  | panicked (payload : Option String)
  deriving DecidableEq, Repr, Inhabited

/-- One thing that happened. -/
inductive Entry where
  /-- A task was registered. -/
  | registered (record : Nat) (now : Instant)
  /-- A start computed the next run of a record anew. -/
  | refreshed (record : Nat) (now : Instant)
  /-- A loop ticked and found the given records due. -/
  | ticked (loop : Nat) (due : List Nat) (moment : Moment) (now : Instant)
  /-- A run passed the guard. -/
  | admitted (run record : Nat) (trigger : Trigger) (moment : Moment) (now : Instant)
  /-- A run found its task running already. -/
  | refused (run record : Nat)
  /-- The handler was called. -/
  | began (run record attempt : Nat) (trigger : Trigger) (moment : Moment)
  /-- The handler returned. -/
  | ended (run record attempt : Nat) (ending : Ending) (moment : Moment)
  /-- A result was recorded. -/
  | recorded (run record : Nat) (result : Except JobError Unit) (finished : Instant)

/-- A state of a scheduler. -/
structure State (H : Type) where
  options : Options
  /-- The steady clock. -/
  clock : Moment
  /-- What the wall clock showed at the beginning of the steady clock. -/
  epoch : Instant
  /-- All records, also those that are no longer registered. -/
  records : Table Nat (Record H)
  /-- The record registered under an id. -/
  registry : Table String Nat
  /-- The runs in progress. -/
  runs : Table Nat Run
  pool : Option Pool
  /-- The lifetime that is not ended. -/
  lifetime : Nat
  /-- The lifetimes that were ended. -/
  ended : List Nat
  /-- The loops that have not exited. -/
  loops : Table Nat TickLoop
  /-- The loop of a started scheduler. -/
  handle : Option Nat
  /-- Whether the scheduler says that it is running. -/
  running : Bool
  calls : Table Nat Call
  lock : Lock
  /-- Whether a stop waits for dispatched runs; the last of them then wakes the waiting stops. -/
  closed : Bool
  /-- The next unused number. -/
  nextId : Nat
  /-- What happened, the latest first. -/
  journal : List Entry

namespace State

variable {H : Type}

/-- A stopped scheduler without tasks. -/
def initial (options : Options) (now : Instant) : State H where
  options := options.normalized
  clock := 0
  epoch := .ofNanos now.folded
  records := Table.empty
  registry := Table.empty
  runs := Table.empty
  pool := options.permits?.map fun n => ⟨n, []⟩
  lifetime := 0
  ended := []
  loops := Table.empty
  handle := none
  running := false
  calls := Table.empty
  lock := ⟨none, []⟩
  closed := false
  nextId := 0
  journal := []

/-- A stopped scheduler without tasks, if one can be made with these options. -/
def create? (options : Options) (now : Instant) : Option (State H) :=
  if options.areFeasible then some (initial options now) else none

/-- What the wall clock shows. -/
def now (s : State H) : Instant := .ofNanos (s.epoch.nanos + s.clock)

/-- What is read from the wall clock. -/
def reading (s : State H) : Except Fault Instant := s.now.clockReading

/-- Whether the run of a token is cancelled. -/
def isCancelled (s : State H) (token : Token) : Bool :=
  token.cancelled || s.ended.contains token.lifetime

/-- Add an entry to the journal. -/
def note (s : State H) (entry : Entry) : State H := { s with journal := entry :: s.journal }

/-- The dispatched runs in progress. -/
def dispatched (s : State H) : List Nat :=
  (s.runs.entries.filter fun e => e.2.owner = .dispatched && e.2.phase ≠ .stranded).map (·.1)

/-- The registered record of an id. -/
def task? (s : State H) (id : String) : Option (Nat × Record H) := do
  let number ← s.registry.get? id
  return (number, ← s.records.get? number)

theorem task?_eq_some_iff {s : State H} {id : String} {number : Nat} {record : Record H} :
    s.task? id = some (number, record) ↔
      s.registry.get? id = some number ∧ s.records.get? number = some record := by
  simp only [task?, Option.bind_eq_bind, Option.bind_eq_some_iff, Option.pure_def,
    Option.some.injEq, Prod.mk.injEq]
  constructor
  · rintro ⟨number, hnumber, record, hrecord, rfl, rfl⟩
    exact ⟨hnumber, hrecord⟩
  · rintro ⟨hnumber, hrecord⟩
    exact ⟨number, hnumber, record, hrecord, rfl, rfl⟩

theorem task?_eq_none {s : State H} {id : String} (h : s.registry.get? id = none) :
    s.task? id = none := by
  simp only [task?, h, Option.bind_eq_bind, Option.bind_none]

/-- The registered records, in the order of the registry. -/
def tasks (s : State H) : List (Nat × Record H) :=
  s.registry.values.filterMap fun number => (s.records.get? number).map fun record =>
    (number, record)

end State

end CronDaemon.Scheduler
