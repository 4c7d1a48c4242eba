import CronDaemon.Daemon.Startup
import CronDaemon.Simulation.Handler

/-!
# A scheduler on a simulated clock

A world is a scheduler with its handlers in the midst of their calls. Everything happens in fibers:
each dispatched run is one, each watchdog of a run, each loop, and each call together with the runs
for which it waits. A fiber that can go on is put into a queue; its turn lasts until it has to wait.
The clock stands still while a fiber is ready, and then moves to the next timer. Timers that end
together wake their fibers in the order in which they were set.
-/

namespace CronDaemon.Simulation

open Job Scheduler

/-- Something that happens in turns. -/
inductive Fiber where
  /-- A dispatched run. -/
  | run (id : Nat)
  | watchdog (run : Nat)
  | loop (id : Nat)
  /-- A call and its runs. -/
  | call (id : Nat)
  deriving DecidableEq, Repr, Inhabited

/-- What a fiber may wait for. -/
inductive Timer where
  /-- The sleep of a handler, or the pause before the next attempt. -/
  | sleep (run : Nat)
  | deadline (run : Nat)
  | tick (loop : Nat)
  /-- The end of the grace that a stop gives. -/
  | grace (call : Nat)
  deriving DecidableEq, Repr, Inhabited

/-- What a scripted handler saw. -/
inductive Sight where
  /-- It was entered; `run` numbers the runs seen under the id of the task. -/
  | start (call run : Nat) (trigger : Trigger) (attempt : Nat) (timeLeft : Moment)
      (cancelled : Bool)
  /-- It is about to return; `late` tells whether the deadline has come. -/
  | finish (call : Nat) (cancelled late : Bool)
  deriving DecidableEq, Repr, Inhabited

/-- An entry of the log. -/
structure LogEntry where
  moment : Moment
  task : String
  sight : Sight
  deriving DecidableEq, Repr, Inhabited

/-- A scheduler on a simulated clock. -/
structure World where
  scheduler : State Handler
  /-- The scripted calls in progress, by run. -/
  scenes : Table Nat Scene
  /-- The timers that are set and the moments at which they end, in the order in which they were
  set. -/
  timers : List (Timer × Moment)
  /-- The fibers that are ready, in the order in which they became so. -/
  ready : List Fiber
  /-- What scripted handlers saw, the latest first. -/
  log : List LogEntry
  /-- The runs that a scripted handler has seen under an id, the latest first. -/
  seen : Table String (List Nat)

namespace World

/-- A world in which nothing has happened yet. -/
def ofScheduler (scheduler : State Handler) : World :=
  ⟨scheduler, Table.empty, [], [], [], Table.empty⟩

/-- The fiber that drives a run. -/
def fiberOfRun (id : Nat) (run : Run) : Fiber :=
  match run.owner with
  | .dispatched => .run id
  | .call call => .call call

/-- The fibers that a scheduler has. -/
def fibersOf (s : State Handler) : List Fiber :=
  s.runs.entries.flatMap (fun e => [fiberOfRun e.1 e.2, .watchdog e.1]) ++ s.loops.keys.map .loop ++
    s.calls.keys.map .call

/-- The fiber that a timer wakes. -/
def fiberOfTimer (s : State Handler) : Timer → Fiber
  | .sleep id => ((s.runs.get? id).map (fiberOfRun id)).getD (.run id)
  | .deadline id => .watchdog id
  | .tick id => .loop id
  | .grace id => .call id

/-- The runs of a call, in the order in which they were spawned. -/
def runsOf (s : State Handler) (call : Nat) : List Nat :=
  (s.runs.entries.filter fun e => e.2.owner = .call call).map (·.1)

/-- Whether an executing run can go on. -/
def canExecute (w : World) (id : Nat) (token : Token) : Bool :=
  match w.scenes.get? id with
  | none => true
  | some scene => scene.turn w.scheduler.clock (w.scheduler.isCancelled token) ≠ .blocked

/-- Whether a run can go on. -/
def canRun (w : World) (id : Nat) (run : Run) : Bool :=
  let s := w.scheduler
  match run.phase with
  | .spawned => true
  | .queued token => s.isCancelled token || s.mayAcquire id
  | .executing token .. => w.canExecute id token
  | .resting token _ _ wake _ => s.isCancelled token || wake ≤ s.clock
  | .stranded => false

/-- Whether a watchdog has to cancel its run. -/
def isPastDeadline (s : State Handler) (run : Run) : Bool :=
  match run.phase with
  | .executing token deadline _ | .resting token deadline .. =>
    deadline ≤ s.clock && !token.cancelled
  | .spawned | .queued _ | .stranded => false

/-- Whether a fiber can go on. -/
def isReady (w : World) (fiber : Fiber) : Bool :=
  let s := w.scheduler
  match fiber with
  | .run id => (s.runs.get? id).any (w.canRun id)
  | .watchdog id => (s.runs.get? id).any (isPastDeadline s)
  | .loop id => (s.loops.get? id).any fun loop =>
      s.ended.contains loop.lifetime || loop.nextTick.all (· ≤ s.clock)
  | .call id =>
    s.canProceed id || (runsOf s id).any fun id => (s.runs.get? id).any (w.canRun id)

/-- The timers of a run: its sleep and the deadline that its watchdog waits for. -/
def timersOfRun (w : World) (id : Nat) (run : Run) : List (Timer × Moment) :=
  match run.phase with
  | .spawned | .queued _ | .stranded => []
  | .executing _ deadline _ =>
    (.deadline id, deadline) ::
      (((w.scenes.get? id).bind Scene.timer?).map fun wake => (.sleep id, wake)).toList
  | .resting _ deadline _ wake _ => [(.deadline id, deadline), (.sleep id, wake)]

/-- The timer of a call. -/
def timerOfCall (id : Nat) : Call → Option (Timer × Moment)
  | .draining limit _ => some (.grace id, limit)
  | _ => none

/-- The timers for which something waits. -/
def timersOf (w : World) : List (Timer × Moment) :=
  let s := w.scheduler
  s.runs.entries.flatMap (fun e => w.timersOfRun e.1 e.2) ++
    s.loops.entries.filterMap (fun e => e.2.nextTick.map fun next => (.tick e.1, next)) ++
    s.calls.entries.filterMap fun e => timerOfCall e.1 e.2

end World

end CronDaemon.Simulation
