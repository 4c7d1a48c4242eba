import CronDaemon.Simulation.World

/-!
# Turns

The turn of a fiber takes steps of the scheduler until the fiber has to wait. A handler is entered
in the step in which its attempt begins, and its call is played scene by scene.
-/

namespace CronDaemon.Simulation

open Job Scheduler

namespace World

/-- Take a step of the scheduler, if it is possible. -/
def step (w : World) (step : Step) : World :=
  match w.scheduler.step? step with
  | some s => { w with scheduler := s }
  | none => w

/-- Add what a handler saw to the log. -/
def note (w : World) (task : String) (sight : Sight) : World :=
  { w with log := ⟨w.scheduler.clock, task, sight⟩ :: w.log }

/-- Number the runs seen under an id. -/
def meet (w : World) (task : String) (run : Nat) : World × Nat :=
  let seen := (w.seen.get? task).getD []
  let seen := if seen.contains run then seen else run :: seen
  ({ w with seen := w.seen.insert task seen }, seen.length - seen.idxOf run)

/-- Enter a scripted handler. -/
def enter (w : World) (id : Nat) (run : Run) (record : Record Handler) (token : Token)
    (deadline : Moment) (attempt : Nat) (behaviours : List Behaviour) : World :=
  let s := w.scheduler
  let scene := Scene.enter (behaviourAt behaviours record.calls) record.calls s.clock
  let (w, number) := w.meet record.id id
  let trigger := if attempt = 0 then run.trigger else .retry
  { w.note record.id (.start record.calls number trigger attempt (deadline - s.clock)
      (s.isCancelled token)) with scenes := w.scenes.insert id scene }

/-- Leave a scripted handler. -/
def exit (w : World) (id : Nat) (task : String) (scene : Scene) (token : Token) (deadline : Moment)
    (ending : Ending) : World :=
  let s := w.scheduler
  let w := w.note task (.finish scene.call (s.isCancelled token) (deadline ≤ s.clock))
  { w with scenes := w.scenes.erase id }.step (.endAttempt id ending)

/-- How the status report ends in the midst of a scheduler. -/
def reportEnding (s : State Handler) (token : Token) : Ending :=
  match Daemon.StatusReport.run (s.isCancelled token) (some s.status) with
  | .ok message => .completed message
  | .error e => .failed e

/-- Let the handler of an executing run go on. -/
def execute (w : World) (id : Nat) (run : Run) (record : Record Handler) (token : Token)
    (deadline : Moment) (attempt : Nat) : World :=
  match record.handler with
  | .silent => w.step (.endAttempt id (.completed ""))
  | .report => w.step (.endAttempt id (reportEnding w.scheduler token))
  | .scripted behaviours =>
    match w.scenes.get? id with
    | none => w.enter id run record token deadline attempt behaviours
    | some scene =>
      match scene.turn w.scheduler.clock (w.scheduler.isCancelled token) with
      | .blocked => w
      | .goesOn stage => { w with scenes := w.scenes.insert id { scene with stage := stage } }
      | .ends ending => w.exit id record.id scene token deadline ending

/-- Let a run go on. Where a pause has ended and the run is cancelled too, the pause wins. -/
def advanceRun (w : World) (id : Nat) (run : Run) : World :=
  match run.phase with
  | .spawned => w.step (.begin id)
  | .queued _ => w.step (.acquire id)
  | .executing token deadline attempt =>
    match w.scheduler.records.get? run.record with
    | none => w
    | some record => w.execute id run record token deadline attempt
  | .resting _ _ _ wake _ =>
    if wake ≤ w.scheduler.clock then w.step (.retry id) else w.step (.giveUp id)
  | .stranded => w

/-- The turn of a run: let it go on until it has to wait, for at most `fuel` steps. -/
def turnRun (id : Nat) : Nat → World → World
  | 0, w => w
  | fuel + 1, w =>
    match w.scheduler.runs.get? id with
    | none => w
    | some run => if w.canRun id run then turnRun id fuel (w.advanceRun id run) else w

/-- The number of turns, and of steps in a turn, that are looked at in one instant. -/
def turnLimit : Nat := 1000000

/-- The turn of a call: each of its runs has its turn, and then the call goes on. -/
def turnCall (id : Nat) : Nat → World → World
  | 0, w => w
  | fuel + 1, w =>
    let w := (runsOf w.scheduler id).foldl (fun w run => w.turnRun run turnLimit) w
    if w.scheduler.canProceed id then turnCall id fuel (w.step (.proceed id)) else w

/-- The turn of a loop: it exits when its lifetime is over, and ticks otherwise. -/
def turnLoop (w : World) (id : Nat) : World :=
  match w.scheduler.loops.get? id with
  | none => w
  | some loop =>
    if w.scheduler.ended.contains loop.lifetime then w.step (.leave id) else w.step (.tick id)

/-- The turn of a fiber. -/
def turn (w : World) : Fiber → World
  | .run id => w.turnRun id turnLimit
  | .watchdog run => w.step (.revoke run .watchdog)
  | .loop id => w.turnLoop id
  | .call id => w.turnCall id turnLimit

end World

end CronDaemon.Simulation
