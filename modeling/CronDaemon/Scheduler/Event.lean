import CronDaemon.Scheduler.Lifecycle

/-!
# Events of a scheduler

A scheduler changes in four ways: it serves a request from outside, it takes a step of its own,
somebody who waits for it hangs up, or time passes. Which of the steps that are possible comes next
is left open, so that the reachable states are those of every interleaving.

A step is one poll: what a task does from one point at which it waits to the next. Polls are taken
one after the other, as on one thread, and nothing comes in between what one of them does. The first
look at a run is a step of its own, also when the run belongs to a call that looks at it in the poll
in which it is spawned.
-/

namespace CronDaemon.Scheduler

open Job

/-- What may be asked of a scheduler. -/
inductive Request (H : Type) where
  | register (spec : TaskSpec H)
  | remove (id : String)
  | setEnabled (id : String) (enabled : Bool)
  /-- Run a task in the background. -/
  | runNow (hasRuntime : Bool) (id : String)
  /-- Run tasks and wait for them. -/
  | trigger (ids : List String)
  | start
  | stop
  /-- Set the wall clock. -/
  | setClock (now : Instant)

/-- Who cancels a single run. -/
inductive Canceller where
  /-- Its watchdog, at the deadline. -/
  | watchdog
  /-- Its handler, which is given the token of the run and may cancel it whenever it likes. -/
  | handler
  deriving DecidableEq, Repr

/-- Whether a run with a deadline may be cancelled at a moment. -/
def Canceller.mayCancel (canceller : Canceller) (deadline moment : Moment) : Bool :=
  match canceller with
  | .watchdog => deadline ≤ moment
  | .handler => true

/-- A step of the scheduler itself. -/
inductive Step where
  /-- A spawned run is looked at for the first time. -/
  | begin (run : Nat)
  /-- A waiting run gets a permit, or finds that it is cancelled. -/
  | acquire (run : Nat)
  /-- The handler of a run returns. -/
  | endAttempt (run : Nat) (ending : Ending)
  /-- A run has waited for its next attempt long enough. -/
  | retry (run : Nat)
  /-- A run that waits for its next attempt finds that it is cancelled. -/
  | giveUp (run : Nat)
  /-- A run is cancelled on its own. -/
  | revoke (run : Nat) (canceller : Canceller)
  /-- A loop ticks. -/
  | tick (loop : Nat)
  /-- A loop finds that its lifetime is over, and exits. -/
  | leave (loop : Nat)
  /-- A call goes on. -/
  | proceed (call : Nat)
  deriving DecidableEq, Repr

/-- One change of a scheduler. -/
inductive Event (H : Type) where
  | request (request : Request H)
  | step (step : Step)
  /-- The caller of a trigger or of a start drops it before it has returned. -/
  | hangUp (call : Nat)
  /-- Time passes on the steady clock. -/
  | elapse (time : Moment)

namespace State

variable {H : Type}

/-- Serve a request. A start, a stop or a trigger opens a call under the next number. -/
def serve (s : State H) : Request H → Except SchedulerError (State H)
  | .register spec => s.register spec
  | .remove id => s.remove id
  | .setEnabled id enabled => s.setEnabled id enabled
  | .runNow hasRuntime id => s.runNow hasRuntime id
  | .trigger ids => .ok (s.trigger ids)
  | .start => .ok s.start
  | .stop => .ok s.stop
  | .setClock now => .ok { s with epoch := .ofNanos (now.folded - s.clock) }

/-- Let time pass. -/
def elapse (s : State H) (time : Moment) : State H := { s with clock := s.clock + time }

/-- Look at a spawned run. -/
def begin? (s : State H) (id : Nat) (run : Run) : Option (State H) :=
  if run.phase = .spawned then some (s.begin id run) else none

/-- Look at a run that waits for a permit: its cancellation comes before a permit. -/
def acquire? (s : State H) (id : Nat) (run : Run) : Option (State H) :=
  match run.phase with
  | .queued token =>
    if s.isCancelled token then some ((s.dequeue id).conclude id run (.error .cancelled))
    else if s.mayAcquire id then some ((s.dequeue id).launch id run token)
    else none
  | _ => none

/-- End the attempt of a run. -/
def endAttempt? (s : State H) (id : Nat) (run : Run) (ending : Ending) : Option (State H) :=
  match run.phase with
  | .executing token deadline attempt => some (s.endAttempt id run token deadline attempt ending)
  | _ => none

/-- Begin the next attempt of a run, once its time has come. -/
def retry? (s : State H) (id : Nat) (run : Run) : Option (State H) :=
  match run.phase with
  | .resting token deadline attempt wake _ =>
    if wake ≤ s.clock then some (s.attempt id run token deadline (attempt + 1)) else none
  | _ => none

/-- Give up waiting for the next attempt of a cancelled run; its last failure counts. -/
def giveUp? (s : State H) (id : Nat) (run : Run) : Option (State H) :=
  match run.phase with
  | .resting token _ _ _ failure =>
    if s.isCancelled token then some (s.conclude id run (.error failure)) else none
  | _ => none

/-- Cancel a run on its own, once its handler was called: before that its time does not count, and
nobody else holds its token. -/
def revoke? (s : State H) (id : Nat) (run : Run) (canceller : Canceller) : Option (State H) :=
  match run.phase with
  | .executing token deadline attempt =>
    if canceller.mayCancel deadline s.clock && !token.cancelled then
      some (s.setPhase id (.executing { token with cancelled := true } deadline attempt))
    else none
  | .resting token deadline attempt wake failure =>
    if canceller.mayCancel deadline s.clock && !token.cancelled then
      some (s.setPhase id (.resting { token with cancelled := true } deadline attempt wake failure))
    else none
  | .spawned | .queued _ | .stranded => none

/-- Let a loop tick, once its time has come. -/
def tick? (s : State H) (id : Nat) (loop : TickLoop) : Option (State H) :=
  if loop.nextTick.all (· ≤ s.clock) then some (s.tick id loop) else none

/-- Let a loop exit, if its lifetime is over. -/
def leave? (s : State H) (id : Nat) (loop : TickLoop) : Option (State H) :=
  if s.ended.contains loop.lifetime then some (s.leave id) else none

/-- Take a step, if it is possible. -/
def step? (s : State H) : Step → Option (State H)
  | .begin id => (s.runs.get? id).bind (s.begin? id)
  | .acquire id => (s.runs.get? id).bind (s.acquire? id)
  | .endAttempt id ending => (s.runs.get? id).bind fun run => s.endAttempt? id run ending
  | .retry id => (s.runs.get? id).bind (s.retry? id)
  | .giveUp id => (s.runs.get? id).bind (s.giveUp? id)
  | .revoke id canceller => (s.runs.get? id).bind fun run => s.revoke? id run canceller
  | .tick id => (s.loops.get? id).bind (s.tick? id)
  | .leave id => (s.loops.get? id).bind (s.leave? id)
  | .proceed id => s.proceed? id

/-- Let the caller of a call hang up, if it may. -/
def hangUp? (s : State H) (id : Nat) : Option (State H) :=
  (s.calls.get? id).bind fun call => if call.mayHangUp then some (s.hangUp id) else none

/-- One change, if it is possible. A refused request changes nothing. -/
def fire? (s : State H) : Event H → Option (State H)
  | .request request =>
    match s.serve request with
    | .ok next => some next
    | .error _ => some s
  | .step step => s.step? step
  | .hangUp call => s.hangUp? call
  | .elapse time => some (s.elapse time)

/-- The state after a list of events, if each of them is possible when it comes. -/
def replay? (s : State H) (events : List (Event H)) : Option (State H) := events.foldlM fire? s

/-- A state that a scheduler can get into. -/
def Reachable (s : State H) : Prop :=
  ∃ options now start events, create? options now = some start ∧ start.replay? events = some s

end State

end CronDaemon.Scheduler
