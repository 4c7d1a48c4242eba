import CronDaemon.Scheduler.Registry

/-!
# The course of a run

A run first passes the guard, which refuses it when its task is running already. It then takes part
in the current lifetime and, if there is a worker pool, gets a permit in the order of arrival. With
the permit its time starts to count. If a permit is at hand, all of this and the first call of the
handler happen in one poll, since the run does not wait in between. Its attempts follow each other
until one does not call for another; then the result is recorded, and the permit given back. A run
that is cancelled while it waits for a permit is recorded without an attempt. A run whose deadline
lies past the end of the steady clock, or whose result cannot be recorded, breaks off.
-/

namespace CronDaemon.Scheduler

open Job

/-- The result of an attempt. A handler that reports its cancellation at or after the deadline has
run out of time. -/
def Ending.result (ending : Ending) (limit : Duration) (late : Bool) : Except JobError Unit :=
  match ending with
  | .completed _ => .ok ()
  | .failed .cancelled => .error (if late then .timedOut limit else .cancelled)
  | .failed e => .error e
  | .panicked payload => .error (.panicked (payload.getD "unknown panic"))

/-- How long to wait after an attempt before the next one, if there is to be one. -/
def retryDelay? (retry : Option RetryPolicy) (attempt : Nat) (e : JobError) : Option Duration :=
  match retry with
  | some policy => if e.isRetryable && attempt < policy.maxRetries then some policy.delay else none
  | none => none

/-- The outcome that is told for a recorded result. -/
def outcomeOf : Except JobError Unit → RunOutcome
  | .ok () => .completed
  | .error e => .failed e.message

/-- The token of a run that passed the guard. -/
def Phase.token? : Phase → Option Token
  | .spawned | .stranded => none
  | .queued token | .executing token .. | .resting token .. => some token

/-- Whether a run in this phase holds a permit of the pool. -/
def Phase.holdsPermit : Phase → Bool
  | .executing .. | .resting .. => true
  | .spawned | .queued _ | .stranded => false

/-- Tell an outcome to the call that waits for a run. -/
def Call.deliver (call : Call) (run : Nat) (outcome : RunOutcome) : Call :=
  match call with
  | .triggering parts => .triggering (parts.map fun part =>
      match part with
      | .run id => if id = run then .settled (.ok outcome) else .run id
      | .settled result => .settled result)
  | call => call

/-- Free the lock. -/
def Lock.release (lock : Lock) : Lock := { lock with holder := none }

/-- Wake a stop that waits for dispatched runs. -/
def Call.wake : Call → Call
  | .draining limit _ => .draining limit true
  | call => call

namespace State

variable {H : Type}

/-- Put a call into another phase. -/
def setCall (s : State H) (id : Nat) (call : Call) : State H :=
  { s with calls := s.calls.insert id call }

/-- Let a call return. -/
def reply (s : State H) (id : Nat) (reply : Reply) : State H := s.setCall id (.returned reply)

/-- Spawn a run on a record. -/
def spawn (s : State H) (record : Nat) (trigger : Trigger) (owner : Owner) : State H :=
  { s with
    runs := s.runs.insert s.nextId ⟨record, trigger, owner, .spawned⟩
    nextId := s.nextId + 1 }

/-- Wake the waiting stops, if one is waiting and no dispatched run is left. -/
def wakeStops (s : State H) : State H :=
  if s.closed && s.dispatched.isEmpty then
    { s with calls := ⟨s.calls.entries.map fun e => (e.1, e.2.wake), by
        rw [List.map_map]; exact s.calls.nodup⟩ }
  else s

/-- Give a permit back to the pool. -/
def releasePermit (s : State H) : State H :=
  { s with pool := s.pool.map fun pool => { pool with free := pool.free + 1 } }

/-- Drop a run that has an outcome. -/
def finish (s : State H) (id : Nat) (run : Run) (outcome : RunOutcome) : State H :=
  let s := { s with runs := s.runs.erase id }
  match run.owner with
  | .dispatched => s.wakeStops
  | .call call => { s with calls := s.calls.modify call fun c => c.deliver id outcome }

/-- Put a run into another phase. -/
def setPhase (s : State H) (id : Nat) (phase : Phase) : State H :=
  { s with runs := s.runs.modify id fun run => { run with phase := phase } }

/-- Take a run out of those that wait for a permit. -/
def dequeue (s : State H) (id : Nat) : State H :=
  { s with pool := s.pool.map fun pool => { pool with waiting := pool.waiting.erase id } }

/-- Leave a run that nobody drives any more. If it has passed the guard, its task stays running. -/
def abandon (s : State H) (id : Nat) : State H :=
  match s.runs.get? id with
  | none => s
  | some run =>
    match run.phase with
    | .spawned => { s with runs := s.runs.erase id }
    | .queued _ => (s.dequeue id).setPhase id .stranded
    | .executing .. | .resting .. => s.releasePermit.setPhase id .stranded
    | .stranded => s

/-- Break off a call: it leaves its runs and frees the lock if it holds it. -/
def breakCall (s : State H) (call : Nat) (fault : Fault) : State H :=
  let s := s.runs.entries.foldl (fun s e =>
    if e.2.owner = .call call then s.abandon e.1 else s) s
  let s := if s.lock.holder = some call then { s with lock := s.lock.release } else s
  s.reply call (.refused (.broken fault))

/-- Break off a run, and the call that waits for it. -/
def breakRun (s : State H) (id : Nat) (run : Run) (fault : Fault) : State H :=
  match run.owner with
  | .dispatched => (s.abandon id).wakeStops
  | .call call => s.breakCall call fault

/-- Put down a result on the record of a run, give back the permit of the run and drop it. -/
def putDown (s : State H) (id : Nat) (run : Run) (result : Except JobError Unit) (now : Instant)
    (record : Record H) : State H :=
  let s := { s with records := s.records.insert run.record record }
  let s := s.note (.recorded id run.record result now)
  let s := if run.phase.holdsPermit then s.releasePermit else s
  s.finish id run (outcomeOf result)

/-- End a run with a result. It is put down if the clock can be read and the next run be
computed. -/
def conclude (s : State H) (id : Nat) (run : Run) (result : Except JobError Unit) : State H :=
  match s.records.get? run.record, s.reading with
  | none, _ => s
  | some _, .error fault => s.breakRun id run fault
  | some record, .ok now =>
    match record.recorded s.options.zone now result with
    | .error fault => s.breakRun id run fault
    | .ok record => s.putDown id run result now record

/-- Call the handler of a run. Attempts after the first one are retries. -/
def attempt (s : State H) (id : Nat) (run : Run) (token : Token) (deadline : Moment)
    (number : Nat) : State H :=
  let s := { s with
    records := s.records.modify run.record fun record => { record with calls := record.calls + 1 } }
  let s := s.setPhase id (.executing token deadline number)
  s.note (.began id run.record number (if number = 0 then run.trigger else .retry) s.clock)

/-- Take a permit from the pool. -/
def takePermit (s : State H) : State H :=
  { s with pool := s.pool.map fun pool => { pool with free := pool.free - 1 } }

/-- Give a run a permit, start its time and call its handler. A deadline that cannot be reached
makes it break off. -/
def launch (s : State H) (id : Nat) (run : Run) (token : Token) : State H :=
  match momentAfter? s.clock s.options.taskTimeout with
  | some deadline => s.takePermit.attempt id run token deadline 0
  | none => (s.setPhase id (.queued token)).breakRun id run .unreachableDeadline

/-- Whether the pool has a permit that no waiting run has a claim to. -/
def hasSparePermit (s : State H) : Bool :=
  match s.pool with
  | none => true
  | some pool => pool.waiting.length < pool.free

/-- Put a run at the end of those that wait for a permit. -/
def enqueue (s : State H) (id : Nat) : State H :=
  { s with pool := s.pool.map fun pool => { pool with waiting := pool.waiting ++ [id] } }

/-- Whether a waiting run is among the first for whom there are permits. -/
def mayAcquire (s : State H) (id : Nat) : Bool :=
  match s.pool with
  | none => true
  | some pool => (pool.waiting.take pool.free).contains id

/-- Let a run pass the guard: its task is running from now on, and the run belongs to the current
lifetime. It executes at once if there is a permit for it. -/
def accept (s : State H) (id : Nat) (run : Run) : State H :=
  let token : Token := ⟨s.lifetime, false⟩
  let s := { s with
    records := s.records.modify run.record fun record => { record with status := .running } }
  let s := s.note (.admitted id run.record run.trigger s.clock s.now)
  if s.hasSparePermit then s.launch id run token
  else (s.setPhase id (.queued token)).enqueue id

/-- Look at a spawned run for the first time. -/
def begin (s : State H) (id : Nat) (run : Run) : State H :=
  match s.records.get? run.record with
  | none => s
  | some record =>
    if record.status = .running then
      (s.note (.refused id run.record)).finish id run .alreadyRunning
    else s.accept id run

/-- End the attempt of an executing run. -/
def endAttempt (s : State H) (id : Nat) (run : Run) (token : Token) (deadline : Moment)
    (number : Nat) (ending : Ending) : State H :=
  let result := ending.result s.options.taskTimeout (deadline ≤ s.clock)
  let retry := (s.records.get? run.record).bind (·.retry)
  let s := s.note (.ended id run.record number ending s.clock)
  match result with
  | .ok () => s.conclude id run (.ok ())
  | .error e =>
    match retryDelay? retry number e with
    | some delay => s.setPhase id (.resting token deadline number (waitUntil s.clock delay) e)
    | none => s.conclude id run (.error e)

end State

end CronDaemon.Scheduler
