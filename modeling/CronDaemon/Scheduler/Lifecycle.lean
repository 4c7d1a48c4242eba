import CronDaemon.Scheduler.Execution

/-!
# Triggers, ticks, starts and stops

Runs come from requests, from the ticks of a loop and from the catch-up pass of a start. A start
holds the lock on the loop handle until its catch-up runs are recorded and the loop is spawned. A
stop frees the lock as soon as it has taken the handle; it ends the current lifetime, waits for the
loop to exit, and then for dispatched runs, for at most the time of grace. Whoever waits for a
trigger or for a start may hang up on it: nobody drives the call and its runs any more.
-/

namespace CronDaemon.Scheduler

open Job

/-- The results of the parts of a call, once all of them are settled. -/
def outcomes? (parts : List Part) : Option (List (Except SchedulerError RunOutcome)) :=
  parts.mapM fun part =>
    match part with
    | .run _ => none
    | .settled result => some result

/-- Whether a call may take the lock: it is free, and no other call has waited longer. -/
def Lock.isNext (lock : Lock) (call : Nat) : Bool :=
  lock.holder.isNone && lock.waiting.head? == some call

/-- Let a call take the lock. -/
def Lock.take (lock : Lock) (call : Nat) : Lock := ⟨some call, lock.waiting.erase call⟩

/-- The tick after the one that was set for `planned` and comes at `clock`. Ticks that were missed
are passed over, and the next one falls on a whole multiple of the period again. -/
def tickAfter (period planned clock : Moment) :
    Moment := clock + period - (clock - planned) % period

/-- Whether its caller may hang up on a call. Triggers and starts are dropped with whoever waits for
them; a stop is waited for until it has returned. -/
def Call.mayHangUp : Call → Bool
  | .triggering _ | .starting | .catchingUp => true
  | .stopping | .leaving _ | .draining .. | .returned _ => false

namespace State

variable {H : Type}

/-- Open a call under the next number. -/
def openCall (s : State H) (call : Call) : State H :=
  { s with calls := s.calls.insert s.nextId call, nextId := s.nextId + 1 }

/-- Dispatch a run of a registered task on demand; that needs a runtime to execute it. -/
def runNow (s : State H) (hasRuntime : Bool) (id : String) : Except SchedulerError (State H) :=
  match s.task? id with
  | none => .error (.notFound id)
  | some (number, _) =>
    if hasRuntime then .ok (s.spawn number .manual .dispatched) else .error .noRuntime

/-- Spawn a run on demand for each id that is registered. The runs belong to a call. -/
def askFor (s : State H) (call : Nat) : List String → State H × List Part
  | [] => (s, [])
  | id :: rest =>
    match s.task? id with
    | none =>
      let (s, parts) := s.askFor call rest
      (s, .settled (.error (.notFound id)) :: parts)
    | some (number, _) =>
      let run := s.nextId
      let (s, parts) := (s.spawn number .manual (.call call)).askFor call rest
      (s, .run run :: parts)

/-- Open a call that triggers tasks and waits for their runs. -/
def trigger (s : State H) (ids : List String) : State H :=
  let call := s.nextId
  let (s, parts) := { s with nextId := s.nextId + 1 }.askFor call ids
  s.setCall call (.triggering parts)

/-- Open a start, which first waits for the lock. -/
def start (s : State H) : State H :=
  { s.openCall .starting with lock := { s.lock with waiting := s.lock.waiting ++ [s.nextId] } }

/-- Open a stop, which first waits for the lock. -/
def stop (s : State H) : State H :=
  { s.openCall .stopping with lock := { s.lock with waiting := s.lock.waiting ++ [s.nextId] } }

/-- The registered records that a tick finds due. -/
def due (s : State H) : List Nat := (s.tasks.filter fun e => e.2.isDue s.now).map (·.1)

/-- Dispatch a scheduled run on each of the given records. -/
def dispatchAll (s : State H) (records : List Nat) : State H :=
  records.foldl (fun s record => s.spawn record .schedule .dispatched) s

/-- A loop exits. -/
def leave (s : State H) (id : Nat) : State H := { s with loops := s.loops.erase id }

/-- A tick of a loop: dispatch what is due. The first tick comes when the loop is first looked at. A
loop that cannot read the clock breaks off. -/
def tick (s : State H) (id : Nat) (loop : TickLoop) : State H :=
  match s.reading with
  | .error _ => s.leave id
  | .ok now =>
    let next := tickAfter s.options.tickInterval.nanos (loop.nextTick.getD s.clock) s.clock
    let s := (s.note (.ticked id s.due s.clock now)).dispatchAll s.due
    { s with loops := s.loops.insert id { loop with nextTick := some next } }

/-- Compute the next runs of the given records anew, up to the first one that meets a fault. -/
def refreshEach (s : State H) (now : Instant) : List Nat → State H × Option Fault
  | [] => (s, none)
  | number :: rest =>
    match s.records.get? number with
    | none => s.refreshEach now rest
    | some record =>
      match record.refreshed s.options.zone now with
      | .error fault => (s, some fault)
      | .ok record =>
        let s := { s with records := s.records.insert number record }
        (s.note (.refreshed number now)).refreshEach now rest

/-- Compute the next run of every registered task anew. -/
def refreshAll (s : State H) (now : Instant) : State H × Option Fault :=
  s.refreshEach now s.registry.values

/-- What the catch-up pass does about one task: a task whose last run lies before the cutoff is run
once, or passed over if it may be skipped. -/
def catchUpTask (s : State H) (call : Nat) (cutoff : Instant) (number : Nat) (record : Record H) :
    State H :=
  if !record.isStale cutoff then s
  else if record.skippable then { s with records := s.records.modify number Record.passedOver }
  else s.spawn number .catchUp (.call call)

/-- The catch-up pass over all tasks. If the window leaves the calendar, nothing is stale. -/
def catchUp (s : State H) (call : Nat) : State H :=
  match s.now.sub? s.options.catchUpWindow with
  | none => s
  | some cutoff => s.tasks.foldl (fun s e => s.catchUpTask call cutoff e.1 e.2) s

/-- Whether runs of a call are in progress. -/
def hasRunsOf (s : State H) (call : Nat) :
    Bool := s.runs.values.any fun run => run.owner = .call call

/-- A start gets the lock: it is refused if a loop handle is stored, and otherwise keeps the lock
while its catch-up runs are in progress. It breaks off if it meets a fault. -/
def enterStart (s : State H) (call : Nat) : State H :=
  match s.handle with
  | some _ =>
    { s with lock := (s.lock.take call).release }.reply call (.refused .alreadyRunning)
  | none =>
    let s := { s with lock := s.lock.take call }
    match s.reading with
    | .error fault => s.breakCall call fault
    | .ok now =>
      match s.refreshAll now with
      | (s, some fault) => s.breakCall call fault
      | (s, none) => (s.catchUp call).setCall call .catchingUp

/-- A start spawns its loop, frees the lock and returns. -/
def openLoop (s : State H) (call : Nat) : State H :=
  { s with
    loops := s.loops.insert s.nextId ⟨s.lifetime, none⟩
    handle := some s.nextId
    running := true
    nextId := s.nextId + 1
    lock := s.lock.release }.reply call .started

/-- A stop gets the lock and frees it at once. If a loop handle is stored, the stop takes it and
ends the lifetime, and with it the loop and every run that belongs to it. -/
def enterStop (s : State H) (call : Nat) : State H :=
  let s := { s with lock := (s.lock.take call).release }
  match s.handle with
  | none => s.reply call .stopped
  | some loop =>
    { s with
      handle := none
      lifetime := s.lifetime + 1
      ended := s.lifetime :: s.ended }.setCall call (.leaving loop)

/-- The loop of a stop has exited: from now on it waits for dispatched runs. -/
def drain (s : State H) (call : Nat) : State H :=
  let s := { s with running := false, closed := true }.wakeStops
  s.setCall call (.draining (waitUntil s.clock s.options.shutdownGrace) s.dispatched.isEmpty)

/-- A stop ends its wait and returns. -/
def endStop (s : State H) (call : Nat) : State H := { s with closed := false }.reply call .stopped

/-- The caller of a call hangs up: the call waits for the lock no longer, if it did, and breaks
off. -/
def hangUp (s : State H) (call : Nat) : State H :=
  { s with lock := { s.lock with waiting := s.lock.waiting.erase call } }.breakCall call .hungUp

/-- Let a call go on, if it can. -/
def proceed? (s : State H) (id : Nat) : Option (State H) :=
  match s.calls.get? id with
  | some (.triggering parts) => (outcomes? parts).map fun results => s.reply id (.outcomes results)
  | some .starting => if s.lock.isNext id then some (s.enterStart id) else none
  | some .catchingUp => if s.hasRunsOf id then none else some (s.openLoop id)
  | some .stopping => if s.lock.isNext id then some (s.enterStop id) else none
  | some (.leaving loop) => if s.loops.contains loop then none else some (s.drain id)
  | some (.draining limit woken) => if woken || limit ≤ s.clock then some (s.endStop id) else none
  | some (.returned _) | none => none

/-- Whether a call can go on. -/
def canProceed (s : State H) (id : Nat) : Bool :=
  match s.calls.get? id with
  | some (.triggering parts) => (outcomes? parts).isSome
  | some .starting | some .stopping => s.lock.isNext id
  | some .catchingUp => !s.hasRunsOf id
  | some (.leaving loop) => !s.loops.contains loop
  | some (.draining limit woken) => woken || limit ≤ s.clock
  | some (.returned _) | none => false

theorem isSome_proceed? (s : State H) (id : Nat) : (s.proceed? id).isSome = s.canProceed id := by
  unfold proceed? canProceed
  cases s.calls.get? id with
  | none => rfl
  | some call => cases call <;> grind

end State

end CronDaemon.Scheduler
