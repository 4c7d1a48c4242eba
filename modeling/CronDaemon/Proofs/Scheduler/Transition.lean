import CronDaemon.Scheduler.Event

/-!
# What each event does

An event that is possible has met its guards, and leaves one of a few states. The cases are told
once here, each with the guards that were met, so that what holds of all runs is shown case by case.
-/

namespace CronDaemon.Scheduler

open Job

namespace State

variable {H : Type}

/-- The state that a possible event leaves, with the guards that it met. -/
inductive Transition (s : State H) : Event H → State H → Prop
  | refuse {request : Request H} {error : SchedulerError} (h : s.serve request = .error error) :
      Transition s (.request request) s
  | register {spec : TaskSpec H} {record : Record H}
      (h : Record.ofSpec s.options.zone s.reading spec = .ok record) :
      Transition s (.request (.register spec)) ({ s with
        records := s.records.insert s.nextId record
        registry := s.registry.insert spec.id s.nextId
        nextId := s.nextId + 1 }.note (.registered s.nextId s.now))
  | remove {name : String} {number : Nat} (h : s.registry.get? name = some number) :
      Transition s (.request (.remove name)) { s with registry := s.registry.erase name }
  | setEnabled {name : String} {number : Nat} (enabled : Bool)
      (h : s.registry.get? name = some number) :
      Transition s (.request (.setEnabled name enabled)) { s with
        records := s.records.modify number fun record => { record with enabled := enabled } }
  | runNow {name : String} {number : Nat} {record : Record H}
      (h : s.task? name = some (number, record)) :
      Transition s (.request (.runNow true name)) (s.spawn number .manual .dispatched)
  | trigger (names : List String) : Transition s (.request (.trigger names)) (s.trigger names)
  | start : Transition s (.request .start) s.start
  | stop : Transition s (.request .stop) s.stop
  | setClock (now : Instant) :
      Transition s (.request (.setClock now)) { s with epoch := .ofNanos (now.folded - s.clock) }
  | begin {id : Nat} {run : Run} (hrun : s.runs.get? id = some run)
      (hphase : run.phase = .spawned) : Transition s (.step (.begin id)) (s.begin id run)
  /-- A run that waits for a permit finds that it is cancelled. -/
  | cancel {id : Nat} {run : Run} {token : Token} (hrun : s.runs.get? id = some run)
      (hphase : run.phase = .queued token) (hcancelled : s.isCancelled token = true) :
      Transition s (.step (.acquire id)) ((s.dequeue id).conclude id run (.error .cancelled))
  /-- A run that waits for a permit gets one. -/
  | acquire {id : Nat} {run : Run} {token : Token} (hrun : s.runs.get? id = some run)
      (hphase : run.phase = .queued token) (hlive : s.isCancelled token = false)
      (hfirst : s.mayAcquire id = true) :
      Transition s (.step (.acquire id)) ((s.dequeue id).launch id run token)
  | endAttempt {id : Nat} {run : Run} {token : Token} {deadline : Moment} {attempt : Nat}
      (ending : Ending) (hrun : s.runs.get? id = some run)
      (hphase : run.phase = .executing token deadline attempt) :
      Transition s (.step (.endAttempt id ending))
        (s.endAttempt id run token deadline attempt ending)
  | retry {id : Nat} {run : Run} {token : Token} {deadline wake : Moment} {attempt : Nat}
      {failure : JobError} (hrun : s.runs.get? id = some run)
      (hphase : run.phase = .resting token deadline attempt wake failure) (hwake : wake ≤ s.clock) :
      Transition s (.step (.retry id)) (s.attempt id run token deadline (attempt + 1))
  | giveUp {id : Nat} {run : Run} {token : Token} {deadline wake : Moment} {attempt : Nat}
      {failure : JobError} (hrun : s.runs.get? id = some run)
      (hphase : run.phase = .resting token deadline attempt wake failure)
      (hcancelled : s.isCancelled token = true) :
      Transition s (.step (.giveUp id)) (s.conclude id run (.error failure))
  | revokeExecuting {id : Nat} {run : Run} {token : Token} {deadline : Moment} {attempt : Nat}
      {canceller : Canceller} (hrun : s.runs.get? id = some run)
      (hphase : run.phase = .executing token deadline attempt)
      (hmay : canceller.mayCancel deadline s.clock = true) (hlive : token.cancelled = false) :
      Transition s (.step (.revoke id canceller))
        (s.setPhase id (.executing { token with cancelled := true } deadline attempt))
  | revokeResting {id : Nat} {run : Run} {token : Token} {deadline wake : Moment} {attempt : Nat}
      {failure : JobError} {canceller : Canceller} (hrun : s.runs.get? id = some run)
      (hphase : run.phase = .resting token deadline attempt wake failure)
      (hmay : canceller.mayCancel deadline s.clock = true) (hlive : token.cancelled = false) :
      Transition s (.step (.revoke id canceller))
        (s.setPhase id (.resting { token with cancelled := true } deadline attempt wake failure))
  | tick {id : Nat} {loop : TickLoop} (hloop : s.loops.get? id = some loop)
      (hdue : loop.nextTick.all (· ≤ s.clock) = true) :
      Transition s (.step (.tick id)) (s.tick id loop)
  | leave {id : Nat} {loop : TickLoop} (hloop : s.loops.get? id = some loop)
      (hended : s.ended.contains loop.lifetime = true) :
      Transition s (.step (.leave id)) (s.leave id)
  /-- A trigger whose runs all have an outcome returns. -/
  | answer {call : Nat} {parts : List Part} {results : List (Except SchedulerError RunOutcome)}
      (hcall : s.calls.get? call = some (.triggering parts)) (h : outcomes? parts = some results) :
      Transition s (.step (.proceed call)) (s.reply call (.outcomes results))
  | enterStart {call : Nat} (hcall : s.calls.get? call = some .starting)
      (hnext : s.lock.isNext call = true) : Transition s (.step (.proceed call)) (s.enterStart call)
  | openLoop {call : Nat} (hcall : s.calls.get? call = some .catchingUp)
      (hidle : s.hasRunsOf call = false) : Transition s (.step (.proceed call)) (s.openLoop call)
  | enterStop {call : Nat} (hcall : s.calls.get? call = some .stopping)
      (hnext : s.lock.isNext call = true) : Transition s (.step (.proceed call)) (s.enterStop call)
  | drain {call loop : Nat} (hcall : s.calls.get? call = some (.leaving loop))
      (hexited : s.loops.contains loop = false) :
      Transition s (.step (.proceed call)) (s.drain call)
  | endStop {call : Nat} {limit : Moment} {woken : Bool}
      (hcall : s.calls.get? call = some (.draining limit woken))
      (hover : woken = true ∨ limit ≤ s.clock) :
      Transition s (.step (.proceed call)) (s.endStop call)
  | hangUp {id : Nat} {call : Call} (hcall : s.calls.get? id = some call)
      (hmay : call.mayHangUp = true) : Transition s (.hangUp id) (s.hangUp id)
  | elapse (time : Moment) : Transition s (.elapse time) (s.elapse time)

variable {s s' : State H}

theorem transition_of_serve {request : Request H} (h : s.serve request = .ok s') :
    s.Transition (.request request) s' := by
  cases request with
  | register spec =>
    simp only [serve, State.register] at h
    split at h
    · cases h
    · next record hrecord =>
      cases h
      exact .register hrecord
  | remove name =>
    simp only [serve, State.remove] at h
    split at h
    · cases h
    · next number hnumber =>
      cases h
      exact .remove hnumber
  | setEnabled name enabled =>
    simp only [serve, State.setEnabled] at h
    split at h
    · cases h
    · next number hnumber =>
      cases h
      exact .setEnabled enabled hnumber
  | runNow hasRuntime name =>
    simp only [serve, State.runNow] at h
    split at h
    · cases h
    · next number record htask =>
      cases hasRuntime
      · cases h
      · cases h
        exact .runNow htask
  | trigger names =>
    cases h
    exact .trigger names
  | start =>
    cases h
    exact .start
  | stop =>
    cases h
    exact .stop
  | setClock now =>
    cases h
    exact .setClock now

theorem transition_of_proceed? {call : Nat} (h : s.proceed? call = some s') :
    s.Transition (.step (.proceed call)) s' := by
  unfold proceed? at h
  split at h
  · next parts hcall =>
    obtain ⟨results, hresults, rfl⟩ := Option.map_eq_some_iff.1 h
    exact .answer hcall hresults
  · next hcall =>
    split at h <;> cases h
    exact .enterStart hcall ‹_›
  · next hcall =>
    split at h <;> cases h
    exact .openLoop hcall (Bool.eq_false_iff.2 ‹_›)
  · next hcall =>
    split at h <;> cases h
    exact .enterStop hcall ‹_›
  · next loop hcall =>
    split at h <;> cases h
    exact .drain hcall (Bool.eq_false_iff.2 ‹_›)
  · next limit woken hcall =>
    split at h <;> cases h
    next hover =>
    refine .endStop hcall ?_
    simpa using hover
  · cases h
  · cases h

theorem transition_of_step? {step : Step} (h : s.step? step = some s') :
    s.Transition (.step step) s' := by
  cases step with
  | begin id =>
    obtain ⟨run, hrun, h⟩ := Option.bind_eq_some_iff.1 h
    unfold begin? at h
    split at h <;> cases h
    exact .begin hrun ‹_›
  | acquire id =>
    obtain ⟨run, hrun, h⟩ := Option.bind_eq_some_iff.1 h
    unfold acquire? at h
    split at h
    · next token hphase =>
      split at h
      · next hcancelled =>
        cases h
        exact .cancel hrun hphase hcancelled
      · next hlive =>
        split at h <;> cases h
        exact .acquire hrun hphase (Bool.eq_false_iff.2 hlive) ‹_›
    · cases h
  | endAttempt id ending =>
    obtain ⟨run, hrun, h⟩ := Option.bind_eq_some_iff.1 h
    unfold endAttempt? at h
    split at h <;> cases h
    exact .endAttempt ending hrun ‹_›
  | retry id =>
    obtain ⟨run, hrun, h⟩ := Option.bind_eq_some_iff.1 h
    unfold retry? at h
    split at h
    · next hphase =>
      split at h <;> cases h
      exact .retry hrun hphase ‹_›
    · cases h
  | giveUp id =>
    obtain ⟨run, hrun, h⟩ := Option.bind_eq_some_iff.1 h
    unfold giveUp? at h
    split at h
    · next hphase =>
      split at h <;> cases h
      exact .giveUp hrun hphase ‹_›
    · cases h
  | revoke id canceller =>
    obtain ⟨run, hrun, h⟩ := Option.bind_eq_some_iff.1 h
    unfold revoke? at h
    split at h
    · next hphase =>
      split at h <;> cases h
      next hguard =>
      simp only [Bool.and_eq_true, Bool.not_eq_true'] at hguard
      exact .revokeExecuting hrun hphase hguard.1 hguard.2
    · next hphase =>
      split at h <;> cases h
      next hguard =>
      simp only [Bool.and_eq_true, Bool.not_eq_true'] at hguard
      exact .revokeResting hrun hphase hguard.1 hguard.2
    all_goals cases h
  | tick id =>
    obtain ⟨loop, hloop, h⟩ := Option.bind_eq_some_iff.1 h
    unfold tick? at h
    split at h <;> cases h
    exact .tick hloop ‹_›
  | leave id =>
    obtain ⟨loop, hloop, h⟩ := Option.bind_eq_some_iff.1 h
    unfold leave? at h
    split at h <;> cases h
    exact .leave hloop ‹_›
  | proceed call => exact transition_of_proceed? h

/-- A possible event is one of the transitions. -/
theorem transition_of_fire? {event : Event H} (h : s.fire? event = some s') :
    s.Transition event s' := by
  cases event with
  | request request =>
    simp only [fire?] at h
    split at h
    · next next hserve =>
      cases h
      exact transition_of_serve hserve
    · next error hserve =>
      cases h
      exact .refuse hserve
  | step step => exact transition_of_step? h
  | hangUp id =>
    obtain ⟨call, hcall, h⟩ := Option.bind_eq_some_iff.1 h
    split at h <;> cases h
    exact .hangUp hcall ‹_›
  | elapse time =>
    cases h
    exact .elapse time

/-- What is created is an initial state. -/
theorem eq_initial_of_create? {options : Options} {now : Instant} {start : State H}
    (h : create? options now = some start) : start = initial options now := by
  unfold create? at h
  split at h <;> cases h
  rfl

/-- A scheduler that has just been created is reachable. -/
theorem Reachable.of_create? {options : Options} {now : Instant} {start : State H}
    (hcreate : create? options now = some start) : start.Reachable :=
  ⟨options, now, start, [], hcreate, rfl⟩

theorem replay?_cons (s : State H) (event : Event H) (events : List (Event H)) :
    s.replay? (event :: events) = (s.fire? event).bind fun next => next.replay? events := rfl

/-- What holds at first and is kept by each transition holds after any list of events. -/
theorem replay?_induction {motive : State H → Prop} {start : State H} {events : List (Event H)}
    (hstart : motive start)
    (hkept : ∀ s event s', motive s → s.Transition event s' → motive s')
    (h : start.replay? events = some s) : motive s := by
  induction events generalizing start with
  | nil =>
    cases h
    exact hstart
  | cons event events ih =>
    obtain ⟨next, hnext, hrest⟩ := Option.bind_eq_some_iff.1 h
    exact ih (hkept _ _ _ hstart (transition_of_fire? hnext)) hrest

/-- What holds of every initial state and is kept by each transition holds of every reachable
state. -/
theorem Reachable.induction {motive : State H → Prop}
    (hinitial : ∀ options now, motive (initial options now))
    (hkept : ∀ s event s', motive s → s.Transition event s' → motive s') (h : s.Reachable) :
    motive s := by
  obtain ⟨options, now, start, events, hcreate, hreplay⟩ := h
  exact replay?_induction (eq_initial_of_create? hcreate ▸ hinitial options now) hkept hreplay

end State

end CronDaemon.Scheduler
