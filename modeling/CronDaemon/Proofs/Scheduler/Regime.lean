import CronDaemon.Proofs.Scheduler.Course

/-!
# Lifetimes and reports

The regime of a state is made up of the current lifetime and the ended ones, the stored loop handle,
the two flags, whether there is a worker pool, and what the journal reports of records and of runs
behind the guard: that a record was made or its next run computed anew, that a handler was called or
returned, and that a result was recorded. Only a stop that takes the loop handle ends a lifetime,
and it ends the current one; so the current lifetime is never ended, and the ended ones are those
before it. Each report is made by the one event that it tells of.
-/

namespace CronDaemon.Scheduler

open Job

/-- Whether an entry reports of a record, or of a run behind the guard: a call of its handler, a
return of it, or a result. -/
def Entry.isReport : Entry → Bool
  | .registered .. | .refreshed .. | .began .. | .ended .. | .recorded .. => true
  | .ticked .. | .admitted .. | .refused .. => false

/-- Whether the handler of a run in this phase executes. -/
def Phase.isExecuting : Phase → Bool
  | .executing .. => true
  | .spawned | .queued _ | .resting .. | .stranded => false

/-- The lifetimes, the loop handle, the flags, the kind of pool and the reports of a state. -/
structure Regime where
  lifetime : Nat
  ended : List Nat
  handle : Option Nat
  running : Bool
  closed : Bool
  /-- Whether there is a worker pool. -/
  pooled : Bool
  /-- What was reported of records and of runs behind the guard, the latest first. -/
  reports : List Entry

/-- The regime of a state. -/
def State.regime {H : Type} (s : State H) : Regime :=
  ⟨s.lifetime, s.ended, s.handle, s.running, s.closed, s.pool.isSome,
    s.journal.filter Entry.isReport⟩

/-- Normalizing options leaves the time allowed to a run. -/
theorem Options.normalized_taskTimeout (options : Options) :
    options.normalized.taskTimeout = options.taskTimeout := by
  unfold Options.normalized
  split <;> rfl

/-- Normalizing options leaves the zone. -/
theorem Options.normalized_zone (options : Options) : options.normalized.zone = options.zone := by
  unfold Options.normalized
  split <;> rfl

/-- No event changes the options. -/
theorem Frame.Change.options_eq {H : Type} {f f' : Frame H} {event : Event H}
    (h : f.Change event f') : f'.options = f.options := by
  cases h <;> rfl

namespace State

variable {H : Type} {s s' : State H} {id : Nat} {run : Run} {event : Event H}

/-- The reports are the entries of the journal that report. -/
theorem mem_reports_iff {entry : Entry} (h : entry.isReport = true) :
    entry ∈ s.regime.reports ↔ entry ∈ s.journal := by
  simp only [regime, List.mem_filter, h, and_true]

/-- A call that enters another phase is no part of the regime. -/
@[simp] theorem regime_setCall (s : State H) (id : Nat) (call : Call) :
    (s.setCall id call).regime = s.regime := rfl

@[simp] theorem regime_reply (s : State H) (id : Nat) (reply : Reply) :
    (s.reply id reply).regime = s.regime := rfl

/-- The phases of runs are no part of the regime. -/
@[simp] theorem regime_setPhase (s : State H) (id : Nat) (phase : Phase) :
    (s.setPhase id phase).regime = s.regime := rfl

/-- Of the pool the regime tells only whether there is one. -/
@[simp] theorem regime_dequeue (s : State H) (id : Nat) : (s.dequeue id).regime = s.regime := by
  simp [regime, dequeue]

@[simp] theorem regime_enqueue (s : State H) (id : Nat) : (s.enqueue id).regime = s.regime := by
  simp [regime, enqueue]

@[simp] theorem regime_takePermit (s : State H) : s.takePermit.regime = s.regime := by
  simp [regime, takePermit]

@[simp] theorem regime_releasePermit (s : State H) : s.releasePermit.regime = s.regime := by
  simp [regime, releasePermit]

/-- An entry that reports nothing leaves the regime. -/
@[simp] theorem regime_note (s : State H) {entry : Entry} (h : entry.isReport = false) :
    (s.note entry).regime = s.regime := by
  simp [regime, note, h]

/-- An entry that reports is added to the reports. -/
theorem regime_note_of_isReport (s : State H) (entry : Entry) (h : entry.isReport = true) :
    (s.note entry).regime = { s.regime with reports := entry :: s.regime.reports } := by
  simp [regime, note, h]

/-- To wake the waiting stops leaves the regime. -/
@[simp] theorem regime_wakeStops (s : State H) : s.wakeStops.regime = s.regime := by
  unfold wakeStops
  split <;> rfl

/-- To drop a run that has an outcome leaves the regime. -/
@[simp] theorem regime_finish (s : State H) (id : Nat) (run : Run) (outcome : RunOutcome) :
    (s.finish id run outcome).regime = s.regime := by
  unfold finish
  cases run.owner with
  | dispatched => exact regime_wakeStops _
  | call call => rfl

/-- To leave a run leaves the regime. -/
@[simp] theorem regime_abandon (s : State H) (id : Nat) : (s.abandon id).regime = s.regime := by
  unfold abandon
  cases s.runs.get? id with
  | none => rfl
  | some run =>
    obtain ⟨record, trigger, owner, phase⟩ := run
    cases phase with
    | spawned | stranded => rfl
    | queued => exact regime_dequeue s id
    | executing | resting => exact regime_releasePermit s

/-- To leave all runs of a call leaves the regime. -/
@[simp] theorem regime_abandonAll (call : Nat) (entries : List (Nat × Run)) (s : State H) :
    (s.abandonAll call entries).regime = s.regime := by
  unfold abandonAll
  induction entries generalizing s with
  | nil => rfl
  | cons e entries ih =>
    rw [List.foldl_cons]
    split
    · exact (ih _).trans (regime_abandon s e.1)
    · exact ih s

/-- A call that breaks off leaves the regime. -/
@[simp] theorem regime_breakCall (s : State H) (call : Nat) (fault : Fault) :
    (s.breakCall call fault).regime = s.regime := by
  rw [← regime_abandonAll call s.runs.entries s, breakCall_eq]
  obtain ⟨_, _, he⟩ := abandonAll_eq call s.runs.entries s
  rw [he]
  rfl

/-- A caller that hangs up leaves the regime. -/
@[simp] theorem regime_hangUp (s : State H) (call : Nat) : (s.hangUp call).regime = s.regime :=
  regime_breakCall { s with lock := { s.lock with waiting := s.lock.waiting.erase call } } call
    .hungUp

/-- A run that breaks off leaves the regime. -/
@[simp] theorem regime_breakRun (s : State H) (id : Nat) (run : Run) (fault : Fault) :
    (s.breakRun id run fault).regime = s.regime := by
  unfold breakRun
  cases run.owner with
  | dispatched => simp
  | call call => exact regime_breakCall s call fault

/-- A run that ends with a result is reported as recorded and dropped, or breaks off without a
report. -/
theorem regime_conclude (s : State H) (id : Nat) (run : Run) (result : Except JobError Unit) :
    (s.conclude id run result).regime = s.regime ∨ ∃ now, s.reading = .ok now ∧
      (s.conclude id run result).runs = s.runs.erase id ∧
      (s.conclude id run result).regime =
        { s.regime with reports := .recorded id run.record result now :: s.regime.reports } := by
  rcases s.conclude_cases id run result with
    ⟨-, he⟩ | ⟨fault, -, he⟩ | ⟨_, now, after, -, hreading, -, he⟩
  · exact .inl (congrArg regime he)
  · rw [he]
    exact .inl (regime_breakRun s id run fault)
  · have hnoted := regime_note_of_isReport { s with records := s.records.insert run.record after }
      (.recorded id run.record result now) rfl
    rw [he]
    refine .inr ⟨now, hreading, congrArg Ledger.runs (ledger_putDown s id run result now after), ?_⟩
    simp only [putDown, regime_finish]
    split
    · exact (regime_releasePermit _).trans hnoted
    · exact hnoted

/-- A call of a handler is reported, and nothing else changes. -/
theorem regime_attempt (s : State H) (id : Nat) (run : Run) (token : Token) (deadline : Moment)
    (number : Nat) :
    ∃ trigger, (s.attempt id run token deadline number).regime = { s.regime with
      reports := .began id run.record number trigger s.clock :: s.regime.reports } :=
  ⟨_, regime_note_of_isReport _ _ rfl⟩

/-- A run that is launched is reported to call its handler, or breaks off without a report. -/
theorem regime_launch (s : State H) (hrun : s.runs.get? id = some run) (token : Token) :
    (s.launch id run token).regime = s.regime ∨ ∃ deadline trigger,
      (s.launch id run token).runs.get? id = some
        { run with phase := .executing token deadline 0 } ∧
      (s.launch id run token).regime = { s.regime with
        reports := .began id run.record 0 trigger s.clock :: s.regime.reports } := by
  unfold launch
  split
  · next deadline _ =>
    obtain ⟨trigger, h⟩ := regime_attempt s.takePermit id run token deadline 0
    rw [regime_takePermit] at h
    exact .inr ⟨deadline, trigger, get?_runs_setPhase (s := s.takePermit) hrun _ rfl, h⟩
  · exact .inl (by simp)

/-- An attempt that ends is reported, and the result if it is put down. -/
theorem regime_endAttempt (s : State H) (id : Nat) (run : Run) (token : Token) (deadline : Moment)
    (number : Nat) (ending : Ending) :
    (s.endAttempt id run token deadline number ending).regime = { s.regime with
        reports := .ended id run.record number ending s.clock :: s.regime.reports } ∨
      ∃ now, s.reading = .ok now ∧
        (s.endAttempt id run token deadline number ending).runs = s.runs.erase id ∧
        (s.endAttempt id run token deadline number ending).regime = { s.regime with
          reports := .recorded id run.record
            (ending.result s.options.taskTimeout (deadline ≤ s.clock)) now ::
            .ended id run.record number ending s.clock :: s.regime.reports } := by
  have hnoted := regime_note_of_isReport s (.ended id run.record number ending s.clock) rfl
  have hconclude := regime_conclude (s.note (.ended id run.record number ending s.clock)) id run
    (ending.result s.options.taskTimeout (deadline ≤ s.clock))
  rw [hnoted] at hconclude
  simp only [endAttempt]
  split
  · next hresult => exact hresult ▸ hconclude
  · next e hresult =>
    split
    · exact .inl hnoted
    · exact hresult ▸ hconclude

/-- To ask for tasks leaves the regime. -/
theorem regime_askFor (call : Nat) (names : List String) (s : State H) :
    (s.askFor call names).1.regime = s.regime := by
  obtain ⟨_, _, he⟩ := askFor_eq call names s
  rw [he]
  rfl

/-- A tick leaves the regime. -/
theorem regime_tick (s : State H) (id : Nat) (loop : TickLoop) :
    (s.tick id loop).regime = s.regime := by
  unfold tick
  split
  · rfl
  · next now _ =>
    obtain ⟨_, _, he⟩ := dispatchAll_eq s.due (s.note (.ticked id s.due s.clock now))
    rw [he]
    rfl

/-- The records whose next runs are computed anew are reported. Without a fault these are all of
them. -/
theorem regime_refreshEach (now : Instant) (numbers : List Nat) (s : State H) :
    ∃ refreshed : List Nat, (s.refreshEach now numbers).1.regime = { s.regime with
        reports := refreshed.map (fun number => .refreshed number now) ++ s.regime.reports } ∧
      (∀ number ∈ refreshed, number ∈ numbers) ∧
      ((s.refreshEach now numbers).2 = none →
        ∀ number ∈ numbers, s.records.contains number = true → number ∈ refreshed) := by
  induction numbers generalizing s with
  | nil => exact ⟨[], rfl, nofun, fun _ => nofun⟩
  | cons number numbers ih =>
    unfold refreshEach
    split
    · next hnone =>
      obtain ⟨refreshed, hregime, hmem, hall⟩ := ih s
      refine ⟨refreshed, hregime, fun k hk => List.mem_cons_of_mem _ (hmem k hk),
        fun hok k hk hk' => ?_⟩
      rcases List.mem_cons.1 hk with rfl | hk
      · rw [Table.contains, hnone] at hk'
        cases hk'
      · exact hall hok k hk hk'
    · next record hrecord =>
      split
      · exact ⟨[], rfl, by simp, by simp⟩
      · next after _ =>
        obtain ⟨refreshed, hregime, hmem, hall⟩ :=
          ih ({ s with records := s.records.insert number after }.note (.refreshed number now))
        refine ⟨refreshed ++ [number], ?_, fun k hk => ?_, fun hok k hk hk' => ?_⟩
        · have hnoted := regime_note_of_isReport { s with records := s.records.insert number after }
            (.refreshed number now) rfl
          rw [hregime, hnoted, List.map_append, List.append_assoc]
          rfl
        · rcases List.mem_append.1 hk with hk | hk
          · exact List.mem_cons_of_mem _ (hmem k hk)
          · exact List.mem_singleton.1 hk ▸ List.mem_cons_self
        · by_cases he : k = number
          · exact he ▸ List.mem_append_right _ List.mem_cons_self
          · refine List.mem_append_left _ (hall hok k ((List.mem_cons.1 hk).resolve_left he) ?_)
            rwa [note, Table.contains, Table.get?_insert, if_neg fun h => he h.symm]

/-- The catch-up pass leaves the regime. -/
theorem regime_catchUp (s : State H) (call : Nat) : (s.catchUp call).regime = s.regime := by
  obtain ⟨_, _, _, he⟩ := s.catchUp_eq call
  rw [he]
  rfl

/-- The start is the next to get the lock, and finds no loop handle. -/
def TakesLock (s : State H) (call : Nat) : Prop :=
  s.calls.get? call = some .starting ∧ s.lock.isNext call = true ∧ s.handle = none

/-- A start that finds no loop handle computes the next runs of registered records anew, and goes on
to its catch-up runs only when it has come to the end of them. -/
theorem regime_enterStart (s : State H) (call : Nat) :
    ∃ refreshed : List Nat, (s.enterStart call).regime = { s.regime with
        reports := refreshed.map (fun number => .refreshed number s.now) ++ s.regime.reports } ∧
      (∀ number ∈ refreshed, s.handle = none ∧ s.IsRegistered number) ∧
      ((s.enterStart call).calls.get? call = some .catchingUp →
        ∀ number, s.IsRegistered number → s.records.contains number = true →
          number ∈ refreshed) := by
  simp only [enterStart]
  split
  · exact ⟨[], rfl, by simp, by simp [reply, setCall]⟩
  · next hhandle =>
    split
    · refine ⟨[], regime_breakCall { s with lock := s.lock.take call } call _, by simp, ?_⟩
      simp [calls_breakCall]
    · next now hreading =>
      have hnow : s.now = now := now_of_reading hreading
      rw [hnow]
      obtain ⟨refreshed, hregime, hmem, hall⟩ :=
        regime_refreshEach now s.registry.values { s with lock := s.lock.take call }
      have hkept : ∀ number ∈ refreshed, s.handle = none ∧ s.IsRegistered number :=
        fun number h => ⟨hhandle, isRegistered_iff_mem_values.2 (hmem number h)⟩
      split
      · next s' fault he =>
        simp only [refreshAll] at he
        rw [he] at hregime
        refine ⟨refreshed, (regime_breakCall s' call fault).trans hregime, hkept, ?_⟩
        simp [calls_breakCall]
      · next s' he =>
        simp only [refreshAll] at he
        rw [he] at hregime hall
        refine ⟨refreshed, (regime_catchUp s' call).trans hregime, hkept,
          fun _ number h hrecord => ?_⟩
        exact hall rfl number (isRegistered_iff_mem_values.1 h) hrecord

/-- The stop is the next to get the lock, and will take the loop handle. -/
def TakesHandle (s : State H) (call : Nat) : Prop :=
  s.calls.get? call = some .stopping ∧ s.lock.isNext call = true ∧ s.handle.isSome = true

/-- What one event may do to the lifetimes, the loop handle and the flags. -/
inductive Turns (s : State H) : Event H → Regime → Prop
  | keep {event : Event H} (reports : List Entry) :
      Turns s event { s.regime with reports := reports }
  /-- A start returns. -/
  | openLoop {call : Nat} (hcall : s.calls.get? call = some .catchingUp) :
      Turns s (.step (.proceed call)) { s.regime with handle := some s.nextId, running := true }
  /-- A stop takes the loop handle and ends the lifetime. -/
  | enterStop {call : Nat} (h : s.TakesHandle call) :
      Turns s (.step (.proceed call)) { s.regime with
        handle := none, lifetime := s.lifetime + 1, ended := s.lifetime :: s.ended }
  /-- The loop of a stop has exited. -/
  | drain {call loop : Nat} (hcall : s.calls.get? call = some (.leaving loop)) :
      Turns s (.step (.proceed call)) { s.regime with running := false, closed := true }
  /-- A stop returns. -/
  | endStop {call : Nat} {limit : Moment} {woken : Bool}
      (hcall : s.calls.get? call = some (.draining limit woken)) :
      Turns s (.step (.proceed call)) { s.regime with closed := false }

/-- The lifetimes, the loop handle and the flags are as they were. -/
def KeepsReign (s s' : State H) :
    Prop := ∃ reports, s'.regime = { s.regime with reports := reports }

/-- What leaves the regime leaves the lifetimes, the handle and the flags. -/
theorem KeepsReign.of_eq (h : s'.regime = s.regime) : KeepsReign s s' := ⟨s.regime.reports, h⟩

theorem KeepsReign.turns (h : KeepsReign s s') : s.Turns event s'.regime := by
  obtain ⟨reports, h⟩ := h
  rw [h]
  exact .keep reports

/-- The regime before a change is all it needs of the state before. -/
theorem KeepsReign.of_regime_eq {s'' : State H} (h : KeepsReign s' s'')
    (hregime : s'.regime = s.regime) : KeepsReign s s'' := by
  obtain ⟨reports, h⟩ := h
  exact ⟨reports, hregime ▸ h⟩

/-- A run that is launched leaves the lifetimes, the handle and the flags. -/
theorem KeepsReign.launch (hrun : s.runs.get? id = some run) (token : Token) :
    KeepsReign s (s.launch id run token) := by
  rcases regime_launch s hrun token with h | ⟨_, _, -, h⟩
  · exact .of_eq h
  · exact ⟨_, h⟩

/-- A run that ends leaves the lifetimes, the handle and the flags. -/
theorem KeepsReign.conclude (s : State H) (id : Nat) (run : Run) (result : Except JobError Unit) :
    KeepsReign s (s.conclude id run result) := by
  rcases regime_conclude s id run result with h | ⟨_, -, -, h⟩
  · exact .of_eq h
  · exact ⟨_, h⟩

/-- So does a run that is looked at for the first time. -/
theorem KeepsReign.begin (hrun : s.runs.get? id = some run) : KeepsReign s (s.begin id run) := by
  rcases begin_cases s id run with h | h | h <;> rw [h]
  · exact .of_eq rfl
  · exact .of_eq ((regime_finish _ id run _).trans (regime_note s rfl))
  · cases hspare : s.hasSparePermit with
    | true =>
      rw [accept_of_spare hspare]
      exact KeepsReign.launch (s := s.letPass id run) hrun _
    | false =>
      rw [accept_of_not_spare hspare]
      exact .of_eq (regime_enqueue _ id)

/-- Each change of a scheduler changes the lifetimes, the loop handle and the flags in one of these
ways. -/
theorem Transition.turns (h : s.Transition event s') : s.Turns event s'.regime := by
  cases h with
  | refuse | remove | setEnabled | runNow | start | stop | setClock | leave | answer | elapse
  | revokeExecuting | revokeResting => exact (KeepsReign.of_eq rfl).turns
  | register => exact KeepsReign.turns ⟨_, regime_note_of_isReport _ _ rfl⟩
  | trigger names =>
    have htrigger : KeepsReign s (s.trigger names) :=
      .of_eq (regime_askFor s.nextId names { s with nextId := s.nextId + 1 })
    exact htrigger.turns
  | begin hrun => exact (KeepsReign.begin hrun).turns
  | @cancel id run =>
    have hconclude := KeepsReign.conclude (s.dequeue id) id run (.error .cancelled)
    exact (hconclude.of_regime_eq (regime_dequeue s id)).turns
  | @acquire id run token hrun =>
    have hlaunch := KeepsReign.launch (s := s.dequeue id) hrun token
    exact (hlaunch.of_regime_eq (regime_dequeue s id)).turns
  | @endAttempt id run token deadline attempt ending =>
    rcases regime_endAttempt s id run token deadline attempt ending with h | ⟨_, -, -, h⟩
    · exact KeepsReign.turns ⟨_, h⟩
    · exact KeepsReign.turns ⟨_, h⟩
  | @retry id run token deadline _ attempt =>
    obtain ⟨_, h⟩ := regime_attempt s id run token deadline (attempt + 1)
    exact KeepsReign.turns ⟨_, h⟩
  | @giveUp id run => exact (KeepsReign.conclude s id run _).turns
  | @tick id loop => exact (KeepsReign.of_eq (regime_tick s id loop)).turns
  | @enterStart call =>
    obtain ⟨_, h, -⟩ := regime_enterStart s call
    exact KeepsReign.turns ⟨_, h⟩
  | openLoop hcall => exact .openLoop hcall
  | @enterStop call hcall hnext =>
    unfold State.enterStop
    cases hhandle : s.handle with
    | none =>
      refine (KeepsReign.of_eq ?_).turns
      simp [hhandle, regime, reply, setCall]
    | some loop =>
      have htakes : s.TakesHandle call := ⟨hcall, hnext, by rw [hhandle]; rfl⟩
      exact .enterStop htakes
  | @drain call _ hcall =>
    simp only [State.drain, regime_setCall, regime_wakeStops]
    exact .drain hcall
  | endStop hcall => exact .endStop hcall
  | hangUp => exact (KeepsReign.of_eq (regime_hangUp s _)).turns

/-- How a run ends with a result. -/
inductive Ends (s : State H) (id : Nat) : Event H → Phase → Except JobError Unit → Prop
  /-- The run is cancelled while it waits for a permit. -/
  | cancel {token : Token} (hcancelled : s.isCancelled token = true) :
      Ends s id (.step (.acquire id)) (.queued token) (.error .cancelled)
  /-- The last attempt of the run has ended. -/
  | endAttempt {token : Token} {deadline : Moment} {attempt : Nat} (ending : Ending) :
      Ends s id (.step (.endAttempt id ending)) (.executing token deadline attempt)
        (ending.result s.options.taskTimeout (deadline ≤ s.clock))
  /-- The run is cancelled while it waits for its next attempt. -/
  | giveUp {token : Token} {deadline wake : Moment} {attempt : Nat} {failure : JobError}
      (hcancelled : s.isCancelled token = true) :
      Ends s id (.step (.giveUp id)) (.resting token deadline attempt wake failure) (.error failure)

/-- How an event comes to be reported. -/
inductive Reports (s s' : State H) : Event H → Entry → Prop
  | registered {spec : TaskSpec H} (hregister : s.register spec = .ok s') :
      Reports s s' (.request (.register spec)) (.registered s.nextId s.now)
  /-- A start computes the next run of a registered record anew. -/
  | refreshed {call number : Nat} (htakes : s.TakesLock call)
      (hregistered : s.IsRegistered number) :
      Reports s s' (.step (.proceed call)) (.refreshed number s.now)
  | began {event : Event H} {id attempt : Nat} {run run' : Run} {token : Token} {deadline : Moment}
      (trigger : Trigger) (hrun : s.runs.get? id = some run) (hidle : run.phase.isExecuting = false)
      (hrun' : s'.runs.get? id = some run')
      (hphase' : run'.phase = .executing token deadline attempt) :
      Reports s s' event (.began id run.record attempt trigger s.clock)
  | ended {id attempt : Nat} {run : Run} {token : Token} {deadline : Moment} (ending : Ending)
      (hrun : s.runs.get? id = some run) (hphase : run.phase = .executing token deadline attempt) :
      Reports s s' (.step (.endAttempt id ending)) (.ended id run.record attempt ending s.clock)
  | recorded {event : Event H} {id : Nat} {run : Run} {result : Except JobError Unit}
      {now : Instant} (hrun : s.runs.get? id = some run) (hends : s.Ends id event run.phase result)
      (hreading : s.reading = .ok now) (hruns : s'.runs = s.runs.erase id) :
      Reports s s' event (.recorded id run.record result now)

/-- What the change adds to the reports is told by the event. -/
def Tells (s s' : State H) (event : Event H) : Prop :=
  ∃ new, s'.regime.reports = new ++ s.regime.reports ∧ ∀ entry ∈ new, s.Reports s' event entry

/-- What leaves the regime reports nothing. -/
theorem Tells.of_eq (h : s'.regime = s.regime) : Tells s s' event :=
  ⟨[], congrArg Regime.reports h, nofun⟩

/-- A change that adds one report tells of one thing. -/
theorem Tells.of_cons {entry : Entry}
    (h : s'.regime = { s.regime with reports := entry :: s.regime.reports })
    (hreports : s.Reports s' event entry) : Tells s s' event := by
  refine ⟨[entry], congrArg Regime.reports h, fun other hother => ?_⟩
  exact List.mem_singleton.1 hother ▸ hreports

/-- The first look at a run reports at most that its handler was called. -/
theorem tells_begin (hrun : s.runs.get? id = some run) (hphase : run.phase = .spawned) :
    Tells s (s.begin id run) (.step (.begin id)) := by
  rcases begin_cases s id run with h | h | h <;> rw [h]
  · exact .of_eq rfl
  · exact .of_eq ((regime_finish _ id run _).trans (regime_note s rfl))
  · cases hspare : s.hasSparePermit with
    | true =>
      rw [accept_of_spare hspare]
      rcases regime_launch (s.letPass id run) hrun ⟨s.lifetime, false⟩ with
        he | ⟨_, trigger, hrun', he⟩
      · exact .of_eq he
      · exact .of_cons he (.began trigger hrun (by rw [hphase]; rfl) hrun' rfl)
    | false =>
      rw [accept_of_not_spare hspare]
      exact .of_eq (regime_enqueue _ id)

/-- The end of an attempt reports that the handler returned, and the result that is put down. -/
theorem tells_endAttempt {token : Token} {deadline : Moment} {attempt : Nat} (ending : Ending)
    (hrun : s.runs.get? id = some run) (hphase : run.phase = .executing token deadline attempt) :
    Tells s (s.endAttempt id run token deadline attempt ending)
      (.step (.endAttempt id ending)) := by
  rcases regime_endAttempt s id run token deadline attempt ending with h | ⟨now, hreading, hruns, h⟩
  · exact .of_cons h (.ended ending hrun hphase)
  · have hends : s.Ends id (.step (.endAttempt id ending)) run.phase
        (ending.result s.options.taskTimeout (deadline ≤ s.clock)) := by
      rw [hphase]
      exact .endAttempt ending
    refine ⟨[_, _], congrArg Regime.reports h, fun entry hentry => ?_⟩
    rcases List.mem_cons.1 hentry with rfl | hentry
    · exact .recorded hrun hends hreading hruns
    · exact List.mem_singleton.1 hentry ▸ .ended ending hrun hphase

/-- What is reported in a change is reported by the event that it tells of. -/
theorem Transition.tells (h : s.Transition event s') : Tells s s' event := by
  cases h with
  | refuse | remove | setEnabled | runNow | start | stop | setClock | leave | answer | elapse
  | revokeExecuting | revokeResting => exact .of_eq rfl
  | openLoop | endStop => exact ⟨[], rfl, nofun⟩
  | @register spec record hrecord =>
    refine .of_cons (regime_note_of_isReport _ _ rfl) (.registered ?_)
    simp only [State.register, hrecord]
  | trigger names =>
    exact .of_eq (regime_askFor s.nextId names { s with nextId := s.nextId + 1 })
  | begin hrun hphase => exact tells_begin hrun hphase
  | @cancel id run token hrun hphase hcancelled =>
    rcases regime_conclude (s.dequeue id) id run (.error .cancelled) with
      h | ⟨now, hreading, hruns, h⟩
    · exact .of_eq (h.trans (regime_dequeue s id))
    · rw [regime_dequeue] at h
      exact .of_cons h (.recorded hrun (by rw [hphase]; exact .cancel hcancelled) hreading hruns)
  | @acquire id run token hrun hphase =>
    rcases regime_launch (s.dequeue id) hrun token with h | ⟨_, trigger, hrun', h⟩
    · exact .of_eq (h.trans (regime_dequeue s id))
    · rw [regime_dequeue] at h
      exact .of_cons h (.began trigger hrun (by rw [hphase]; rfl) hrun' rfl)
  | endAttempt ending hrun hphase => exact tells_endAttempt ending hrun hphase
  | @retry id run token deadline wake attempt failure hrun hphase =>
    obtain ⟨trigger, h⟩ := regime_attempt s id run token deadline (attempt + 1)
    exact .of_cons h (.began trigger hrun (by rw [hphase]; rfl)
      (get?_runs_setPhase (s := s) hrun (.executing token deadline (attempt + 1)) rfl) rfl)
  | @giveUp id run token deadline wake attempt failure hrun hphase hcancelled =>
    rcases regime_conclude s id run (.error failure) with h | ⟨now, hreading, hruns, h⟩
    · exact .of_eq h
    · exact .of_cons h (.recorded hrun (by rw [hphase]; exact .giveUp hcancelled) hreading hruns)
  | @tick id loop => exact .of_eq (regime_tick s id loop)
  | @enterStart call hcall hnext =>
    obtain ⟨refreshed, h, hmem, -⟩ := regime_enterStart s call
    refine ⟨_, congrArg Regime.reports h, fun entry hentry => ?_⟩
    obtain ⟨number, hnumber, rfl⟩ := List.mem_map.1 hentry
    exact .refreshed ⟨hcall, hnext, (hmem number hnumber).1⟩ (hmem number hnumber).2
  | @enterStop call =>
    refine ⟨[], ?_, nofun⟩
    simp only [State.enterStop]
    split <;> rfl
  | drain =>
    refine ⟨[], ?_, nofun⟩
    exact congrArg (fun l : Ledger H => l.journal.filter Entry.isReport) (ledger_wakeStops _)
  | hangUp => exact .of_eq (regime_hangUp s _)

/-- A report was there before the event, or is made by it. -/
theorem Transition.report_cases (h : s.Transition event s') {entry : Entry}
    (hreport : entry.isReport = true) (hmem : entry ∈ s'.journal) :
    entry ∈ s.journal ∨ s.Reports s' event entry := by
  obtain ⟨new, hnew, htold⟩ := h.tells
  rw [← mem_reports_iff hreport, hnew, List.mem_append] at hmem
  rcases hmem with hnew | hold
  · exact .inr (htold entry hnew)
  · exact .inl ((mem_reports_iff hreport).1 hold)

/-- Either the lifetime goes on, or a stop has taken the loop handle and ended it. -/
theorem Transition.lifetime_cases (h : s.Transition event s') :
    (s'.lifetime = s.lifetime ∧ s'.ended = s.ended) ∨
      ∃ call, event = .step (.proceed call) ∧ s.TakesHandle call ∧
        s'.lifetime = s.lifetime + 1 ∧ s'.ended = s.lifetime :: s.ended := by
  have hturns := h.turns
  generalize hregime : s'.regime = regime at hturns
  have hlifetime : s'.lifetime = regime.lifetime := congrArg Regime.lifetime hregime
  have hended : s'.ended = regime.ended := congrArg Regime.ended hregime
  cases hturns with
  | keep | openLoop | drain | endStop => exact .inl ⟨hlifetime, hended⟩
  | enterStop htakes => exact .inr ⟨_, rfl, htakes, hlifetime, hended⟩

/-- A scheduler has a worker pool always or never. -/
theorem Transition.isSome_pool (h : s.Transition event s') : s'.pool.isSome = s.pool.isSome := by
  have hturns := h.turns
  generalize hregime : s'.regime = regime at hturns
  have hpooled : s'.pool.isSome = regime.pooled := congrArg Regime.pooled hregime
  cases hturns <;> exact hpooled

/-- In the course of a history the options stay as they were normalized, and there is a pool exactly
if the options ask for one. -/
theorem options_of_replay? {options : Options} {now : Instant}
    {start : State H} {events : List (Event H)} (hcreate : create? options now = some start)
    (h : start.replay? events = some s) :
    s.options = options.normalized ∧ s.pool.isSome = options.maxConcurrentTasks.isSome := by
  refine history_induction (motive := fun _ s => s.options = options.normalized ∧
    s.pool.isSome = options.maxConcurrentTasks.isSome) ?_ ?_ h
  · rw [eq_initial_of_create? hcreate]
    exact ⟨rfl, by simp only [initial, Options.permits?, Option.isSome_map]⟩
  · intro _ _ _ _ _ hfire ih
    have htransition := transition_of_fire? hfire
    exact ⟨htransition.change.options_eq.trans ih.1, htransition.isSome_pool.trans ih.2⟩

/-- The ended lifetimes are those before the current one. -/
theorem Reachable.mem_ended_iff (hs : s.Reachable) {lifetime : Nat} :
    lifetime ∈ s.ended ↔ lifetime < s.lifetime := by
  refine hs.induction (motive := fun s => lifetime ∈ s.ended ↔ lifetime < s.lifetime) ?_ ?_
  · exact fun _ _ => iff_of_false List.not_mem_nil (Nat.not_lt_zero _)
  · intro s event s' ih h
    rcases h.lifetime_cases with ⟨hlifetime, hended⟩ | ⟨call, -, -, hlifetime, hended⟩
    · rw [hlifetime, hended]
      exact ih
    · rw [hlifetime, hended, List.mem_cons, ih]
      omega

/-- The current lifetime is not ended. -/
theorem Reachable.lifetime_not_ended (hs : s.Reachable) : s.ended.contains s.lifetime = false := by
  rw [List.contains_eq_mem, decide_eq_false_iff_not, hs.mem_ended_iff]
  exact Nat.lt_irrefl _

/-- A run is cancelled if it was cancelled on its own or its lifetime is over. -/
theorem Reachable.isCancelled_iff (hs : s.Reachable) {token : Token} :
    s.isCancelled token = true ↔ token.cancelled = true ∨ token.lifetime < s.lifetime := by
  rw [isCancelled, Bool.or_eq_true, List.contains_eq_mem, decide_eq_true_eq, hs.mem_ended_iff]

/-- Lifetimes only go up. -/
theorem Transition.lifetime_le (h : s.Transition event s') : s.lifetime ≤ s'.lifetime := by
  rcases h.lifetime_cases with ⟨hlifetime, -⟩ | ⟨call, -, -, hlifetime, -⟩
  · exact Nat.le_of_eq hlifetime.symm
  · exact hlifetime ▸ Nat.le_succ _

/-- In the course of a history lifetimes only go up. -/
theorem lifetime_le_of_replay? {t : State H} {events : List (Event H)}
    (h : t.replay? events = some s) : t.lifetime ≤ s.lifetime := by
  refine history_induction (motive := fun _ s => t.lifetime ≤ s.lifetime) (Nat.le_refl _) ?_ h
  intro _ _ _ _ _ hfire ih
  exact Nat.le_trans ih (transition_of_fire? hfire).lifetime_le

/-- A token that is cancelled stays cancelled. -/
theorem Reachable.isCancelled_of_replay? {t : State H} {events : List (Event H)} (ht : t.Reachable)
    (h : t.replay? events = some s) {token : Token} (hcancelled : t.isCancelled token = true) :
    s.isCancelled token = true := by
  rw [ht.isCancelled_iff] at hcancelled
  rw [(ht.replay? h).isCancelled_iff]
  exact hcancelled.imp_right fun hlt => Nat.lt_of_lt_of_le hlt (lifetime_le_of_replay? h)

/-- A lifetime is over exactly when a stop has taken the loop handle since. -/
theorem lifetime_lt_iff {t : State H} {events : List (Event H)} (h : t.replay? events = some s) :
    t.lifetime < s.lifetime ↔ ∃ call u u' after,
      t.Occurs events (.step (.proceed call)) u u' after ∧ u.TakesHandle call := by
  constructor
  · refine history_induction (motive := fun events s => t.lifetime < s.lifetime →
      ∃ call u u' after, t.Occurs events (.step (.proceed call)) u u' after ∧ u.TakesHandle call)
      (fun hlt => absurd hlt (Nat.lt_irrefl _)) ?_ h
    intro before event u u' hu hfire ih hlt
    rcases (transition_of_fire? hfire).lifetime_cases with ⟨hsame, -⟩ | ⟨call, rfl, htakes, -⟩
    · obtain ⟨call, v, v', after, hoccurs, htakes⟩ := ih (hsame ▸ hlt)
      exact ⟨call, v, v', after ++ [event], hoccurs.snoc event, htakes⟩
    · exact ⟨call, u, u', [], Occurs.last hu hfire, htakes⟩
  · rintro ⟨call, u, u', after, hoccurs, hcall, hnext, hhandle⟩
    obtain ⟨before, -, hu⟩ := hoccurs.split
    obtain ⟨loop, hloop⟩ := Option.isSome_iff_exists.1 hhandle
    have hfire : u.proceed? call = some u' := hoccurs.fires
    simp only [proceed?, hcall, hnext, if_true, Option.some.injEq] at hfire
    have hlifetime : u'.lifetime = u.lifetime + 1 := by
      rw [← hfire]
      simp only [enterStop, hloop]
      rfl
    have hbefore : t.lifetime ≤ u.lifetime := lifetime_le_of_replay? hu
    have hafter : u'.lifetime ≤ s.lifetime := lifetime_le_of_replay? (hoccurs.replay? h)
    omega

/-- A run behind the guard that is gone after a change was recorded in it. -/
theorem Transition.ends_of_gone (h : s.Transition event s') (hs : s.Reachable)
    (hrun : s.runs.get? id = some run) (hpast : run.phase ≠ .spawned)
    (hgone : s'.runs.get? id = none) :
    ∃ result now, s.Ends id event run.phase result ∧ s.reading = .ok now ∧
      .recorded id run.record result now ∈ s'.journal := by
  have hholds : s.ledger.Holds run.record id := by
    simpa [Ledger.Holds, hpast] using standing?_of_get? hrun
  have hsound' := h.moves.isSound hs.isSound
  obtain ⟨hpassed, hnot⟩ := hs.isSound.kept.outstanding_iff.2 hholds
  have hpassed' : HasPassed s'.journal run.record id := by
    obtain ⟨trigger, moment, now, hmem⟩ := hpassed
    exact ⟨trigger, moment, now, h.journal_suffix.subset hmem⟩
  -- The journal and the runs agree after the change, so a run that is gone was recorded.
  have hrecorded : IsRecorded s'.journal id := by
    refine Classical.not_not.1 fun hnone => ?_
    have hholds' : s'.ledger.Holds run.record id := hsound'.kept.outstanding_iff.1 ⟨hpassed', hnone⟩
    simp only [Ledger.Holds, Ledger.standing?, State.ledger, hgone, Option.map_none] at hholds'
    cases hholds'
  obtain ⟨record, result, finished, hmem⟩ := hrecorded
  rcases h.report_cases rfl hmem with hold | hreports
  · exact absurd ⟨record, result, finished, hold⟩ hnot
  · cases hreports with
    | recorded hrun' hends hreading =>
      rw [hrun] at hrun'
      cases hrun'
      exact ⟨result, finished, hends, hreading, hmem⟩

/-- A handler that returns is reported to return. -/
theorem Transition.ended_of_endAttempt {ending : Ending} {token : Token} {deadline : Moment}
    {attempt : Nat} (h : s.Transition (.step (.endAttempt id ending)) s')
    (hrun : s.runs.get? id = some run) (hphase : run.phase = .executing token deadline attempt) :
    .ended id run.record attempt ending s.clock ∈ s'.journal := by
  cases h with
  | endAttempt ending hrun' hphase' =>
    rw [hrun] at hrun'
    cases hrun'
    rw [hphase] at hphase'
    cases hphase'
    rw [← mem_reports_iff rfl]
    rcases regime_endAttempt s id run token deadline attempt ending with h | ⟨now, -, -, h⟩
    · rw [h]
      exact List.mem_cons_self
    · rw [h]
      exact List.mem_cons_of_mem _ List.mem_cons_self

/-- A handler that was called and has not returned executes, unless its run has broken off. -/
theorem Reachable.executing_of_began (hs : s.Reachable) {record attempt : Nat} {trigger : Trigger}
    {moment : Moment} (hbegan : .began id record attempt trigger moment ∈ s.journal)
    (hopen : ∀ ending moment, .ended id record attempt ending moment ∉ s.journal) :
    ∃ run, s.runs.get? id = some run ∧ run.record = record ∧
      ((∃ token deadline, run.phase = .executing token deadline attempt) ∨
        run.phase = .stranded) := by
  refine hs.step_induction (motive := fun s =>
    .began id record attempt trigger moment ∈ s.journal →
    (∀ ending moment, .ended id record attempt ending moment ∉ s.journal) →
    ∃ run, s.runs.get? id = some run ∧ run.record = record ∧
      ((∃ token deadline, run.phase = .executing token deadline attempt) ∨ run.phase = .stranded))
    (fun _ _ hmem => nomatch hmem) ?_ hbegan hopen
  intro s event s' hs h ih hbegan hopen
  -- Either the call was told before, and the run executes still or has broken off since, or it is
  -- what this event tells.
  rcases h.report_cases rfl hbegan with hold | hnew
  · have hjournal := h.journal_suffix.subset
    obtain ⟨run, hrun, rfl, hphase⟩ := ih hold fun ending moment hmem => hopen ending moment
      (hjournal hmem)
    have hpast : run.phase ≠ .spawned := by
      rcases hphase with ⟨token, deadline, hphase⟩ | hphase <;> rw [hphase] <;> simp
    cases hrun' : s'.runs.get? id with
    | none =>
      obtain ⟨result, now, hends, -⟩ := h.ends_of_gone hs hrun hpast hrun'
      rcases hphase with ⟨token, deadline, hphase⟩ | hphase
      · rw [hphase] at hends
        cases hends with
        | endAttempt ending => exact absurd (h.ended_of_endAttempt hrun hphase) (hopen ending _)
      · rw [hphase] at hends
        cases hends
    | some run' =>
      refine ⟨run', rfl, (h.continues hs hrun hrun').record, ?_⟩
      have hgoes := h.goes hs hrun hrun'
      generalize run'.phase = phase' at hgoes
      rcases hphase with ⟨token, deadline, hphase⟩ | hphase
      · rw [hphase] at hgoes
        cases hgoes with
        | stay => exact .inl ⟨token, deadline, rfl⟩
        | strand => exact .inr rfl
        | rest ending => exact absurd (h.ended_of_endAttempt hrun hphase) (hopen ending _)
        | revokeExecuting => exact .inl ⟨_, deadline, rfl⟩
      · rw [hphase] at hgoes
        cases hgoes <;> exact .inr rfl
  · cases hnew with
    | began trigger hrun hidle hrun' hphase' =>
      exact ⟨_, hrun', (h.continues hs hrun hrun').record, .inl ⟨_, _, hphase'⟩⟩

end State

end CronDaemon.Scheduler
