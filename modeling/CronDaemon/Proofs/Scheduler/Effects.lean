import CronDaemon.Proofs.Scheduler.StopOverlap
import CronDaemon.Proofs.Scheduler.Cancellation

/-!
# What the steps of a run come to

Without a worker pool, and as long as nothing makes a run break off, a step of a run reads nothing
but the record of its task and what all tasks share: the options, the clocks and the lifetimes. What
it does about the task is its effect: a new record, entries in the journal, and another phase of the
run or its outcome. Beyond that, an outcome is told to whoever waits for the run.
-/

namespace CronDaemon

namespace Table

variable {κ α : Type} [DecidableEq κ] {t : Table κ α} {k : κ} {v : α}

/-- A key that is there keeps its place when its value is replaced. -/
theorem keys_insert_of_get? (h : t.get? k = some v) (w : α) : (t.insert k w).keys = t.keys := by
  rw [keys, insert, map_fst_put]
  exact if_pos (mem_keys_iff.2 ⟨v, h⟩)

@[simp] theorem keys_modify (t : Table κ α) (k : κ) (f : α → α) : (t.modify k f).keys = t.keys := by
  rw [keys, modify, List.map_map]
  refine List.map_congr_left fun e _ => ?_
  simp only [Function.comp]
  split <;> rfl

/-- To change the value of a key is to give it the changed one. -/
theorem modify_eq_insert (h : t.get? k = some v) (f : α → α) : t.modify k f = t.insert k (f v) := by
  refine ext_get? (by rw [keys_modify, keys_insert_of_get? h]) fun k' => ?_
  rw [get?_modify, get?_insert]
  split
  · next he => rw [← he, h, Option.map_some]
  · rfl

/-- To put in what is there changes nothing. -/
theorem insert_of_get? (h : t.get? k = some v) : t.insert k v = t := by
  refine ext_get? (keys_insert_of_get? h v) fun k' => ?_
  rw [get?_insert]
  split
  · next he => rw [← he, h]
  · rfl

end Table

namespace Scheduler

open Job

/-- A step of a run, apart from which run it is. -/
inductive RunStep where
  | begin
  | acquire
  | endAttempt (ending : Ending)
  | retry
  | giveUp
  | revoke (canceller : Canceller)
  deriving DecidableEq, Repr

/-- The step of a run with a number. -/
def RunStep.on (run : Nat) : RunStep → Step
  | begin => .begin run
  | acquire => .acquire run
  | endAttempt ending => .endAttempt run ending
  | retry => .retry run
  | giveUp => .giveUp run
  | revoke canceller => .revoke run canceller

/-- A call of a handler: which attempt of its run it began, what caused it and when it came. -/
structure Attempt where
  number : Nat
  trigger : Trigger
  moment : Moment
  deriving DecidableEq, Repr, Inhabited

/-- The call of a handler that an entry tells of, with the record of its task. -/
def Entry.attempt? : Entry → Option (Nat × Attempt)
  | .began _ record number trigger moment => some (record, ⟨number, trigger, moment⟩)
  | .registered .. | .refreshed .. | .ticked .. | .admitted .. | .refused .. | .ended ..
  | .recorded .. =>
    none

/-- What a step of a run does about its task. -/
structure Effect (H : Type) where
  /-- The record of the task afterwards. -/
  record : Record H
  /-- The new entries, by the number of the run and that of its record, the latest first. -/
  entries : Nat → Nat → List Entry
  /-- The calls of the handler that the entries tell of. -/
  attempts : List Attempt
  tells : ∀ id number, (entries id number).filterMap Entry.attempt? = attempts.map (Prod.mk number)
  /-- The phase in which the run goes on, or the outcome with which it is over. -/
  fate : Except RunOutcome Phase
  lives : fate ≠ .ok .stranded

namespace Effect

variable {H : Type}

/-- The run is put into another phase. -/
def advance (record : Record H) (phase : Phase) (h : phase ≠ .stranded) : Effect H where
  record := record
  entries _ _ := []
  attempts := []
  tells _ _ := rfl
  fate := .ok phase
  lives he := h (Except.ok.inj he)

/-- The run meets a running task. -/
def refuse (record : Record H) : Effect H where
  record := record
  entries id number := [.refused id number]
  attempts := []
  tells _ _ := rfl
  fate := .error .alreadyRunning
  lives := by simp

end Effect

namespace State

variable {H : Type} {s s' : State H} {record : Record H} {id : Nat} {run : Run}

/-- The run passes the guard and its handler is called. -/
def admission (s : State H) (record : Record H) (trigger : Trigger) (deadline : Moment) :
    Effect H where
  record := { record with status := .running, calls := record.calls + 1 }
  entries id number :=
    [.began id number 0 trigger s.clock, .admitted id number trigger s.clock s.now]
  attempts := [⟨0, trigger, s.clock⟩]
  tells _ _ := rfl
  fate := .ok (.executing ⟨s.lifetime, false⟩ deadline 0)
  lives := by simp

/-- The handler is called once more. -/
def renewal (s : State H) (record : Record H) (token : Token) (deadline : Moment) (number : Nat) :
    Effect H where
  record := { record with calls := record.calls + 1 }
  entries id n := [.began id n (number + 1) .retry s.clock]
  attempts := [⟨number + 1, .retry, s.clock⟩]
  tells _ _ := rfl
  fate := .ok (.executing token deadline (number + 1))
  lives := by simp

/-- The handler returns, and the run waits for its next attempt. -/
def rest (s : State H) (record : Record H) (token : Token) (deadline : Moment) (number : Nat)
    (ending : Ending) (delay : Duration) (failure : JobError) : Effect H where
  record := record
  entries id n := [.ended id n number ending s.clock]
  attempts := []
  tells _ _ := rfl
  fate := .ok (.resting token deadline number (waitUntil s.clock delay) failure)
  lives := by simp

/-- The entry that tells how an attempt ended, if the run is not given up without one. -/
def endings (s : State H) (id number : Nat) (ended : Option (Nat × Ending)) : List Entry :=
  match ended with
  | none => []
  | some (attempt, ending) => [.ended id number attempt ending s.clock]

/-- The run is recorded. -/
def recording (s : State H) (after : Record H) (result : Except JobError Unit)
    (ended : Option (Nat × Ending)) : Effect H where
  record := after
  entries id number := .recorded id number result s.now :: s.endings id number ended
  attempts := []
  tells _ _ := by cases ended <;> rfl
  fate := .error (outcomeOf result)
  lives := by simp

/-- The run is recorded, if the next run can be computed. -/
def conclusion? (s : State H) (record : Record H) (result : Except JobError Unit)
    (ended : Option (Nat × Ending)) : Option (Effect H) :=
  match record.recorded s.options.zone s.now result with
  | .error _ => none
  | .ok after => some (s.recording after result ended)

/-- What a step of a run on a record comes to, if it is possible, where there is no worker pool and
nothing makes the run break off. -/
def effect? (s : State H) (record : Record H) (run : Run) (step : RunStep) : Option (Effect H) :=
  match step, run.phase with
  | .begin, .spawned =>
    if record.status = .running then some (.refuse record)
    else (momentAfter? s.clock s.options.taskTimeout).map (s.admission record run.trigger)
  | .endAttempt ending, .executing token deadline number =>
    match ending.result s.options.taskTimeout (deadline ≤ s.clock) with
    | .ok () => s.conclusion? record (.ok ()) (some (number, ending))
    | .error e =>
      match retryDelay? record.retry number e with
      | some delay => some (s.rest record token deadline number ending delay e)
      | none => s.conclusion? record (.error e) (some (number, ending))
  | .retry, .resting token deadline number wake _ =>
    if wake ≤ s.clock then some (s.renewal record token deadline number) else none
  | .giveUp, .resting token _ _ _ failure =>
    if s.isCancelled token then s.conclusion? record (.error failure) none else none
  | .revoke canceller, .executing token deadline number =>
    if canceller.mayCancel deadline s.clock && !token.cancelled then
      some (.advance record (.executing { token with cancelled := true } deadline number) (by simp))
    else none
  | .revoke canceller, .resting token deadline number wake failure =>
    if canceller.mayCancel deadline s.clock && !token.cancelled then
      some (.advance record (.resting { token with cancelled := true } deadline number wake failure)
        (by simp))
    else none
  | _, _ => none

/-- Put down the record and the entries of an effect. -/
def write (s : State H) (id number : Nat) (effect : Effect H) : State H :=
  { s with
    records := s.records.insert number effect.record
    journal := effect.entries id number ++ s.journal }

/-- Let a step of a run take its effect. -/
def perform (s : State H) (id : Nat) (run : Run) (effect : Effect H) : State H :=
  match effect.fate with
  | .ok phase => (s.write id run.record effect).setPhase id phase
  | .error outcome => (s.write id run.record effect).finish id run outcome

/-- The part of a state that no step of a run touches, and all that it reads beside the record of
its task: it is the state without its tasks and runs, its calls and its journal. -/
def bare (s : State H) : State H :=
  { s with
    records := Table.empty
    registry := Table.empty
    runs := Table.empty
    calls := Table.empty
    journal := [] }

/-- To wake the waiting stops leaves the bare state. -/
@[simp] theorem bare_wakeStops (s : State H) : s.wakeStops.bare = s.bare := by
  unfold wakeStops
  split <;> rfl

/-- To drop a run with its outcome leaves the bare state. -/
@[simp] theorem bare_finish (s : State H) (id : Nat) (run : Run) (outcome : RunOutcome) :
    (s.finish id run outcome).bare = s.bare := by
  unfold finish
  cases run.owner with
  | dispatched => exact bare_wakeStops _
  | call call => rfl

/-- An effect leaves the bare state. -/
@[simp] theorem bare_perform (s : State H) (id : Nat) (run : Run) (effect : Effect H) :
    (s.perform id run effect).bare = s.bare := by
  unfold perform
  split
  · rfl
  · exact bare_finish ..

/-- A result can be put down on each record of an untroubled state. -/
theorem IsUntroubled.exists_recorded (h : s.IsUntroubled) {number : Nat}
    (hrecord : s.records.get? number = some record) (result : Except JobError Unit) :
    s.reading = .ok s.now ∧ ∃ after, record.recorded s.options.zone s.now result = .ok after := by
  obtain ⟨-, now, hnow, hnext⟩ := h
  obtain ⟨next, hnext⟩ := hnext number record hrecord
  rw [now_of_reading hnow]
  exact ⟨hnow, _, by rw [Record.recorded, hnext]; rfl⟩

/-- Where there is no pool, there are no permits to give back. -/
theorem releasePermit_eq (hpool : s.pool = none) : s.releasePermit = s := by
  cases s
  cases hpool
  rfl

/-- Without a pool no permit is taken. -/
theorem takePermit_eq (hpool : s.pool = none) : s.takePermit = s := by
  cases s
  cases hpool
  rfl

/-- A run that ends without a permit is put down. -/
theorem conclude_eq (h : s.IsUntroubled) (hpool : s.pool = none)
    (hrecord : s.records.get? run.record = some record) (result : Except JobError Unit)
    (ended : Option (Nat × Ending)) :
    some ({ s with journal := s.endings id run.record ended ++ s.journal }.conclude id run result) =
      (s.conclusion? record result ended).map (s.perform id run) := by
  obtain ⟨hreading, after, hafter⟩ := h.exists_recorded hrecord result
  have hsame : { s with journal := s.endings id run.record ended ++ s.journal }.reading =
      .ok s.now :=
    hreading
  simp only [conclude, hrecord, hsame, hafter, conclusion?, Option.map_some, putDown, note]
  split
  · rw [releasePermit_eq]
    · rfl
    · exact hpool
  · rfl

/-- Without a pool a run that is accepted takes the effect of an admission. -/
theorem accept_eq {deadline : Moment} (hpool : s.pool = none)
    (hdeadline : momentAfter? s.clock s.options.taskTimeout = some deadline)
    (hrecord : s.records.get? run.record = some record) :
    s.accept id run = s.perform id run (s.admission record run.trigger deadline) := by
  have hmodified : ∀ f g : Record H → Record H,
      (s.records.modify run.record f).modify run.record g =
      s.records.insert run.record (g (f record)) := by
    intro f g
    rw [Table.modify_eq_insert hrecord, Table.modify_eq_insert (v := f record) (by simp),
      Table.insert_insert]
  have hspare : s.hasSparePermit = true := by simp only [hasSparePermit, hpool]
  have hsame : momentAfter? (s.letPass id run).clock (s.letPass id run).options.taskTimeout =
      some deadline := hdeadline
  rw [accept_of_spare hspare, launch, hsame, takePermit_eq (s := s.letPass id run) hpool]
  simp only [letPass, attempt, note, hmodified, if_true, perform, write, admission, setPhase]
  rfl

section Steps

variable (h : s.IsUntroubled) (hpool : s.pool = none)
  (hrecord : s.records.get? run.record = some record) (hqueued : ∀ token, run.phase ≠ .queued token)
include hrecord hqueued

include h hpool in
/-- The first look at a run takes its effect. -/
theorem begin?_eq :
    s.begin? id run = (s.bare.effect? record run .begin).map (s.perform id run) := by
  obtain ⟨number, trigger, owner, phase⟩ := run
  unfold begin?
  cases phase with
  | spawned =>
    simp only [if_true, begin, hrecord, effect?]
    split
    · simp only [Option.map_some, perform, write, Effect.refuse, Table.insert_of_get? hrecord]
      rfl
    · obtain ⟨deadline, hdeadline⟩ := Option.isSome_iff_exists.1 h.1
      have hbare : momentAfter? s.bare.clock s.bare.options.taskTimeout = some deadline := hdeadline
      rw [hbare, Option.map_some, Option.map_some, accept_eq hpool hdeadline hrecord]
      rfl
  | queued token => exact absurd rfl (hqueued token)
  | executing | resting | stranded => rfl

omit hrecord in
/-- Without a pool no run waits for a permit. -/
theorem acquire?_eq : s.acquire? id run = (s.bare.effect? record run .acquire).map
    (s.perform id run) := by
  obtain ⟨number, trigger, owner, phase⟩ := run
  cases phase with
  | queued token => exact absurd rfl (hqueued token)
  | spawned | executing | resting | stranded => rfl

include h hpool in
/-- The end of an attempt takes its effect. -/
theorem endAttempt?_eq (ending : Ending) : s.endAttempt? id run ending =
    (s.bare.effect? record run (.endAttempt ending)).map (s.perform id run) := by
  obtain ⟨number, trigger, owner, phase⟩ := run
  unfold endAttempt?
  cases phase with
  | executing token deadline attempt =>
    have hconclude := fun result =>
      @conclude_eq H s record id ⟨number, trigger, owner, .executing token deadline attempt⟩ h hpool
        hrecord result (some (attempt, ending))
    simp only [endAttempt, effect?, hrecord, Option.bind_some]
    change _ = (match ending.result s.options.taskTimeout (deadline ≤ s.clock) with
      | .ok () => _
      | .error e => _ : Option (Effect H)).map _
    cases hresult : ending.result s.options.taskTimeout (deadline ≤ s.clock) with
    | ok => exact hconclude (.ok ())
    | error e =>
      cases hretry : retryDelay? record.retry attempt e with
      | some delay =>
        simp only [hretry, Option.map_some, perform, write, rest, Table.insert_of_get? hrecord]
        rfl
      | none =>
        simp only [hretry]
        exact hconclude (.error e)
  | queued token => exact absurd rfl (hqueued token)
  | spawned | resting | stranded => rfl

/-- A retry takes its effect. -/
theorem retry?_eq :
    s.retry? id run = (s.bare.effect? record run .retry).map (s.perform id run) := by
  obtain ⟨number, trigger, owner, phase⟩ := run
  unfold retry?
  cases phase with
  | resting token deadline attempt wake failure =>
    simp only [effect?]
    change (if wake ≤ s.clock then _ else _) =
      (if wake ≤ s.clock then _ else _ : Option (Effect H)).map _
    split
    · simp only [Option.map_some, State.attempt, perform, write, renewal,
        Table.modify_eq_insert hrecord, Nat.succ_ne_zero, if_false]
      rfl
    · rfl
  | queued token => exact absurd rfl (hqueued token)
  | spawned | executing | stranded => rfl

include h hpool in
/-- A run that gives up takes its effect. -/
theorem giveUp?_eq : s.giveUp? id run = (s.bare.effect? record run .giveUp).map
    (s.perform id run) := by
  obtain ⟨number, trigger, owner, phase⟩ := run
  unfold giveUp?
  cases phase with
  | resting token deadline attempt wake failure =>
    simp only [effect?]
    change (if s.isCancelled token = true then _ else _) =
      (if s.isCancelled token = true then _ else _ : Option (Effect H)).map _
    split
    · exact conclude_eq h hpool hrecord (.error failure) none
    · rfl
  | queued token => exact absurd rfl (hqueued token)
  | spawned | executing | stranded => rfl

/-- To cancel a run takes its effect. -/
theorem revoke?_eq (canceller : Canceller) : s.revoke? id run canceller =
    (s.bare.effect? record run (.revoke canceller)).map (s.perform id run) := by
  -- Whether a run executes or rests, to cancel it does the same.
  have hadvance : ∀ (phase : Phase) (deadline : Moment) (cancelled : Bool)
      (hlives : phase ≠ .stranded),
      (if (canceller.mayCancel deadline s.clock && !cancelled) = true then
        some (s.setPhase id phase) else none) =
      (if (canceller.mayCancel deadline s.bare.clock && !cancelled) = true then
        some (Effect.advance record phase hlives) else none).map (s.perform id run) := by
    intro phase deadline cancelled hlives
    change _ = (if (canceller.mayCancel deadline s.clock && !cancelled) = true then _ else _ :
      Option (Effect H)).map _
    split
    · simp only [Option.map_some, perform, write, Effect.advance, Table.insert_of_get? hrecord]
      rfl
    · rfl
  obtain ⟨number, trigger, owner, phase⟩ := run
  unfold revoke?
  cases phase with
  | executing token deadline attempt => exact hadvance _ deadline token.cancelled (by simp)
  | resting token deadline attempt wake failure =>
    exact hadvance _ deadline token.cancelled (by simp)
  | queued token => exact absurd rfl (hqueued token)
  | spawned | stranded => rfl

end Steps

/-- Each step of a run that waits for no permit takes its effect. -/
theorem step?_eq_perform (h : s.IsUntroubled) (hpool : s.pool = none)
    (hrun : s.runs.get? id = some run) (hrecord : s.records.get? run.record = some record)
    (hqueued : ∀ token, run.phase ≠ .queued token) (step : RunStep) :
    s.step? (step.on id) = (s.bare.effect? record run step).map (s.perform id run) := by
  cases step with
  | begin =>
    rw [RunStep.on, step?, hrun, Option.bind_some]
    exact begin?_eq h hpool hrecord hqueued
  | acquire =>
    rw [RunStep.on, step?, hrun, Option.bind_some]
    exact acquire?_eq hqueued
  | endAttempt ending =>
    rw [RunStep.on, step?, hrun, Option.bind_some]
    exact endAttempt?_eq h hpool hrecord hqueued ending
  | retry =>
    rw [RunStep.on, step?, hrun, Option.bind_some]
    exact retry?_eq hrecord hqueued
  | giveUp =>
    rw [RunStep.on, step?, hrun, Option.bind_some]
    exact giveUp?_eq h hpool hrecord hqueued
  | revoke canceller =>
    rw [RunStep.on, step?, hrun, Option.bind_some]
    exact revoke?_eq hrecord hqueued canceller

/-- An effect depends on the run only by its trigger and its phase. -/
theorem effect?_congr {run' : Run} (htrigger : run'.trigger = run.trigger)
    (hphase : run'.phase = run.phase) (step : RunStep) :
    s.effect? record run' step = s.effect? record run step := by
  simp only [effect?, htrigger, hphase]

/-- A run that has broken off takes no step. -/
theorem effect?_of_stranded (hphase : run.phase = .stranded) (step : RunStep) :
    s.effect? record run step = none := by
  cases step <;> simp only [effect?, hphase]

/-- The end of a run leaves the profile of its record. -/
theorem profile_of_conclusion? {effect : Effect H} {result : Except JobError Unit}
    {ended : Option (Nat × Ending)} (h : s.conclusion? record result ended = some effect) :
    effect.record.profile = record.profile := by
  unfold conclusion? at h
  split at h
  · cases h
  · next after hafter =>
    cases h
    exact Record.profile_recorded hafter

/-- An effect leaves alone what the record says of its task. -/
theorem profile_of_effect? {effect : Effect H} {step : RunStep}
    (h : s.effect? record run step = some effect) : effect.record.profile = record.profile := by
  unfold effect? at h
  split at h
  · split at h
    · cases h
      rfl
    · obtain ⟨deadline, -, rfl⟩ := Option.map_eq_some_iff.1 h
      rfl
  · split at h
    · exact profile_of_conclusion? h
    · split at h
      · cases h
        rfl
      · exact profile_of_conclusion? h
  · split at h <;> cases h
    rfl
  · split at h
    · exact profile_of_conclusion? h
    · cases h
  · split at h <;> cases h
    rfl
  · split at h <;> cases h
    rfl
  · cases h

/-- No effect changes the id of a record. -/
theorem id_of_effect? {effect : Effect H} {step : RunStep}
    (h : s.effect? record run step = some effect) : effect.record.id = record.id := by
  have hid := congrArg Record.id (profile_of_effect? h)
  exact hid

end State

end Scheduler

end CronDaemon
