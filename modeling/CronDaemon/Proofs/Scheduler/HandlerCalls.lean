import CronDaemon.Proofs.Scheduler.Cancellation
import CronDaemon.Proofs.Scheduler.WorkerPool

/-!
# The calls of a handler

A run that gets as far as its handler calls it once, or again and again as its retry policy has it.
The journal tells of each call and of each return, so that it spells out the calls of every run, in
the order in which they were made; and where the run stands is told by its last call. Only an event
of the run itself adds to them: it gets its permit, its handler returns, or its wait for another
attempt is over.
-/

namespace CronDaemon.Scheduler

open Job

/-- One call of the handler of a run. -/
structure HandlerCall where
  /-- When the handler was called. -/
  began : Moment
  /-- How and when the handler returned, if it has. -/
  returned : Option (Ending × Moment)

/-- The entries that tell of a call, the latest first. -/
def HandlerCall.entries (call : HandlerCall) (id record number : Nat) (trigger : Trigger) :
    List Entry :=
  (call.returned.map fun e => .ended id record number e.1 e.2).toList ++
    [.began id record number trigger call.began]

/-- The entries that tell of the calls of the handler of a run, the latest first. They are numbered
from zero on; the first one has the trigger of the run, and the others are retries. -/
def tellCalls (id record : Nat) (trigger : Trigger) : List HandlerCall → List Entry
  | [] => []
  | call :: earlier =>
    call.entries id record earlier.length (if earlier.isEmpty then trigger else .retry) ++
      tellCalls id record trigger earlier

/-- Whether an entry tells that the handler of the run was called or has returned. -/
def Entry.isCallOf (id : Nat) : Entry → Bool
  | .began run .. | .ended run .. => run = id
  | .registered .. | .refreshed .. | .ticked .. | .admitted .. | .refused .. | .recorded .. => false

/-- What the journal tells of the calls of the handler of a run, the latest first. -/
def callsTold (journal : List Entry) (id : Nat) : List Entry := journal.filter (Entry.isCallOf id)

/-- The policy lets one call be followed by another: it ended with a failure for which another
attempt may help, and the other one did not begin before the delay was over. A delay past the end of
the steady clock takes thirty years. -/
def HandlerCall.LeadsTo (policy : RetryPolicy) (earlier later : HandlerCall) : Prop :=
  ∃ message moment, earlier.returned = some (.failed (.failed message true), moment) ∧
    (moment + policy.delay.nanos < clockEnd → moment + policy.delay.nanos ≤ later.began) ∧
    (clockEnd ≤ moment + policy.delay.nanos → moment + longestWait.nanos ≤ later.began)

/-- The calls of a handler, the latest first, are such as a run makes: one, and at most as many
others as the task has retries, each of which follows one that leads to it. -/
structure IsCourse (retry : Option RetryPolicy) (calls : List HandlerCall) : Prop where
  called : calls ≠ []
  bounded : calls.length ≤ retry.elim 0 (·.maxRetries) + 1
  follows : calls.IsChain fun later earlier => ∃ policy, retry = some policy ∧
    earlier.LeadsTo policy later

/-- Whether the task is attempted again after the attempt with this number has ended so: it has
failed, and another attempt may help, and one is left. -/
def AsksAgain (retry : Option RetryPolicy) (number : Nat) (ending : Ending) : Prop :=
  ∃ policy message, retry = some policy ∧ number < policy.maxRetries ∧
    ending = .failed (.failed message true)

/-- The result of a run whose last attempt ended so at a moment: a panic is told as such, and a
cancellation at or after the deadline as the end of the time allowed. -/
inductive Yields (limit : Duration) (deadline moment : Moment) :
    Ending → Except JobError Unit → Prop
  | completed (message : String) : Yields limit deadline moment (.completed message) (.ok ())
  | failed {error : JobError} (h : error ≠ .cancelled) :
      Yields limit deadline moment (.failed error) (.error error)
  | cancelled (h : moment < deadline) :
      Yields limit deadline moment (.failed .cancelled) (.error .cancelled)
  | timedOut (h : deadline ≤ moment) :
      Yields limit deadline moment (.failed .cancelled) (.error (.timedOut limit))
  | panicked (payload : Option String) :
      Yields limit deadline moment (.panicked payload)
        (.error (.panicked (payload.getD "unknown panic")))

theorem yields_result (limit : Duration) (deadline moment : Moment) (ending : Ending) :
    Yields limit deadline moment ending (ending.result limit (deadline ≤ moment)) := by
  cases ending with
  | completed message => exact .completed message
  | panicked payload => exact .panicked payload
  | failed error =>
    cases error with
    | cancelled =>
      by_cases hlate : deadline ≤ moment
      · simpa [Ending.result, hlate] using Yields.timedOut hlate
      · simpa [Ending.result, hlate] using Yields.cancelled (Nat.lt_of_not_le hlate)
    | failed | timedOut | panicked => exact .failed (by simp)

theorem retryDelay?_eq_some_iff {retry : Option RetryPolicy} {number : Nat} {error : JobError}
    {delay : Duration} : retryDelay? retry number error = some delay ↔
      ∃ policy message, retry = some policy ∧ number < policy.maxRetries ∧
        error = .failed message true ∧ delay = policy.delay := by
  cases retry with
  | none => simp [retryDelay?]
  | some policy =>
    cases error with
    | failed message retryable =>
      cases retryable <;> simp [retryDelay?, JobError.isRetryable, eq_comm]
    | cancelled | timedOut | panicked => simp [retryDelay?, JobError.isRetryable]

theorem result_eq_failed_iff {ending : Ending} {limit : Duration} {late : Bool} {message : String}
    {retryable : Bool} : ending.result limit late = .error (.failed message retryable) ↔
      ending = .failed (.failed message retryable) := by
  cases ending with
  | completed | panicked => simp [Ending.result]
  | failed error =>
    cases error with
    | failed | timedOut | panicked => simp [Ending.result]
    | cancelled => cases late <;> simp [Ending.result]

theorem waitUntil_of_lt {moment : Moment} {d : Duration} (h : moment + d.nanos < clockEnd) :
    waitUntil moment d = moment + d.nanos := by
  simp only [waitUntil, momentAfter?, if_pos h, Option.getD_some]

theorem waitUntil_of_le {moment : Moment} {d : Duration} (h : clockEnd ≤ moment + d.nanos) :
    waitUntil moment d = moment + longestWait.nanos := by
  simp only [waitUntil, momentAfter?, if_neg (Nat.not_lt.2 h), Option.getD_none]

namespace IsCourse

variable {retry : Option RetryPolicy} {calls earlier : List HandlerCall} {began : Moment}

/-- A run calls its handler for the first time. -/
theorem first (retry : Option RetryPolicy) (call : HandlerCall) : IsCourse retry [call] :=
  ⟨List.cons_ne_nil _ _, Nat.le_add_left 1 _, .singleton call⟩

/-- The handler returns. -/
theorem returns (h : IsCourse retry (⟨began, none⟩ :: earlier))
    (returned : Option (Ending × Moment)) : IsCourse retry (⟨began, returned⟩ :: earlier) := by
  refine ⟨List.cons_ne_nil _ _, h.bounded, ?_⟩
  cases earlier with
  | nil => exact .singleton _
  | cons call earlier =>
    -- Whether the call may follow the one before depends on when it began.
    obtain ⟨hlast, hrest⟩ := List.isChain_cons_cons.1 h.follows
    exact List.isChain_cons_cons.2 ⟨hlast, hrest⟩

/-- The handler is called again when the wait is over. -/
theorem again {message : String} {moment clock : Moment} {policy : RetryPolicy}
    (h : IsCourse retry (⟨began, some (.failed (.failed message true), moment)⟩ :: earlier))
    (hretry : retry = some policy) (hleft : earlier.length < policy.maxRetries)
    (hwake : waitUntil moment policy.delay ≤ clock) :
    IsCourse retry
      (⟨clock, none⟩ :: ⟨began, some (.failed (.failed message true), moment)⟩ :: earlier) where
  called := List.cons_ne_nil _ _
  bounded := by
    simp only [List.length_cons, hretry, Option.elim_some]
    omega
  follows := by
    refine List.isChain_cons_cons.2
      ⟨⟨policy, hretry, message, moment, rfl, fun h => ?_, fun h => ?_⟩, h.follows⟩
    · rwa [waitUntil_of_lt h] at hwake
    · rwa [waitUntil_of_le h] at hwake

end IsCourse

/-- The phase of a run after these calls of its handler. -/
inductive PhaseAfter (retry : Option RetryPolicy) (deadline : Moment) :
    List HandlerCall → Phase → Prop
  /-- The handler executes. -/
  | executing (token : Token) {began : Moment} {earlier : List HandlerCall} :
      PhaseAfter retry deadline (⟨began, none⟩ :: earlier)
        (.executing token deadline earlier.length)
  /-- The run waits for another attempt. -/
  | resting (token : Token) {began moment : Moment} {earlier : List HandlerCall}
      {policy : RetryPolicy}
      {message : String} (hretry : retry = some policy)
      (hleft : earlier.length < policy.maxRetries) :
      PhaseAfter retry deadline (⟨began, some (.failed (.failed message true), moment)⟩ :: earlier)
        (.resting token deadline earlier.length (waitUntil moment policy.delay)
          (.failed message true))
  /-- The run has broken off. -/
  | stranded (calls : List HandlerCall) : PhaseAfter retry deadline calls .stranded

theorem PhaseAfter.holdsPermit {retry : Option RetryPolicy} {deadline : Moment}
    {calls : List HandlerCall}
    {phase : Phase} (h : PhaseAfter retry deadline calls phase) (hlive : phase ≠ .stranded) :
    phase.holdsPermit = true := by
  cases h with
  | executing | resting => rfl
  | stranded => exact absurd rfl hlive

namespace State

variable {H : Type} {s s' : State H} {id number : Nat} {run run' : Run} {event : Event H}
  {trigger : Trigger} {deadline : Moment} {calls : List HandlerCall}

/-- The retry policy of a record. -/
def retryOf (s : State H) (number : Nat) :
    Option RetryPolicy := (s.records.get? number).bind (·.retry)

/-- Where a run stands after these calls of its handler. -/
inductive HasCalled (s : State H) (id number : Nat) (deadline : Moment) : List HandlerCall → Prop
  | outstanding {calls : List HandlerCall} {run : Run} (hrun : s.runs.get? id = some run)
      (hrecord : run.record = number)
      (hphase : PhaseAfter (s.retryOf number) deadline calls run.phase) :
      HasCalled s id number deadline calls
  /-- The run is over and was recorded, with the result of the last call. -/
  | recorded {began moment : Moment} {earlier : List HandlerCall} {ending : Ending}
      {result : Except JobError Unit} {finished : Instant} (hgone : s.runs.get? id = none)
      (hmem : .recorded id number result finished ∈ s.journal)
      (hresult : Yields s.options.taskTimeout deadline moment ending result) :
      HasCalled s id number deadline (⟨began, some (ending, moment)⟩ :: earlier)

/-- The calls of the handler of a run that passed the guard of a record: the journal tells of these
and of no others, they are such as a run makes, the deadline counts from the first of them, and the
last one tells where the run stands. -/
structure Calls (s : State H) (id number : Nat) (trigger : Trigger) (deadline : Moment)
    (calls : List HandlerCall) : Prop where
  admitted : ∃ moment now, .admitted id number trigger moment now ∈ s.journal
  told : callsTold s.journal id = tellCalls id number trigger calls
  course : IsCourse (s.retryOf number) calls
  due : ∃ first, calls.getLast? = some first ∧ deadline = first.began + s.options.taskTimeout.nanos
  stands : s.HasCalled id number deadline calls

/-- The run has not called its handler and holds no permit, or its calls are accounted for. -/
def IsAccounted (s : State H) (id : Nat) : Prop :=
  callsTold s.journal id = [] ∧ id ∉ s.holders ∨
    ∃ number trigger deadline calls, s.Calls id number trigger deadline calls

/-- What the journal tells of the calls of a handler is part of the reports. -/
theorem callsTold_eq (s : State H) (id : Nat) :
    callsTold s.journal id = s.regime.reports.filter (Entry.isCallOf id) := by
  simp only [callsTold, regime, List.filter_filter]
  refine List.filter_congr fun entry _ => ?_
  cases entry <;> simp [Entry.isCallOf, Entry.isReport]

theorem callsTold_of_regime_eq (h : s'.regime = s.regime) :
    callsTold s'.journal id = callsTold s.journal id := by
  rw [callsTold_eq, callsTold_eq, h]

/-- The end of a run adds nothing to its calls. -/
theorem callsTold_conclude (s : State H) (k : Nat) (run : Run) (result : Except JobError Unit) :
    callsTold (s.conclude k run result).journal id = callsTold s.journal id := by
  rcases regime_conclude s k run result with h | ⟨now, -, -, h⟩
  · exact callsTold_of_regime_eq h
  · rw [callsTold_eq, callsTold_eq, h]
    rfl

/-- A run that is concluded is over. -/
theorem isOver_conclude (hrun : s.runs.get? id = some run)
    (hrecord : ∃ record, s.records.get? run.record = some record) (result : Except JobError Unit) :
    (s.conclude id run result).IsOver id := fun _ => phase_of_conclude hrun hrecord

theorem Ends.run?_eq {phase : Phase} {result : Except JobError Unit}
    (h : s.Ends id event phase result) : event.run? = some id := by
  cases h <;> rfl

/-- A run that an event does not go on with stays as it is, or breaks off, if it has passed the
guard. -/
theorem Transition.get?_or_stranded (h : s.Transition event s') (hs : s.Reachable)
    (hrun : s.runs.get? id = some run) (hpast : run.phase ≠ .spawned) (hne : event.run? ≠ some id) :
    s'.runs.get? id = some run ∨ s'.IsStranded run.record id := by
  cases hrun' : s'.runs.get? id with
  | none =>
    obtain ⟨result, now, hends, -⟩ := h.ends_of_gone hs hrun hpast hrun'
    exact absurd hends.run?_eq hne
  | some run' =>
    have hleaves := h.leaves (hs.run_lt hrun) hne
    rw [Leaves, hrun, hrun'] at hleaves
    cases hleaves with
    | same => exact .inl rfl
    | stranded => exact .inr ⟨_, hrun', rfl, rfl⟩

/-- A run that an event does not go on with neither calls its handler nor returns from it. -/
theorem Transition.callsTold_eq (h : s.Transition event s') (hs : s.Reachable)
    (hne : event.run? ≠ some id) : callsTold s'.journal id = callsTold s.journal id := by
  obtain ⟨new, hnew, htold⟩ := h.tells
  have hnone : new.filter (Entry.isCallOf id) = [] := by
    refine List.filter_eq_nil_iff.2 fun entry hentry => ?_
    cases htold entry hentry with
    | registered | refreshed | recorded => exact Bool.false_ne_true
    | @began _ k _ run run' _ _ _ hrun hidle hrun' hphase' =>
      intro hcall
      obtain rfl : k = id := by simpa [Entry.isCallOf] using hcall
      have hleaves := h.leaves (hs.run_lt hrun) hne
      rw [Leaves, hrun, hrun'] at hleaves
      cases hleaves with
      | same => simp [hphase', Phase.isExecuting] at hidle
      | stranded => cases hphase'
    | @ended k =>
      intro hcall
      obtain rfl : k = id := by simpa [Entry.isCallOf] using hcall
      exact hne rfl
  rw [State.callsTold_eq, State.callsTold_eq, hnew, List.filter_append, hnone, List.nil_append]

/-- What a record says of its retries stays. -/
theorem Transition.retryOf_eq (h : s.Transition event s') (hs : s.Reachable) {record : Record H}
    (hrecord : s.records.get? number = some record) : s'.retryOf number = s.retryOf number := by
  obtain ⟨profile', hprofile', hcases⟩ :=
    h.change.profile (profile_of_get? hrecord) (hs.record_lt hrecord)
  obtain ⟨record', hrecord', rfl⟩ := get?_of_profile hprofile'
  simp only [retryOf, hrecord, hrecord', Option.bind_some]
  show record'.profile.retry = record.profile.retry
  rcases hcases with he | ⟨name, enabled, -, -, he⟩ <;> rw [he]

/-- A run behind the guard was admitted on its record with its trigger. -/
theorem Reachable.admitted_of_run (hs : s.Reachable) (hrun : s.runs.get? id = some run)
    (hpast : run.phase ≠ .spawned) :
    ∃ moment now, .admitted id run.record run.trigger moment now ∈ s.journal := by
  refine hs.step_induction (motive := fun s => ∀ run, s.runs.get? id = some run →
    run.phase ≠ .spawned → ∃ moment now, .admitted id run.record run.trigger moment now ∈ s.journal)
    (fun _ _ _ hrun => nomatch hrun) ?_ run hrun hpast
  intro s event s' hs h ih run' hrun' hpast'
  have hsuffix := h.journal_suffix.subset
  rcases h.run_cases hs hrun' with ⟨run, hrun, hcontinues⟩ | ⟨-, hspawns⟩
  · rw [hcontinues.record, hcontinues.trigger]
    by_cases hphase : run.phase = .spawned
    · -- The run passes the guard with the event.
      have hholds : s'.ledger.Holds run'.record id := by
        simpa [Ledger.Holds, hpast'] using standing?_of_get? hrun'
      obtain ⟨⟨trigger, moment, now, hmem⟩, -⟩ :=
        (h.moves.isSound hs.isSound).kept.outstanding_iff.2 hholds
      rcases h.admitted_cases hs hmem with hold | ⟨-, other, -, hother, -, hrecord, htrigger, -⟩
      · exact absurd ⟨trigger, moment, now, hold⟩
          (hs.isSound.kept.not_passed (Ledger.standing?_of_spawned hrun hphase))
      · rw [hrun] at hother
        cases hother
        rw [hrecord, htrigger]
        exact ⟨moment, now, hmem⟩
    · obtain ⟨moment, now, hmem⟩ := ih run hrun hphase
      exact ⟨moment, now, hsuffix hmem⟩
  · exact absurd hspawns.phase hpast'

/-- A run that is dropped or stranded by an event of its own was recorded with the result with which
it ended, or has broken off. -/
theorem Transition.recorded_or_stranded (h : s.Transition event s') (hs : s.Reachable)
    (hrun : s.runs.get? id = some run) (hpast : run.phase ≠ .spawned) (hover : s'.IsOver id) :
    s'.IsStranded run.record id ∨ s'.runs.get? id = none ∧ ∃ result finished,
      s.Ends id event run.phase result ∧ .recorded id run.record result finished ∈ s'.journal := by
  cases hrun' : s'.runs.get? id with
  | none =>
    obtain ⟨result, finished, hends, -, hmem⟩ := h.ends_of_gone hs hrun hpast hrun'
    exact .inr ⟨rfl, result, finished, hends, hmem⟩
  | some run' => exact .inl ⟨run', hrun', (h.continues hs hrun hrun').record, hover run' hrun'⟩

/-- After its attempt has ended, a run waits for another one if its task is attempted again, and is
over otherwise. -/
theorem endAttempt_cases (s : State H) (id : Nat) (run : Run) (token : Token) (deadline : Moment)
    (attempt : Nat) (ending : Ending) :
    (∃ policy message, s.retryOf run.record = some policy ∧ attempt < policy.maxRetries ∧
      ending = .failed (.failed message true) ∧ s.endAttempt id run token deadline attempt ending =
        (s.note (.ended id run.record attempt ending s.clock)).setPhase id
          (.resting token deadline attempt
          (waitUntil s.clock policy.delay) (.failed message true))) ∨
      ¬ AsksAgain (s.retryOf run.record) attempt ending ∧
        s.endAttempt id run token deadline attempt ending =
          (s.note (.ended id run.record attempt ending s.clock)).conclude id run
            (ending.result s.options.taskTimeout (deadline ≤ s.clock)) := by
  simp only [State.endAttempt]
  split
  · next hresult =>
    refine .inr ⟨?_, by rw [hresult]⟩
    rintro ⟨policy, message, -, -, rfl⟩
    cases hresult
  · next error hresult =>
    split
    · next delay hdelay =>
      obtain ⟨policy, message, hretry, hleft, rfl, rfl⟩ := retryDelay?_eq_some_iff.1 hdelay
      exact .inl ⟨policy, message, hretry, hleft, result_eq_failed_iff.1 hresult, rfl⟩
    · next hnone =>
      refine .inr ⟨?_, by rw [hresult]⟩
      rintro ⟨policy, message, hretry, hleft, rfl⟩
      cases hresult
      have hdelay := retryDelay?_eq_some_iff.2 ⟨policy, message, hretry, hleft, rfl, rfl⟩
      cases hnone.symm.trans hdelay

namespace Calls

/-- A run that is there is in a phase that its calls lead to. -/
theorem phaseAfter (h : s.Calls id number trigger deadline calls)
    (hrun : s.runs.get? id = some run) :
    run.record = number ∧ PhaseAfter (s.retryOf number) deadline calls run.phase := by
  cases h.stands with
  | outstanding hrun' hrecord hphase =>
    rw [hrun] at hrun'
    cases hrun'
    exact ⟨hrecord, hphase⟩
  | recorded hgone =>
    rw [hrun] at hgone
    cases hgone

/-- The run has passed the guard of its record. -/
theorem hasPassed (h : s.Calls id number trigger deadline calls) :
    HasPassed s.journal number id := by
  obtain ⟨moment, now, hmem⟩ := h.admitted
  exact ⟨trigger, moment, now, hmem⟩

theorem retryOf_eq (h : s.Calls id number trigger deadline calls)
    (htransition : s.Transition event s')
    (hs : s.Reachable) : s'.retryOf number = s.retryOf number := by
  obtain ⟨record, hrecord⟩ := hs.record_of_hasPassed h.hasPassed
  exact htransition.retryOf_eq hs hrecord

/-- The calls go on with an event if it tells of them and leaves the run where they say. -/
theorem step (h : s.Calls id number trigger deadline calls) (htransition : s.Transition event s')
    (hs : s.Reachable) {calls' : List HandlerCall}
    (htold : callsTold s'.journal id = tellCalls id number trigger calls')
    (hcourse : IsCourse (s.retryOf number) calls')
    (hfirst : calls'.getLast?.map (·.began) = calls.getLast?.map (·.began))
    (hstands : s'.HasCalled id number deadline calls') :
    s'.Calls id number trigger deadline calls' where
  admitted := by
    obtain ⟨moment, now, hmem⟩ := h.admitted
    exact ⟨moment, now, htransition.journal_suffix.subset hmem⟩
  told := htold
  course := h.retryOf_eq htransition hs ▸ hcourse
  due := by
    obtain ⟨first, hlast, hdue⟩ := h.due
    rw [hlast, Option.map_some] at hfirst
    obtain ⟨first', hlast', hbegan⟩ := Option.map_eq_some_iff.1 hfirst
    refine ⟨first', hlast', ?_⟩
    rw [hdue, hbegan, show s'.options = s.options from htransition.change.options_eq]
  stands := hstands

/-- An event of its own that leaves a run behind the guard goes on with the calls as it puts them
down. -/
theorem advance (h : s.Calls id number trigger deadline calls) (htransition : s.Transition event s')
    (hs : s.Reachable) {calls' : List HandlerCall} {phase : Phase}
    (hrun : s.runs.get? id = some run) (hruns : s'.runs = (s.setPhase id phase).runs)
    (htold : callsTold s'.journal id = tellCalls id number trigger calls')
    (hcourse : IsCourse (s.retryOf number) calls')
    (hfirst : calls'.getLast?.map (·.began) = calls.getLast?.map (·.began))
    (hphase : PhaseAfter (s.retryOf number) deadline calls' phase) :
    s'.Calls id number trigger deadline calls' := by
  refine h.step htransition hs htold hcourse hfirst
    (.outstanding (get?_runs_setPhase hrun phase hruns) (h.phaseAfter hrun).1 ?_)
  exact h.retryOf_eq htransition hs ▸ hphase

/-- A run that ends after its last call has returned is recorded with the result of that call, or
has broken off. -/
theorem finish (h : s.Calls id number trigger deadline calls) (htransition : s.Transition event s')
    (hs : s.Reachable) {began moment : Moment} {earlier : List HandlerCall} {ending : Ending}
    (hrun : s.runs.get? id = some run) (hpast : run.phase ≠ .spawned) (hover : s'.IsOver id)
    (htold : callsTold s'.journal id =
      tellCalls id number trigger (⟨began, some (ending, moment)⟩ :: earlier))
    (hcourse : IsCourse (s.retryOf number) (⟨began, some (ending, moment)⟩ :: earlier))
    (hfirst : (HandlerCall.mk began (some (ending, moment)) :: earlier).getLast?.map (·.began) =
      calls.getLast?.map (·.began))
    (hresult : ∀ result, s.Ends id event run.phase result →
      Yields s.options.taskTimeout deadline moment ending result) :
    s'.Calls id number trigger deadline (⟨began, some (ending, moment)⟩ :: earlier) := by
  obtain ⟨rfl, -⟩ := h.phaseAfter hrun
  refine h.step htransition hs htold hcourse hfirst ?_
  rcases htransition.recorded_or_stranded hs hrun hpast hover with
    ⟨run', hrun', hrecord, hstranded⟩ | ⟨hgone, result, finished, hends, hmem⟩
  · refine .outstanding hrun' hrecord ?_
    rw [hstranded]
    exact .stranded _
  · refine .recorded hgone hmem ?_
    rw [show s'.options = s.options from htransition.change.options_eq]
    exact hresult result hends

/-- An event that does not go on with the run leaves its calls as they are. -/
theorem of_other (h : s.Calls id number trigger deadline calls)
    (htransition : s.Transition event s')
    (hs : s.Reachable) (hne : event.run? ≠ some id) :
    s'.Calls id number trigger deadline calls := by
  refine h.step htransition hs ((htransition.callsTold_eq hs hne).trans h.told) h.course rfl ?_
  cases h.stands with
  | @outstanding _ run hrun hrecord hphase =>
    have hpast : run.phase ≠ .spawned := by
      intro hspawned
      rw [hspawned] at hphase
      cases hphase
    rcases htransition.get?_or_stranded hs hrun hpast hne with
      hrun' | ⟨run', hrun', hrecord', hstranded⟩
    · exact .outstanding hrun' hrecord (h.retryOf_eq htransition hs ▸ hphase)
    · refine .outstanding hrun' (hrecord'.trans hrecord) ?_
      rw [hstranded]
      exact .stranded _
  | recorded hgone hmem hresult =>
    have hlt : id < s.nextId := hs.isSound.fresh.passed_lt h.hasPassed
    refine .recorded (htransition.run_eq_none hlt hgone)
      (htransition.journal_suffix.subset hmem) ?_
    rwa [show s'.options = s.options from htransition.change.options_eq]

end Calls

/-- A run whose calls are accounted for has called no handler as long as it holds no permit, unless
it has broken off. -/
theorem IsAccounted.callsTold_eq_nil (h : s.IsAccounted id) (hrun : s.runs.get? id = some run)
    (hidle : run.phase.holdsPermit = false) (hlive : run.phase ≠ .stranded) :
    callsTold s.journal id = [] := by
  rcases h with ⟨hnone, -⟩ | ⟨number, trigger, deadline, calls, hcalls⟩
  · exact hnone
  · have hholds := (hcalls.phaseAfter hrun).2.holdsPermit hlive
    rw [hidle] at hholds
    cases hholds

theorem IsAccounted.exists_calls (h : s.IsAccounted id) (hrun : s.runs.get? id = some run)
    (hholds : run.phase.holdsPermit = true) :
    ∃ number trigger deadline calls, s.Calls id number trigger deadline calls := by
  rcases h with ⟨-, hfree⟩ | hcalls
  · exact absurd ((mem_holders_of_get? hrun).2 hholds) hfree
  · exact hcalls

/-- A run that is launched calls its handler for the first time, or breaks off. -/
theorem isAccounted_launch (hrun : s.runs.get? id = some run) (hnone : callsTold s.journal id = [])
    (hadmitted : ∃ moment now, .admitted id run.record run.trigger moment now ∈ s.journal)
    (token : Token) : (s.launch id run token).IsAccounted id := by
  unfold State.launch
  split
  · next due hdue =>
    have hjournal : (s.takePermit.attempt id run token due 0).journal =
        .began id run.record 0 run.trigger s.clock :: s.journal := rfl
    refine .inr ⟨run.record, run.trigger, due, [⟨s.clock, none⟩], ?_, ?_, .first _ _,
      ⟨_, rfl, eq_add_of_momentAfter? hdue⟩, .outstanding
        (get?_runs_setPhase (s := s) hrun (.executing token due 0) rfl) rfl (.executing token)⟩
    · obtain ⟨moment, now, hmem⟩ := hadmitted
      exact ⟨moment, now, hjournal ▸ List.mem_cons_of_mem _ hmem⟩
    · rw [hjournal, callsTold, List.filter_cons_of_pos (by simp [Entry.isCallOf])]
      exact congrArg _ hnone
  · have hover : ((s.setPhase id (.queued token)).breakRun id run .unreachableDeadline).IsOver id :=
      fun _ =>
      phase_of_breakRun (get?_runs_setPhase (s := s) hrun (.queued token) rfl) rfl
    refine .inl ⟨(callsTold_of_regime_eq ?_).trans hnone, IsOver.notMem_holders hover⟩
    exact (regime_breakRun _ id run _).trans (regime_setPhase s id _)

/-- A run that is looked at for the first time has called no handler before. -/
theorem isAccounted_begin (hrun : s.runs.get? id = some run) (hphase : run.phase = .spawned)
    (h : s.IsAccounted id) : (s.begin id run).IsAccounted id := by
  have hnone := h.callsTold_eq_nil hrun (by rw [hphase]; rfl) (by rw [hphase]; simp)
  rcases begin_cases s id run with he | he | he <;> rw [he]
  · exact h
  · refine .inl ⟨(callsTold_of_regime_eq ?_).trans hnone,
      IsOver.notMem_holders fun run' hrun' => ?_⟩
    · exact (regime_finish _ id run _).trans (regime_note s rfl)
    · rw [show (finish _ id run _).runs = s.runs.erase id from
        congrArg Ledger.runs (ledger_finish (s.note _) id run _), Table.get?_erase,
          if_pos rfl] at hrun'
      cases hrun'
  · cases hspare : s.hasSparePermit with
    | true =>
      rw [accept_of_spare hspare]
      exact isAccounted_launch (s := s.letPass id run) hrun hnone ⟨_, _, List.mem_cons_self⟩ _
    | false =>
      rw [accept_of_not_spare hspare]
      refine .inl ⟨hnone, fun hmem => ?_⟩
      have hqueued := get?_runs_setPhase (s := s) hrun (.queued ⟨s.lifetime, false⟩) rfl
      exact Bool.false_ne_true ((mem_holders_of_get? hqueued).1 hmem)

/-- When the handler of a run returns, the run waits for another attempt, or ends with the result of
this one. -/
theorem isAccounted_endAttempt (hs : s.Reachable) (hrun : s.runs.get? id = some run) {token : Token}
    {due : Moment} {attempt : Nat} (hphase : run.phase = .executing token due attempt)
    {ending : Ending}
    (h : s.Transition (.step (.endAttempt id ending))
      (s.endAttempt id run token due attempt ending))
    (hacc : s.IsAccounted id) : (s.endAttempt id run token due attempt ending).IsAccounted id := by
  obtain ⟨number, trigger, deadline, calls, hcalls⟩ := hacc.exists_calls hrun (by rw [hphase]; rfl)
  obtain ⟨rfl, hafter⟩ := hcalls.phaseAfter hrun
  rw [hphase] at hafter
  cases hafter with
  | @executing _ began earlier =>
    let calls' : List HandlerCall := ⟨began, some (ending, s.clock)⟩ :: earlier
    have hcourse : IsCourse (s.retryOf run.record) calls' := hcalls.course.returns _
    have hfirst : calls'.getLast?.map (·.began) =
        (HandlerCall.mk began none :: earlier).getLast?.map (·.began) := by
      cases earlier <;> simp [calls']
    let noted := s.note (.ended id run.record earlier.length ending s.clock)
    have htold : callsTold noted.journal id = tellCalls id run.record trigger calls' := by
      rw [show noted.journal = _ :: s.journal from rfl, callsTold,
        List.filter_cons_of_pos (by simp [Entry.isCallOf])]
      exact congrArg _ hcalls.told
    rcases endAttempt_cases s id run token due earlier.length ending with
      ⟨policy, message, hretry, hleft, rfl, he⟩ | ⟨-, he⟩
    · rw [he] at h ⊢
      exact .inr ⟨_, _, _, _,
        hcalls.advance h hs hrun rfl htold hcourse hfirst (.resting token hretry hleft)⟩
    · rw [he] at h ⊢
      refine .inr ⟨_, _, _, _, hcalls.finish h hs hrun (by rw [hphase]; simp)
        (isOver_conclude (s := noted) hrun (hs.record_of_run hrun) _)
        ((callsTold_conclude noted id run _).trans htold) hcourse hfirst fun result hends => ?_⟩
      rw [hphase] at hends
      cases hends with
      | endAttempt => exact yields_result _ _ _ _

/-- When the wait of a run is over, it calls its handler again. -/
theorem isAccounted_retry (hs : s.Reachable) (hrun : s.runs.get? id = some run) {token : Token}
    {due wake : Moment} {attempt : Nat} {failure : JobError}
    (hphase : run.phase = .resting token due attempt wake failure) (hwake : wake ≤ s.clock)
    (h : s.Transition (.step (.retry id)) (s.attempt id run token due (attempt + 1)))
    (hacc : s.IsAccounted id) : (s.attempt id run token due (attempt + 1)).IsAccounted id := by
  obtain ⟨number, trigger, deadline, calls, hcalls⟩ := hacc.exists_calls hrun (by rw [hphase]; rfl)
  obtain ⟨rfl, hafter⟩ := hcalls.phaseAfter hrun
  rw [hphase] at hafter
  cases hafter with
  | @resting _ began moment earlier policy message hretry hleft =>
    have hjournal : (s.attempt id run token due (earlier.length + 1)).journal =
        .began id run.record (earlier.length + 1) .retry s.clock :: s.journal := rfl
    have htold : callsTold (s.attempt id run token due (earlier.length + 1)).journal id =
        tellCalls id run.record trigger (⟨s.clock, none⟩ ::
          ⟨began, some (.failed (.failed message true), moment)⟩ :: earlier) := by
      rw [hjournal, callsTold, List.filter_cons_of_pos (by simp [Entry.isCallOf])]
      exact congrArg _ hcalls.told
    exact .inr ⟨_, _, _, _, hcalls.advance h hs hrun rfl htold
      (hcalls.course.again hretry hleft hwake) (by rw [List.getLast?_cons_cons]) (.executing token)⟩

/-- A run that gives up its wait for another attempt ends with the failure of the last one. -/
theorem isAccounted_giveUp (hs : s.Reachable) (hrun : s.runs.get? id = some run) {token : Token}
    {due wake : Moment} {attempt : Nat} {failure : JobError}
    (hphase : run.phase = .resting token due attempt wake failure)
    (h : s.Transition (.step (.giveUp id)) (s.conclude id run (.error failure)))
    (hacc : s.IsAccounted id) : (s.conclude id run (.error failure)).IsAccounted id := by
  obtain ⟨number, trigger, deadline, calls, hcalls⟩ := hacc.exists_calls hrun (by rw [hphase]; rfl)
  obtain ⟨rfl, hafter⟩ := hcalls.phaseAfter hrun
  rw [hphase] at hafter
  cases hafter with
  | resting _ hretry hleft =>
    refine .inr ⟨_, _, _, _, hcalls.finish h hs hrun (by rw [hphase]; simp)
      (isOver_conclude hrun (hs.record_of_run hrun) _)
        ((callsTold_conclude s id run _).trans hcalls.told)
      hcalls.course rfl fun result hends => ?_⟩
    rw [hphase] at hends
    cases hends with
    | giveUp => exact .failed (by simp)

/-- A run that is cancelled keeps its calls as they are. -/
theorem isAccounted_revoke (hs : s.Reachable) (hrun : s.runs.get? id = some run)
    (hholds : run.phase.holdsPermit = true) {phase : Phase}
    {canceller : Canceller} (h : s.Transition (.step (.revoke id canceller)) (s.setPhase id phase))
    (hkept : ∀ retry deadline calls, PhaseAfter retry deadline calls run.phase →
      PhaseAfter retry deadline calls phase)
    (hacc : s.IsAccounted id) : (s.setPhase id phase).IsAccounted id := by
  obtain ⟨number, trigger, deadline, calls, hcalls⟩ := hacc.exists_calls hrun hholds
  exact .inr ⟨_, _, _, _, hcalls.advance h hs hrun rfl hcalls.told hcalls.course rfl
    (hkept _ _ _ (hcalls.phaseAfter hrun).2)⟩

/-- An event that does not go on with a run keeps its calls accounted for. -/
theorem IsAccounted.of_other (hacc : s.IsAccounted id) (h : s.Transition event s')
    (hs : s.Reachable) (hne : event.run? ≠ some id) : s'.IsAccounted id := by
  rcases hacc with ⟨hnone, hfree⟩ | ⟨number, trigger, deadline, calls, hcalls⟩
  · refine .inl ⟨(h.callsTold_eq hs hne).trans hnone, fun hmem => hfree ?_⟩
    obtain ⟨run', hrun', hholds⟩ := exists_of_mem_holders hmem
    rcases h.run_cases hs hrun' with ⟨run, hrun, -⟩ | ⟨-, hspawns⟩
    · have hleaves := h.leaves (hs.run_lt hrun) hne
      rw [Leaves, hrun, hrun'] at hleaves
      cases hleaves with
      | same => exact (mem_holders_of_get? hrun).2 hholds
      | stranded => cases hholds
    · rw [hspawns.phase] at hholds
      cases hholds
  · exact .inr ⟨_, _, _, _, hcalls.of_other h hs hne⟩

/-- Every event keeps the calls of every run accounted for. -/
theorem Transition.isAccounted (h : s.Transition event s') (hs : s.Reachable)
    (hacc : s.IsAccounted id) : s'.IsAccounted id := by
  by_cases hevent : event.run? = some id
  · have hkept := h
    cases h with
    | begin hrun hphase =>
      cases hevent
      exact isAccounted_begin hrun hphase hacc
    | cancel hrun hphase =>
      cases hevent
      have hnone := hacc.callsTold_eq_nil hrun (by rw [hphase]; rfl) (by rw [hphase]; simp)
      have hover := isOver_conclude (s := s.dequeue id) hrun (hs.record_of_run hrun)
        (.error .cancelled)
      exact .inl ⟨(callsTold_conclude _ id _ _).trans hnone, hover.notMem_holders⟩
    | acquire hrun hphase =>
      cases hevent
      have hnone := hacc.callsTold_eq_nil hrun (by rw [hphase]; rfl) (by rw [hphase]; simp)
      exact isAccounted_launch (s := s.dequeue id) hrun hnone
        (hs.admitted_of_run hrun (by rw [hphase]; simp)) _
    | endAttempt ending hrun hphase =>
      cases hevent
      exact isAccounted_endAttempt hs hrun hphase hkept hacc
    | retry hrun hphase hwake =>
      cases hevent
      exact isAccounted_retry hs hrun hphase hwake hkept hacc
    | giveUp hrun hphase =>
      cases hevent
      exact isAccounted_giveUp hs hrun hphase hkept hacc
    | revokeExecuting hrun hphase =>
      cases hevent
      refine isAccounted_revoke hs hrun (by rw [hphase]; rfl) hkept
        (fun retry deadline calls h => ?_) hacc
      rw [hphase] at h
      cases h with
      | executing => exact .executing _
    | revokeResting hrun hphase =>
      cases hevent
      refine isAccounted_revoke hs hrun (by rw [hphase]; rfl) hkept
        (fun retry deadline calls h => ?_) hacc
      rw [hphase] at h
      cases h with
      | resting _ hretry hleft => exact .resting _ hretry hleft
    | _ => cases hevent
  · exact hacc.of_other h hs hevent

/-- The calls of every run are accounted for. -/
theorem Reachable.isAccounted (hs : s.Reachable) (id : Nat) : s.IsAccounted id := by
  refine hs.step_induction (motive := fun s => s.IsAccounted id) (fun options now => .inl ⟨rfl, ?_⟩)
    fun _ _ _ hs h hacc => h.isAccounted hs hacc
  exact List.not_mem_nil

/-- A run that has called its handler is one whose calls are accounted for. -/
theorem Reachable.exists_calls (hs : s.Reachable) (h : callsTold s.journal id ≠ []) :
    ∃ number trigger deadline calls, s.Calls id number trigger deadline calls :=
  (hs.isAccounted id).resolve_left fun hnone => h hnone.1

end State

end CronDaemon.Scheduler
