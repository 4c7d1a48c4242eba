import CronDaemon.Proofs.Scheduler.HandlerCalls

/-!
# Attempts and the record of a run

The attempts of a run are those that the retry policy of its task allows, under one number, one
token and one deadline, and their last one gives the result of the run. A run that does not break
off is recorded once, so that it counts for one run, and for one failure if it failed.
-/

namespace CronDaemon.Scheduler

open Job

namespace State

variable {H : Type} {start s s' u : State H} {events after : List (Event H)} {event : Event H}
  {id number : Nat} {run run' : Run} {trigger : Trigger} {deadline : Moment}
  {calls : List HandlerCall}

/-- How often a run was recorded on a record as failed. -/
def timesFailed (s : State H) (number id : Nat) : Nat :=
  (recordedOn s.journal number).countP fun recording => recording.run = id && recording.isFailure

/-- A run fails no more often than it is recorded. -/
theorem timesFailed_le (s : State H) (number id : Nat) :
    s.timesFailed number id ≤ s.timesRecorded number id := by
  rw [timesFailed, timesRecorded, List.count, List.countP_map]
  refine List.countP_mono_left fun recording _ h => ?_
  rw [Bool.and_eq_true, decide_eq_true_eq] at h
  exact beq_iff_eq.2 h.1

/-- After an attempt has ended, the run goes on exactly if its task is attempted again. -/
theorem Calls.inProgress_iff_asksAgain (h : s.Calls id number trigger deadline calls)
    (hs : s.Reachable)
    {ending : Ending} (hfire : s.fire? (.step (.endAttempt id ending)) = some u) :
    u.InProgress number id ↔ AsksAgain (s.retryOf number) (calls.length - 1) ending := by
  cases transition_of_fire? hfire with
  | @endAttempt _ run token _ attempt _ hrun hphase =>
    obtain ⟨rfl, hafter⟩ := h.phaseAfter hrun
    rw [hphase] at hafter
    cases hafter with
    | @executing _ began earlier =>
      rw [List.length_cons, Nat.add_sub_cancel]
      let noted := s.note (.ended id run.record earlier.length ending s.clock)
      rcases endAttempt_cases s id run token _ earlier.length ending with
        ⟨policy, message, hretry, hleft, rfl, he⟩ | ⟨hnot, he⟩
      · rw [he]
        refine iff_of_true ⟨_, get?_runs_setPhase (s := noted) hrun _ rfl, rfl, rfl⟩ ?_
        exact ⟨policy, message, hretry, hleft, rfl⟩
      · rw [he]
        refine iff_of_false ?_ hnot
        rintro ⟨run', hrun', -, hactive⟩
        rw [isOver_conclude (s := noted) hrun (hs.record_of_run hrun) _ run' hrun'] at hactive
        cases hactive

/-- A run in progress that an event ends was recorded, or has broken off: its last attempt has
ended, or it was cancelled while it waited for another one. -/
theorem Calls.ends_or_stranded (h : s.Calls id number trigger deadline calls) (hs : s.Reachable)
    (hfire : s.fire? event = some u) (hrun : s.runs.get? id = some run) (hover : u.IsOver id) :
    u.IsStranded number id ∨ ∃ result finished, s.Ends id event run.phase result ∧
      .recorded id number result finished ∈ u.journal := by
  obtain ⟨rfl, hafter⟩ := h.phaseAfter hrun
  have hpast : run.phase ≠ .spawned := by
    intro hspawned
    rw [hspawned] at hafter
    cases hafter
  exact ((transition_of_fire? hfire).recorded_or_stranded hs hrun hpast hover).imp_right And.right

/-- While a run goes on it keeps its deadline and its token, which stays cancelled once it is. -/
theorem Calls.keeps (h : s.Calls id number trigger deadline calls) (hs : s.Reachable)
    (hrun : s.runs.get? id = some run) (hlater : s.replay? after = some u)
    (hrun' : u.runs.get? id = some run') :
    (∀ due, run'.phase.deadline? = some due → due = deadline) ∧
      ∀ token token', run.phase.token? = some token → run'.phase.token? = some token' →
        token'.lifetime = token.lifetime ∧
          (s.isCancelled token = true → u.isCancelled token' = true) := by
  constructor
  · intro due hdue
    obtain ⟨-, hafter⟩ := h.phaseAfter hrun
    generalize hphase : run.phase = phase at hafter
    cases hafter with
    | executing | resting => exact hs.deadline_eq hrun (by rw [hphase]; rfl) hlater hrun' hdue
    | stranded =>
      obtain ⟨mid, hmid, hcontinues⟩ := (replay?_moves hlater).run_continues (hs.run_lt hrun) hrun'
      rw [show s.runs.get? id = some mid from hmid] at hrun
      cases hrun
      rw [hcontinues.stranded hphase] at hdue
      cases hdue
  · intro token token' htoken htoken'
    rcases hs.token_continues hrun htoken hlater hrun' with ⟨later, hsame, hcontinues⟩ | hstranded
    · rw [htoken'] at hsame
      cases hsame
      exact ⟨hcontinues.1, hs.isCancelled_of_continues hlater hcontinues⟩
    · rw [hstranded] at htoken'
      cases htoken'

/-- The attempts of a run are numbered from zero on, under the number of the run, the first one with
the trigger with which it passed the guard and the others as retries; no attempt is made without a
policy but the first one, and no more than the policy has retries. Another attempt follows only one
that ended with a failure for which another attempt may help, and not before the delay of the policy
is over; whatever else an attempt ends with, the run goes on no more. Its deadline counts from the
first attempt, and it keeps the deadline and the token throughout. A run that is over was recorded
with the result of its last attempt: a panic as such, a cancellation at or after the deadline as the
end of the time allowed, and the last failure where it gave up waiting for another attempt. It
counts for one run of its record, and for at most one failure, and on no other record; only a run
that breaks off is never recorded, and none breaks off as long as nothing makes a run break off. -/
theorem attempts_follow_policy {options : Options} {now : Instant}
    (hcreate : create? options now = some start) (hreplay : start.replay? events = some s)
    (hcalled : callsTold s.journal id ≠ []) :
    ∃ number record trigger deadline calls, s.records.get? number = some record ∧
      s.retryOf number = record.retry ∧ s.Calls id number trigger deadline calls ∧
      s.options.taskTimeout = options.taskTimeout ∧
      (∀ ending u, s.fire? (.step (.endAttempt id ending)) = some u →
        (u.InProgress number id ↔ AsksAgain record.retry (calls.length - 1) ending)) ∧
      (∀ event u run, s.fire? event = some u → s.runs.get? id = some run → u.IsOver id →
        u.IsStranded number id ∨ ∃ result finished, s.Ends id event run.phase result ∧
          .recorded id number result finished ∈ u.journal) ∧
      (∀ run, s.runs.get? id = some run → ∀ after u run', s.replay? after = some u →
        u.runs.get? id = some run' →
        (∀ due, run'.phase.deadline? = some due → due = deadline) ∧
        ∀ token token', run.phase.token? = some token → run'.phase.token? = some token' →
          token'.lifetime = token.lifetime ∧
            (s.isCancelled token = true → u.isCancelled token' = true)) ∧
      record.runCount = (recordedOn s.journal number).length ∧
      record.failureCount = (recordedOn s.journal number).countP (·.isFailure) ∧
      (s.timesRecorded number id = 1 ∧ ¬ s.InProgress number id ∧ ¬ s.IsStranded number id ∨
        s.timesRecorded number id = 0 ∧ (s.InProgress number id ∨ s.IsStranded number id)) ∧
      s.timesFailed number id ≤ 1 ∧
      (∀ other, other ≠ number → s.timesRecorded other id = 0) ∧
      (start.StaysUntroubled events → ¬ s.IsStranded number id) := by
  have hstart : start.Reachable := .of_create? hcreate
  have hs : s.Reachable := hstart.replay? hreplay
  obtain ⟨number, trigger, deadline, calls, hcalls⟩ := hs.exists_calls hcalled
  obtain ⟨record, hrecord⟩ := hs.record_of_hasPassed hcalls.hasPassed
  have hretry : s.retryOf number = record.retry := by rw [retryOf, hrecord, Option.bind_some]
  have hoptions : s.options.taskTimeout = options.taskTimeout := by
    rw [(options_of_replay? hcreate hreplay).1, Options.normalized_taskTimeout]
  have hnone : ∀ number, start.records.get? number = none :=
    eq_initial_of_create? hcreate ▸ fun _ => rfl
  obtain ⟨spec, -, -, -, -, -, -, htallies⟩ := exists_tallies hstart hnone hreplay hrecord
  -- A run that made an attempt has passed the guard, so that its result counts once or is due.
  have honce := hs.recorded_or_outstanding hcalls.hasPassed
  refine ⟨number, record, trigger, deadline, calls, hrecord, hretry, hcalls, hoptions,
    fun ending u hfire => hretry ▸ hcalls.inProgress_iff_asksAgain hs hfire,
    fun event u run hfire hrun hover => hcalls.ends_or_stranded hs hfire hrun hover,
    fun run hrun after u run' hlater hrun' => hcalls.keeps hs hrun hlater hrun',
    htallies.runCount, htallies.failureCount, honce, ?_, fun other hne => ?_,
    fun huntroubled => not_isStranded_of_staysUntroubled hcreate huntroubled hreplay number id⟩
  · have hle := s.timesFailed_le number id
    omega
  · exact hs.timesRecorded_eq_zero fun h => hne (hs.isOrderly.one_record h hcalls.hasPassed)

/-- A task that may be attempted twice again, five seconds after a failure. Its run fails, and
panics when it is attempted again. -/
def panicsWhenRetried : List (Event Unit) :=
  [.request (.register { TaskSpec.new "backup" () with retry := some ⟨2, .ofSecs 5⟩ }),
    .request (.runNow true "backup"), .step (.begin 1),
    .step (.endAttempt 1 (.failed (.failed "disk full" true))), .elapse (5 * Duration.second),
    .step (.retry 1), .step (.endAttempt 1 (.panicked none))]

/-- The run has made two attempts and is recorded once, with the panic of the second one. -/
theorem attempts_follow_policy_of_panicsWhenRetried :
    ∃ start s trigger deadline calls, create? Options.standard someMorning = some start ∧
      start.replay? panicsWhenRetried = some s ∧ (callsTold s.journal 1).length = 4 ∧
      s.Calls 1 0 trigger deadline calls ∧ s.timesRecorded 0 1 = 1 ∧ s.timesFailed 0 1 ≤ 1 ∧
      ¬ s.InProgress 0 1 := by
  have hcreate : create? Options.standard someMorning =
      some (initial Options.standard someMorning : State Unit) := rfl
  obtain ⟨s, hs⟩ : ∃ s, (initial Options.standard someMorning).replay? panicsWhenRetried = some s :=
    Option.isSome_iff_exists.1 (by decide)
  have hlook : ((initial Options.standard someMorning).replay? panicsWhenRetried).map (fun s =>
      ((callsTold s.journal 1).length, admittedOn s.journal 0, s.timesRecorded 0 1)) =
      some (4, [1], 1) := by decide
  rw [hs, Option.map_some, Option.some.injEq, Prod.mk.injEq, Prod.mk.injEq] at hlook
  obtain ⟨hlength, hadmitted, htimes⟩ := hlook
  have hcalled : callsTold s.journal 1 ≠ [] := by
    intro hnil
    rw [hnil] at hlength
    cases hlength
  obtain ⟨number, record, trigger, deadline, calls, -, -, hcalls, -, -, -, -, -, -, honce,
    hfailed, -⟩ := attempts_follow_policy hcreate hs hcalled
  have hreachable : s.Reachable :=
    ⟨Options.standard, someMorning, _, panicsWhenRetried, hcreate, hs⟩
  have hpassed : HasPassed s.journal 0 1 := mem_admittedOn_iff.1 (by rw [hadmitted]; simp)
  obtain rfl : number = 0 := hreachable.isOrderly.one_record hcalls.hasPassed hpassed
  refine ⟨_, s, trigger, deadline, calls, hcreate, hs, hlength, hcalls, htimes, hfailed, ?_⟩
  rcases honce with ⟨-, hover, -⟩ | ⟨hzero, -⟩
  · exact hover
  · rw [htimes] at hzero
    cases hzero

/-- A run that has called its handler need neither be recorded nor in progress: where the clock
cannot be read when its handler returns, the run breaks off, and its task stays running. -/
theorem not_forall_recorded_of_called :
    ¬ ∀ s : State Unit, s.Reachable → ∀ number id, HasPassed s.journal number id →
      callsTold s.journal id ≠ [] → s.timesRecorded number id = 1 ∨ s.InProgress number id := by
  intro hall
  let events : List (Event Unit) := oneRequest ++
    [.request (.setClock beforeTheEpoch), .step (.endAttempt 1 (.completed "done"))]
  obtain ⟨s, hs⟩ : ∃ s, (initial Options.standard someMorning).replay? events = some s :=
    Option.isSome_iff_exists.1 (by decide)
  have hreachable : s.Reachable := ⟨Options.standard, someMorning, _, events, rfl, hs⟩
  have hlook : ((initial Options.standard someMorning).replay? events).map (fun s =>
      (admittedOn s.journal 0, (callsTold s.journal 1).length, s.timesRecorded 0 1,
        s.runs.get? 1)) =
      some ([1], 2, 0, some ⟨0, .manual, .dispatched, .stranded⟩) := by decide
  rw [hs, Option.map_some, Option.some.injEq, Prod.mk.injEq, Prod.mk.injEq, Prod.mk.injEq] at hlook
  obtain ⟨hadmitted, hlength, htimes, hrun⟩ := hlook
  have hcalled : callsTold s.journal 1 ≠ [] := by
    intro hnil
    rw [hnil] at hlength
    cases hlength
  rcases hall s hreachable 0 1 (mem_admittedOn_iff.1 (by rw [hadmitted]; simp)) hcalled with h | h
  · rw [htimes] at h
    cases h
  · exact h.not_isStranded ⟨_, hrun, rfl, rfl⟩

end State

end CronDaemon.Scheduler
