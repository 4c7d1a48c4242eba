import CronDaemon.Proofs.Scheduler.HandlerCalls

/-!
# Cancelled runs and their retries

A run that is cancelled calls its handler again only in one way: it waits for another attempt, its
wait is over, and this comes first although the run could give up as well. So a cancelled run makes
no attempt any more if giving up always comes first; and if its delay is not zero, if it is
cancelled before its wait is over, and if it is looked at before more time passes.
-/

namespace CronDaemon.Scheduler

open Job

theorem lt_waitUntil {d : Duration} (h : 0 < d.nanos) (moment : Moment) :
    moment < waitUntil moment d := by
  by_cases hend : moment + d.nanos < clockEnd
  · rw [waitUntil_of_lt hend]
    exact Nat.lt_add_of_pos_right h
  · rw [waitUntil_of_le (Nat.not_lt.1 hend)]
    exact Nat.lt_add_of_pos_right (by decide)

/-- Only the passing of time moves the steady clock. -/
theorem Frame.Change.clock_cases {H : Type} {f f' : Frame H} {event : Event H}
    (h : f.Change event f') : f'.clock = f.clock ∨ ∃ time, event = .elapse time := by
  cases h with
  | elapse time => exact .inr ⟨time, rfl⟩
  | keep | register | remove | setEnabled | setClock | pass | refuse | tick | breakLoop | leave
  | openLoop => exact .inl rfl

namespace State

variable {H : Type} {s s' t u : State H} {events after : List (Event H)} {event : Event H}
  {id : Nat} {run run' : Run} {token : Token}

/-- An entry that a history adds to the journal is added by one of its events. -/
theorem exists_event_of_new (h : t.replay? events = some s) {entry : Entry}
    (hmem : entry ∈ s.journal) (hnew : entry ∉ t.journal) :
    ∃ event u u' after, t.Occurs events event u u' after ∧ entry ∈ u'.journal ∧
      entry ∉ u.journal := by
  refine history_induction (motive := fun events s => entry ∈ s.journal → ∃ event u u' after,
    t.Occurs events event u u' after ∧ entry ∈ u'.journal ∧ entry ∉ u.journal)
    (fun hmem => absurd hmem hnew) ?_ h hmem
  intro before event u u' hu hfire ih hmem
  by_cases hold : entry ∈ u.journal
  · obtain ⟨first, v, v', after, hoccurs, hwrites⟩ := ih hold
    exact ⟨first, v, v', after ++ [event], hoccurs.snoc event, hwrites⟩
  · exact ⟨event, u, u', [], Occurs.last hu hfire, hmem, hold⟩

/-- A cancelled run waits for another attempt after the one with this number, and its wait is over:
it may call its handler again, and it may as well give up. -/
structure Races (s : State H) (id attempt : Nat) : Prop where
  rests : ∃ run token deadline wake failure, s.runs.get? id = some run ∧
    run.phase = .resting token deadline attempt wake failure ∧ wake ≤ s.clock ∧
      s.isCancelled token = true
  retries : ∃ s', s.step? (.retry id) = some s'
  givesUp : ∃ s', s.step? (.giveUp id) = some s'

theorem races_of_resting {deadline wake : Moment} {attempt : Nat} {failure : JobError}
    (hrun : s.runs.get? id = some run)
    (hphase : run.phase = .resting token deadline attempt wake failure)
    (hwake : wake ≤ s.clock) (hcancelled : s.isCancelled token = true) : s.Races id attempt where
  rests := ⟨run, token, deadline, wake, failure, hrun, hphase, hwake, hcancelled⟩
  retries := ⟨s.attempt id run token deadline (attempt + 1),
    by simp only [step?, hrun, Option.bind_some, retry?, hphase, if_pos hwake]⟩
  givesUp := ⟨s.conclude id run (.error failure),
    by simp only [step?, hrun, Option.bind_some, giveUp?, hphase, hcancelled, if_true]⟩

/-- A cancelled run calls its handler only when its wait for another attempt is over. -/
theorem Transition.races_of_began (h : s.Transition event s') (hs : s.Reachable)
    (hrun : s.runs.get? id = some run)
    (hcut : (∃ token, run.phase.token? = some token ∧ s.isCancelled token = true) ∨
      run.phase = .stranded)
    {record attempt : Nat} {trigger : Trigger} {moment : Moment}
    (hmem : .began id record attempt trigger moment ∈ s'.journal)
    (hnew : .began id record attempt trigger moment ∉ s.journal) :
    event = .step (.retry id) ∧ ∃ previous, s.Races id previous ∧ attempt = previous + 1 := by
  cases (h.report_cases rfl hmem).resolve_left hnew with
  | @began _ _ _ other run' token' deadline _ hother hidle hrun' hphase' =>
    rw [hrun] at hother
    cases hother
    have hgoes := h.goes hs hrun hrun'
    rw [hphase'] at hgoes
    generalize hphase : run.phase = phase at hgoes hidle hcut
    cases hgoes with
    | stay | revokeExecuting => cases hidle
    | launch =>
      rcases hcut with ⟨token, htoken, -⟩ | hstranded
      · cases htoken
      · cases hstranded
    | acquire hlive =>
      rcases hcut with ⟨token, htoken, hcancelled⟩ | hstranded
      · cases htoken
        rw [hlive] at hcancelled
        cases hcancelled
      · cases hstranded
    | @retry _ _ _ previous _ hwake =>
      rcases hcut with ⟨token, htoken, hcancelled⟩ | hstranded
      · cases htoken
        exact ⟨rfl, previous, races_of_resting hrun hphase hwake hcancelled, rfl⟩
      · cases hstranded

/-- A run that is cancelled stays so for as long as it goes on. -/
theorem Reachable.stays_cancelled (hs : s.Reachable) (hrun : s.runs.get? id = some run)
    (htoken : run.phase.token? = some token) (hcancelled : s.isCancelled token = true)
    (h : s.replay? after = some u) (hrun' : u.runs.get? id = some run') :
    (∃ later, run'.phase.token? = some later ∧ u.isCancelled later = true) ∨
      run'.phase = .stranded := by
  refine (hs.token_continues hrun htoken h hrun').imp_left ?_
  rintro ⟨later, hlater, hcontinues⟩
  exact ⟨later, hlater, hs.isCancelled_of_continues h hcontinues hcancelled⟩

/-- Once a run is cancelled, each attempt that it still makes comes of a race. -/
theorem Reachable.exists_race_of_began (hs : s.Reachable) (hrun : s.runs.get? id = some run)
    (htoken : run.phase.token? = some token) (hcancelled : s.isCancelled token = true)
    (h : s.replay? after = some u) {record attempt : Nat} {trigger : Trigger} {moment : Moment}
    (hmem : .began id record attempt trigger moment ∈ u.journal)
    (hnew : .began id record attempt trigger moment ∉ s.journal) :
    ∃ t t' rest previous, s.Occurs after (.step (.retry id)) t t' rest ∧ t.Races id previous ∧
      attempt = previous + 1 := by
  obtain ⟨event, t, t', rest, hoccurs, hwritten, hunwritten⟩ := exists_event_of_new h hmem hnew
  obtain ⟨before, -, hbefore⟩ := hoccurs.split
  have ht : t.Reachable := hs.replay? hbefore
  have htransition := transition_of_fire? hoccurs.fires
  cases (htransition.report_cases rfl hwritten).resolve_left hunwritten with
  | began _ hrun' =>
    obtain ⟨rfl, previous, hraces, he⟩ := htransition.races_of_began ht hrun'
      (hs.stays_cancelled hrun htoken hcancelled hbefore hrun') hwritten hunwritten
    exact ⟨t, t', rest, previous, hoccurs, hraces, he⟩

/-- If the run waits for another attempt, its wait is not over. -/
def IsEarly (s : State H) (id : Nat) : Prop :=
  ∀ run token deadline attempt wake failure, s.runs.get? id = some run →
    run.phase = .resting token deadline attempt wake failure → s.clock < wake

/-- No time passes in the course of the events while the run waits for another attempt although it
is cancelled: it is looked at before. -/
def IsLookedAt (s : State H) (id : Nat) (events : List (Event H)) : Prop :=
  ∀ time t t' after, s.Occurs events (.elapse time) t t' after →
    ∀ run token deadline attempt wake failure, t.runs.get? id = some run →
      run.phase = .resting token deadline attempt wake failure → t.isCancelled token = false

theorem IsLookedAt.of_append (h : s.IsLookedAt id (events ++ after)) : s.IsLookedAt id events := by
  intro time t t' rest hoccurs
  obtain ⟨before, rfl, hbefore⟩ := hoccurs.split
  exact h time t t' (rest ++ after) ⟨⟨before, by simp, hbefore⟩, hoccurs.fires⟩

/-- A wait with a delay is not over as long as no time passes. -/
theorem Transition.isEarly (h : s.Transition event s') (hs : s.Reachable) (hlt : id < s.nextId)
    (hdelay : ∀ run policy, s.runs.get? id = some run → s.retryOf run.record = some policy →
      0 < policy.delay.nanos)
    (htimeless : ∀ run token deadline attempt wake failure, s.runs.get? id = some run →
      run.phase = .resting token deadline attempt wake failure → ∀ time, event ≠ .elapse time)
    (hearly : s.IsEarly id) : s'.IsEarly id := by
  intro run' token deadline attempt wake failure hrun' hphase'
  obtain ⟨run, hrun, -⟩ : ∃ run, s.runs.get? id = some run ∧ run.Continues run' :=
    h.moves.run_continues hlt hrun'
  have hgoes := h.goes hs hrun hrun'
  rw [hphase'] at hgoes
  generalize hphase : run.phase = phase at hgoes
  -- A run that rests after the event rested before, and no time has passed, or begins to rest now.
  cases hgoes with
  | stay =>
    rcases h.change.clock_cases with hclock | ⟨time, rfl⟩
    · rw [show s'.clock = s.clock from hclock]
      exact hearly run _ _ _ _ _ hrun hphase
    · exact absurd rfl (htimeless run _ _ _ _ _ hrun hphase time)
  | revokeResting =>
    rcases h.change.clock_cases with hclock | ⟨time, he⟩
    · rw [show s'.clock = s.clock from hclock]
      exact hearly run _ _ _ _ _ hrun hphase
    · cases he
  | rest ending =>
    cases h with
    | @endAttempt _ other _ _ number _ hother hphase =>
      rw [hrun] at hother
      cases hother
      let noted := s.note (.ended id run.record number ending s.clock)
      rcases endAttempt_cases s id run _ _ number ending with
        ⟨policy, message, hretry, -, rfl, he⟩ | ⟨-, he⟩
      · rw [he] at hrun' ⊢
        rw [phase_of_setPhase (s := noted) rfl hrun'] at hphase'
        cases hphase'
        exact lt_waitUntil (hdelay run policy hrun hretry) _
      · rw [he] at hrun'
        rw [isOver_conclude (s := noted) hrun (hs.record_of_run hrun) _ run' hrun'] at hphase'
        cases hphase'

/-- What a record says of its retries stays through a history. -/
theorem Reachable.retryOf_eq (hs : s.Reachable) (h : s.replay? after = some u) {number : Nat}
    {record : Record H} (hrecord : s.records.get? number = some record) :
    u.retryOf number = s.retryOf number := by
  refine history_induction (motive := fun _ u => u.retryOf number = s.retryOf number) rfl ?_ h
  intro before event t t' ht hfire ih
  obtain ⟨record', hrecord', -⟩ := hs.id_eq ht hrecord
  exact ((transition_of_fire? hfire).retryOf_eq (hs.replay? ht) hrecord').trans ih

/-- A run that is cancelled before its wait is over stays in a wait that is not over, if its delay
is not zero and it is looked at before more time passes. -/
theorem Reachable.isEarly (hs : s.Reachable) (hrun : s.runs.get? id = some run)
    (htoken : run.phase.token? = some token) (hcancelled : s.isCancelled token = true)
    (hdelay : ∀ policy, s.retryOf run.record = some policy → 0 < policy.delay.nanos)
    (hearly : s.IsEarly id) (h : s.replay? after = some u) (hlooked : s.IsLookedAt id after) :
    u.IsEarly id := by
  refine history_induction (motive := fun after u => s.IsLookedAt id after → u.IsEarly id)
    (fun _ => hearly) ?_ h hlooked
  intro before event t t' ht hfire ih hlooked
  have hlt : id < t.nextId :=
    Nat.lt_of_lt_of_le (hs.run_lt hrun) (Ledger.Moves.nextId_le (replay?_moves ht))
  refine (transition_of_fire? hfire).isEarly (hs.replay? ht) hlt
    (fun run' policy hrun' hpolicy => ?_) ?_ (ih hlooked.of_append)
  · obtain ⟨first, hfirst, hcontinues⟩ := (replay?_moves ht).run_continues (hs.run_lt hrun) hrun'
    rw [show s.runs.get? id = some first from hfirst] at hrun
    cases hrun
    obtain ⟨record, hrecord⟩ := hs.record_of_run hfirst
    rw [hcontinues.record, hs.retryOf_eq ht hrecord] at hpolicy
    exact hdelay policy hpolicy
  · rintro run' token' deadline attempt wake failure hrun' hphase' time rfl
    have hlive := hlooked time t t' [] (Occurs.last ht hfire) run' _ _ _ _ _ hrun' hphase'
    rcases hs.stays_cancelled hrun htoken hcancelled ht hrun' with
      ⟨later, hlater, hstill⟩ | hstranded
    · rw [hphase'] at hlater
      cases hlater
      rw [hlive] at hstill
      cases hstill
    · rw [hphase'] at hstranded
      cases hstranded

/-- Once a run is cancelled, by its deadline or by a stop, its handler is called again only by a
retry whose wait is over, at a moment at which the run could as well give up, and never for a first
attempt. So it is not called again if the run is not retried, as where giving up always comes first;
nor if the delay of its policy is not zero, no wait of it was over when it was cancelled, and it is
looked at before more time passes. -/
theorem began_after_cancellation (hs : s.Reachable) (hrun : s.runs.get? id = some run)
    (htoken : run.phase.token? = some token) (hcancelled : s.isCancelled token = true)
    (h : s.replay? after = some u) :
    (∀ record attempt trigger moment, .began id record attempt trigger moment ∈ u.journal →
      .began id record attempt trigger moment ∉ s.journal →
      ∃ t t' rest previous, s.Occurs after (.step (.retry id)) t t' rest ∧ t.Races id previous ∧
        attempt = previous + 1) ∧
    (.step (.retry id) ∉ after ∨
      (∀ policy, s.retryOf run.record = some policy → 0 < policy.delay.nanos) ∧
        s.IsEarly id ∧ s.IsLookedAt id after →
      ∀ record attempt trigger moment, .began id record attempt trigger moment ∈ u.journal →
        .began id record attempt trigger moment ∈ s.journal) := by
  refine ⟨fun record attempt trigger moment => hs.exists_race_of_began hrun htoken hcancelled h,
    fun hcalm record attempt trigger moment hmem => Classical.byContradiction fun hnew => ?_⟩
  obtain ⟨t, t', rest, previous, hoccurs, hraces, -⟩ :=
    hs.exists_race_of_began hrun htoken hcancelled h hmem hnew
  obtain ⟨before, rfl, hbefore⟩ := hoccurs.split
  rcases hcalm with hnever | ⟨hdelay, hearly, hlooked⟩
  · simp at hnever
  · -- Up to the retry the wait is not over, which contradicts that it is.
    have hwaits := hs.isEarly hrun htoken hcancelled hdelay hearly hbefore hlooked.of_append
    obtain ⟨run', token', deadline, wake, failure, hrun', hphase', hwake, -⟩ := hraces.rests
    exact Nat.not_lt.2 hwake (hwaits run' token' deadline previous wake failure hrun' hphase')

/-- The standard options with one second for a run. -/
def hurried : Options := { Options.standard with taskTimeout := .ofSecs 1 }

/-- A run of a task with this retry policy executes until its deadline, and is cancelled. -/
def untilCancelled (policy : RetryPolicy) : List (Event Unit) :=
  [.request (.register { TaskSpec.new "backup" () with retry := some policy }),
    .request (.runNow true "backup"), .step (.begin 1), .elapse Duration.second,
      .step (.revoke 1 .watchdog)]

/-- The attempt fails, and the run gives up before more time passes. -/
def givingUp : List (Event Unit) :=
  [.step (.endAttempt 1 (.failed (.failed "disk full" true))), .step (.giveUp 1)]

/-- With a delay of five seconds between its attempts the run, which is looked at before more time
passes, makes no further attempt. -/
theorem began_after_cancellation_of_fiveSeconds :
    ∃ s u run, (initial hurried someMorning).replay? (untilCancelled ⟨3, .ofSecs 5⟩) = some s ∧
      s.runs.get? 1 = some run ∧ run.phase.token? = some ⟨0, true⟩ ∧
        s.isCancelled ⟨0, true⟩ = true ∧
      s.replay? (givingUp ++ [.elapse (5 * Duration.second)]) = some u ∧
      s.IsLookedAt 1 (givingUp ++ [.elapse (5 * Duration.second)]) ∧
      ∀ record attempt trigger moment, .began 1 record attempt trigger moment ∈ u.journal →
        .began 1 record attempt trigger moment ∈ s.journal := by
  obtain ⟨u, hreplay⟩ : ∃ u, (initial hurried someMorning).replay?
      (untilCancelled ⟨3, .ofSecs 5⟩ ++ (givingUp ++ [.elapse (5 * Duration.second)])) = some u :=
    Option.isSome_iff_exists.1 (by decide)
  obtain ⟨s, hs, hu⟩ := replay?_append_iff.1 hreplay
  have hreachable : s.Reachable := ⟨hurried, someMorning, _, untilCancelled ⟨3, .ofSecs 5⟩, rfl, hs⟩
  have hlook : ((initial hurried someMorning).replay? (untilCancelled ⟨3, .ofSecs 5⟩)).map (fun s =>
      (s.runs.get? 1, s.retryOf 0)) =
      some (some ⟨0, .manual, .dispatched, .executing ⟨0, true⟩ Duration.second 0⟩,
        some ⟨3, .ofSecs 5⟩) := by decide
  rw [hs, Option.map_some, Option.some.injEq, Prod.mk.injEq] at hlook
  obtain ⟨hrun, hretry⟩ := hlook
  have hlooked : s.IsLookedAt 1 (givingUp ++ [.elapse (5 * Duration.second)]) := by
    intro time t t' rest hoccurs run token deadline attempt wake failure hrun' hphase
    rcases hoccurs.of_snoc with ⟨_, -, hearlier⟩ | ⟨-, -, ht⟩
    · obtain ⟨before, he, -⟩ := hearlier.split
      have hmem : .elapse time ∈ givingUp := he ▸ by simp
      simp [givingUp] at hmem
    · -- The run is over when time passes.
      have hgone :
          ((initial hurried someMorning).replay? (untilCancelled ⟨3, .ofSecs 5⟩ ++ givingUp)).map
          (·.runs.get? 1) = some none := by decide
      rw [replay?_append_iff.2 ⟨s, hs, ht⟩, Option.map_some, hrun'] at hgone
      cases hgone
  refine ⟨s, u, _, hs, hrun, rfl, rfl, hu, hlooked, ?_⟩
  refine (began_after_cancellation hreachable hrun rfl rfl hu).2
    (.inr ⟨fun policy hpolicy => ?_, ?_, hlooked⟩)
  · rw [hretry] at hpolicy
    cases hpolicy
    decide
  · intro run token deadline attempt wake failure hrun' hphase
    rw [hrun] at hrun'
    cases hrun'
    cases hphase

/-- A cancelled run may make a further attempt: with a delay of zero its wait is over at once, and
the retry may come before the run gives up. -/
theorem not_forall_began_before_cancellation :
    ¬ ∀ (s u : State Unit) (after : List (Event Unit)) (id : Nat) (run : Run) (token : Token),
      s.Reachable →
      s.runs.get? id = some run → run.phase.token? = some token → s.isCancelled token = true →
      s.replay? after = some u → ∀ record attempt trigger moment,
        .began id record attempt trigger moment ∈ u.journal →
          .began id record attempt trigger moment ∈ s.journal := by
  intro hall
  let after : List (Event Unit) :=
    [.step (.endAttempt 1 (.failed (.failed "disk full" true))), .step (.retry 1)]
  obtain ⟨u, hu⟩ : ∃ u, (initial hurried someMorning).replay?
    (untilCancelled ⟨1, .ofSecs 0⟩ ++ after) =
      some u := Option.isSome_iff_exists.1 (by decide)
  obtain ⟨s, hs, hafter⟩ := replay?_append_iff.1 hu
  have hreachable : s.Reachable := ⟨hurried, someMorning, _, untilCancelled ⟨1, .ofSecs 0⟩, rfl, hs⟩
  have hbefore : ((initial hurried someMorning).replay? (untilCancelled ⟨1, .ofSecs 0⟩)).map
      (fun s =>
      (s.runs.get? 1, s.journal)) =
      some (some ⟨0, .manual, .dispatched, .executing ⟨0, true⟩ Duration.second 0⟩,
        [.began 1 0 0 .manual 0, .admitted 1 0 .manual 0 someMorning, .registered 0 someMorning]) :=
        rfl
  have hwritten :
      ((initial hurried someMorning).replay? (untilCancelled ⟨1, .ofSecs 0⟩ ++ after)).bind
      (·.journal.head?) = some (.began 1 0 1 .retry Duration.second) := rfl
  rw [hs, Option.map_some, Option.some.injEq, Prod.mk.injEq] at hbefore
  rw [hu, Option.bind_some] at hwritten
  obtain ⟨hrun, hjournal⟩ := hbefore
  have hmem := hall s u after 1 _ _ hreachable hrun rfl rfl hafter _ _ _ _
    (List.mem_of_head? hwritten)
  rw [hjournal] at hmem
  simp at hmem

end State

end CronDaemon.Scheduler
