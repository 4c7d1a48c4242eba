import CronDaemon.Proofs.Scheduler.Calls
import CronDaemon.Proofs.Scheduler.Regime
import CronDaemon.Proofs.Scheduler.Tally

/-!
# What a stop waits for

A stop that takes the loop handle finds no start at its catch-up runs, since that start would hold
the lock, and it is woken only when no dispatched run is left. So if it returns before its wait is
over, the runs that had passed the guard are recorded, up to those that broke off. Runs that a
trigger waits for are not dispatched, and the stop does not wait for them.
-/

namespace CronDaemon.Scheduler

open Job

namespace State

variable {H : Type} {start s t u : State H} {events after : List (Event H)} {id c : Nat} {run : Run}
  {call : Call} {limit : Moment} {woken : Bool}

/-- In the course of the events the stop took the loop handle, began to wait for dispatched runs
until the limit, and, if it was woken, no dispatched run was left at some moment. -/
structure Drains (s : State H) (events : List (Event H)) (c : Nat) (limit : Moment) (woken : Bool) :
    Prop where
  takes : ∃ t t' after, s.Occurs events (.step (.proceed c)) t t' after ∧ t.TakesHandle c
  begins : ∃ t t' after, s.Occurs events (.step (.proceed c)) t t' after ∧
    limit = waitUntil t.clock t.options.shutdownGrace
  empties : woken = true → ∃ before after t, events = before ++ after ∧
    s.replay? before = some t ∧ t.dispatched = []

/-- Where a stop stands, with what happened to it in the course of the events. -/
inductive Stands (s : State H) (events : List (Event H)) (c : Nat) : Call → Prop
  | stopping : Stands s events c .stopping
  | leaving {loop : Nat}
      (takes : ∃ t t' after, s.Occurs events (.step (.proceed c)) t t' after ∧ t.TakesHandle c) :
      Stands s events c (.leaving loop)
  | draining {limit : Moment} {woken : Bool} (h : s.Drains events c limit woken) :
      Stands s events c (.draining limit woken)
  | returned {reply : Reply} : Stands s events c (.returned reply)

theorem Stands.isStop (h : s.Stands events c call) : call.IsStop := by
  cases h <;> trivial

theorem Drains.snoc (h : s.Drains events c limit woken) (event : Event H) :
    s.Drains (events ++ [event]) c limit woken := by
  obtain ⟨⟨t, t', after, htakes, hhandle⟩, ⟨u, u', rest, hbegins, hlimit⟩, hempties⟩ := h
  refine ⟨⟨t, t', after ++ [event], htakes.snoc event, hhandle⟩,
    ⟨u, u', rest ++ [event], hbegins.snoc event, hlimit⟩, fun hwoken => ?_⟩
  obtain ⟨before, last, v, rfl, hv, hempty⟩ := hempties hwoken
  exact ⟨before, last ++ [event], v, List.append_assoc _ _ _, hv, hempty⟩

theorem Stands.snoc (h : s.Stands events c call) (event : Event H) :
    s.Stands (events ++ [event]) c call := by
  cases h with
  | stopping => exact .stopping
  | leaving takes =>
    obtain ⟨t, t', after, hoccurs, hhandle⟩ := takes
    exact .leaving ⟨t, t', after ++ [event], hoccurs.snoc event, hhandle⟩
  | draining h => exact .draining (h.snoc event)
  | returned => exact .returned

/-- A stop that hears that no dispatched run is left is woken. -/
theorem Stands.wake (h : s.Stands events c call) (hreplay : s.replay? events = some t)
    (hempty : t.dispatched = []) : s.Stands events c call.wake := by
  cases h with
  | stopping => exact .stopping
  | leaving takes => exact .leaving takes
  | draining h =>
    refine .draining ⟨h.takes, h.begins, fun _ => ?_⟩
    exact ⟨events, [], t, (List.append_nil _).symm, hreplay, hempty⟩
  | returned => exact .returned

theorem get?_calls_drain (s : State H) (c : Nat) : (s.drain c).calls.get? c =
    some (.draining (waitUntil s.clock s.options.shutdownGrace) s.dispatched.isEmpty) := by
  have hframe := frame_wakeStops { s with running := false, closed := true }
  have hdispatched := dispatched_wakeStops { s with running := false, closed := true }
  have hlimit : waitUntil { s with running := false, closed := true }.wakeStops.clock
      { s with running := false, closed := true }.wakeStops.options.shutdownGrace =
      waitUntil s.clock s.options.shutdownGrace :=
    congrArg (fun f : Frame H => waitUntil f.clock f.options.shutdownGrace) hframe
  simp only [drain, setCall, Table.get?_insert, if_true, hlimit, hdispatched]
  rfl

/-- A step of a stop takes the handle, begins to wait, or returns. -/
theorem Stands.proceed (h : s.Stands events c call) (hreplay : s.replay? events = some t)
    (hcall : t.calls.get? c = some call) (hstep : t.proceed? c = some u) :
    ∃ call', u.calls.get? c = some call' ∧ s.Stands (events ++ [.step (.proceed c)]) c call' := by
  have hoccurs : s.Occurs (events ++ [.step (.proceed c)]) (.step (.proceed c)) t u [] :=
    Occurs.last hreplay hstep
  cases h with
  | stopping =>
    simp only [proceed?, hcall] at hstep
    split at hstep <;> cases hstep
    next hnext =>
    cases hhandle : t.handle with
    | none =>
      refine ⟨.returned .stopped, ?_, .returned⟩
      simp only [enterStop, hhandle, reply, setCall, Table.get?_insert, if_true]
    | some loop =>
      refine ⟨.leaving loop, ?_, .leaving ⟨t, _, [], hoccurs, hcall, hnext, by rw [hhandle]; rfl⟩⟩
      simp only [enterStop, hhandle, setCall, Table.get?_insert, if_true]
  | leaving takes =>
    simp only [proceed?, hcall] at hstep
    split at hstep <;> cases hstep
    obtain ⟨v, v', after, htakes, hhandle⟩ := takes
    refine ⟨_, t.get?_calls_drain c, .draining ⟨⟨v, v', _, htakes.snoc _, hhandle⟩,
      ⟨t, _, [], hoccurs, rfl⟩, fun hwoken => ?_⟩⟩
    exact ⟨events, [_], t, rfl, hreplay, List.isEmpty_iff.1 hwoken⟩
  | draining h =>
    simp only [proceed?, hcall] at hstep
    split at hstep <;> cases hstep
    refine ⟨.returned .stopped, ?_, .returned⟩
    simp only [endStop, reply, setCall, Table.get?_insert, if_true]
  | returned =>
    simp only [proceed?, hcall] at hstep
    cases hstep

/-- A stop that has been called stands somewhere ever after. -/
theorem exists_stands (hs : s.Reachable) (hcall : s.calls.get? c = some .stopping)
    (h : s.replay? events = some t) :
    ∃ call, t.calls.get? c = some call ∧ s.Stands events c call := by
  refine history_induction (motive := fun events t =>
    ∃ call, t.calls.get? c = some call ∧ s.Stands events c call) ⟨_, hcall, .stopping⟩ ?_ h
  intro before event t t' ht hfire ih
  obtain ⟨call, hcall, hstands⟩ := ih
  have hreplay : s.replay? (before ++ [event]) = some t' :=
    replay?_append_iff.2 ⟨t, ht, replay?_singleton_iff.2 hfire⟩
  rcases (transition_of_fire? hfire).stop_cases (hs.replay? ht) hcall hstands.isStop with
    rfl | hsame | ⟨hwoken, hempty⟩
  · exact hstands.proceed ht hcall hfire
  · exact ⟨call, hsame, hstands.snoc event⟩
  · exact ⟨call.wake, hwoken, (hstands.snoc event).wake hreplay hempty⟩

theorem phase_of_dispatched_eq_nil (h : s.dispatched = []) (hrun : s.runs.get? id = some run)
    (howner : run.owner = .dispatched) : run.phase = .stranded := by
  rw [dispatched, List.map_eq_nil_iff, List.filter_eq_nil_iff] at h
  have hnot := h (id, run) (Table.mem_entries_iff.2 hrun)
  simpa [howner] using hnot

/-- The run was started by a trigger, which waits for it. -/
def IsTriggered (s : State H) (id : Nat) : Prop :=
  ∃ run caller parts, s.runs.get? id = some run ∧ run.owner = .call caller ∧
    s.calls.get? caller = some (.triggering parts) ∧ .run id ∈ parts

/-- A run that was there when a stop was called and still goes on when the stop has been woken was
started by a trigger. -/
theorem Drains.isTriggered (h : s.Drains events c limit true) (hs : s.Reachable)
    (hreplay : s.replay? (events ++ after) = some t) {run' : Run} (hrun : s.runs.get? id = some run)
    (hrun' : t.runs.get? id = some run') (hlive : run'.phase ≠ .stranded) : t.IsTriggered id := by
  -- The run goes on in every state in between, with the same owner and trigger.
  have hbetween : ∀ before rest v, events ++ after = before ++ rest → s.replay? before = some v →
      ∃ mid, v.runs.get? id = some mid ∧ mid.phase ≠ .stranded ∧ run'.owner = mid.owner ∧
        run'.trigger = mid.trigger := by
    intro before rest v he hv
    obtain ⟨v', hv', hrest⟩ := replay?_append_iff.1 (he ▸ hreplay)
    rw [hv] at hv'
    cases hv'
    have hlt : id < v.nextId := Nat.lt_of_lt_of_le (hs.run_lt hrun)
      (Ledger.Moves.nextId_le (replay?_moves hv))
    obtain ⟨mid, hmid, hcontinues⟩ := Ledger.Moves.run_continues (replay?_moves hrest) hlt hrun'
    exact ⟨mid, hmid, fun hstranded => hlive (hcontinues.stranded hstranded), hcontinues.owner,
      hcontinues.trigger⟩
  cases howner : run'.owner with
  | dispatched =>
    obtain ⟨before, rest, v, rfl, hv, hempty⟩ := h.empties rfl
    obtain ⟨mid, hmid, hgoes, hsame, -⟩ := hbetween before (rest ++ after) v (by simp) hv
    exact absurd (phase_of_dispatched_eq_nil hempty hmid (hsame.symm.trans howner)) hgoes
  | call caller =>
    obtain ⟨call, hcall, hawaits⟩ :=
      (hs.replay? hreplay).isAwaited.awaited id run' caller hrun' hlive howner
    cases call with
    | triggering parts => exact ⟨run', caller, parts, hrun', howner, hcall, hawaits.2⟩
    | catchingUp =>
      obtain ⟨v, v', rest, hoccurs, -, hnext, -⟩ := h.takes
      obtain ⟨before, rfl, hv⟩ := hoccurs.split
      obtain ⟨mid, hmid, hgoes, hsame, htrigger⟩ :=
        hbetween before (.step (.proceed c) :: rest ++ after) v (by simp) hv
      have hv' : v.Reachable := hs.replay? hv
      obtain ⟨call, hcall, hwaits⟩ := hv'.isAwaited.awaited id mid caller hmid hgoes
        (hsame.symm.trans howner)
      rw [← htrigger, hawaits] at hwaits
      cases call with
      | triggering => cases hwaits.1
      | catchingUp =>
        have hholder := hv'.holdsLock caller hcall
        rw [holder_of_isNext hnext] at hholder
        cases hholder
      | starting | stopping | leaving | draining | returned => exact hwaits.elim
    | starting | stopping | leaving | draining | returned => exact hawaits.elim

/-- The stop was called before state `s`, waits for dispatched runs up to the limit in state `t`,
and returns before. -/
structure StopsEarly (s : State H) (c : Nat) (after : List (Event H)) (t u : State H)
    (limit : Moment) : Prop where
  called : s.calls.get? c = some .stopping
  waits : s.replay? after = some t
  drains : ∃ woken, t.calls.get? c = some (.draining limit woken)
  early : t.clock < limit
  returns : t.fire? (.step (.proceed c)) = some u

/-- A stop returns from its wait before the time of grace is over only if it was woken. -/
theorem StopsEarly.exists_drains (h : s.StopsEarly c after t u limit) (hs : s.Reachable) :
    s.Drains after c limit true ∧ u.calls.get? c = some (.returned .stopped) := by
  obtain ⟨hcalled, hwaits, ⟨woken, hdrains⟩, hearly, hreturns⟩ := h
  obtain ⟨call, hcall, hstands⟩ := exists_stands hs hcalled hwaits
  rw [hdrains] at hcall
  cases hcall
  have hstep : t.proceed? c = some u := hreturns
  simp only [proceed?, hdrains] at hstep
  split at hstep <;> cases hstep
  next hover =>
  have hwoken : woken = true := by simpa [Nat.not_le.2 hearly] using hover
  subst hwoken
  cases hstands with
  | draining h =>
    exact ⟨h, by simp only [endStop, reply, setCall, Table.get?_insert, if_true]⟩

/-- A stop that takes the loop handle begins to wait for dispatched runs when the loop has exited,
and waits for at most the time of grace. If it returns before, every run that had passed the guard
when it was called is recorded once on its task, unless it broke off, or a trigger waits for it, and
such a run may go on. No run breaks off as long as nothing makes one break off. -/
theorem recorded_of_stopsEarly {options : Options} {now : Instant}
    (hcreate : create? options now = some start) (hreplay : start.replay? events = some s)
    (hstops : s.StopsEarly c after t u limit) :
    u.calls.get? c = some (.returned .stopped) ∧
      (∃ v v' rest, s.Occurs after (.step (.proceed c)) v v' rest ∧ v.TakesHandle c) ∧
      (∃ v v' rest, s.Occurs after (.step (.proceed c)) v v' rest ∧
        limit = waitUntil v.clock v.options.shutdownGrace) ∧
      ∀ record id, HasPassed s.journal record id →
        (u.timesRecorded record id = 1 ∧ ¬ u.InProgress record id ∧ ¬ u.IsStranded record id ∨
          u.timesRecorded record id = 0 ∧ (u.InProgress record id ∨ u.IsStranded record id)) ∧
        (u.InProgress record id → u.IsTriggered id) ∧
        (start.StaysUntroubled (events ++ (after ++ [.step (.proceed c)])) →
          ¬ u.IsStranded record id) := by
  have hstart : start.Reachable := .of_create? hcreate
  have hs : s.Reachable := hstart.replay? hreplay
  obtain ⟨hdrains, hreturned⟩ := hstops.exists_drains hs
  have hafter : s.replay? (after ++ [.step (.proceed c)]) = some u :=
    replay?_append_iff.2 ⟨t, hstops.waits, replay?_singleton_iff.2 hstops.returns⟩
  have hu : u.Reachable := hs.replay? hafter
  refine ⟨hreturned, hdrains.takes, hdrains.begins, fun record id hpassed => ⟨?_, ?_, ?_⟩⟩
  · obtain ⟨trigger, moment, clock, hmem⟩ := hpassed
    refine hu.recorded_or_outstanding ⟨trigger, moment, clock, ?_⟩
    exact (journal_suffix_of_replay? hafter).subset hmem
  · intro hprogress
    have hprogress' := hprogress
    obtain ⟨run', hrun', -, hactive⟩ := hprogress
    -- The run is outstanding at the end, and so it was when the stop was called.
    have hnot : ¬ IsRecorded s.journal id := by
      rintro ⟨other, result, finished, hmem⟩
      refine (hu.isOutstanding_iff.2 (.inl hprogress')).2 ⟨other, result, finished, ?_⟩
      exact (journal_suffix_of_replay? hafter).subset hmem
    obtain ⟨run, hrun⟩ : ∃ run, s.runs.get? id = some run := by
      rcases hs.isOutstanding_iff.1 ⟨hpassed, hnot⟩ with ⟨run, hrun, -⟩ | ⟨run, hrun, -⟩ <;>
        exact ⟨run, hrun⟩
    exact hdrains.isTriggered hs hafter hrun hrun' (Phase.ne_stranded_of_isActive hactive)
  · intro huntroubled
    exact not_isStranded_of_staysUntroubled hcreate huntroubled
      (replay?_append_iff.2 ⟨s, hreplay, hafter⟩) record id

/-- A scheduler is started, and a run that was dispatched executes when it is stopped. -/
def stoppedAtWork : List (Event Unit) :=
  [.request (.register (.new "backup" ())), .request .start, .step (.proceed 1), .step (.proceed 1),
    .request (.runNow true "backup"), .step (.begin 3), .request .stop]

/-- The stop waits for the loop and then for the run, which ends five seconds later. -/
def endsInGrace : List (Event Unit) :=
  [.step (.proceed 4), .step (.leave 2), .step (.proceed 4), .elapse (5 * Duration.second),
    .step (.endAttempt 3 (.completed "done"))]

/-- The stop returns when the run is recorded. -/
theorem recorded_of_stopsEarly_of_endsInGrace :
    ∃ start s t u, create? Options.standard someMorning = some start ∧
      start.replay? stoppedAtWork = some s ∧
      s.StopsEarly 4 endsInGrace t u (30 * Duration.second) ∧ s.InProgress 0 3 ∧
      u.timesRecorded 0 3 = 1 ∧ ¬ u.InProgress 0 3 := by
  have hcreate : create? Options.standard someMorning =
      some (initial Options.standard someMorning : State Unit) := rfl
  obtain ⟨u, hu⟩ : ∃ u, (initial Options.standard someMorning).replay?
      (stoppedAtWork ++ (endsInGrace ++ [.step (.proceed 4)])) = some u :=
    Option.isSome_iff_exists.1 (by decide)
  obtain ⟨s, hs, hafter⟩ := replay?_append_iff.1 hu
  obtain ⟨t, ht, hlast⟩ := replay?_append_iff.1 hafter
  have hcalled : ((initial Options.standard someMorning).replay? stoppedAtWork).bind
      (fun s => s.calls.get? 4) = some .stopping := rfl
  have hatWork : ((initial Options.standard someMorning).replay? stoppedAtWork).bind
      (fun s => s.runs.get? 3) =
      some ⟨0, .manual, .dispatched, .executing ⟨0, false⟩ (300 * Duration.second) 0⟩ := by decide
  have hdrains :
      ((initial Options.standard someMorning).replay? (stoppedAtWork ++ endsInGrace)).bind
      (fun t => t.calls.get? 4) = some (.draining (30 * Duration.second) true) := rfl
  have hclock : ((initial Options.standard someMorning).replay? (stoppedAtWork ++ endsInGrace)).map
      (·.clock) = some (5 * Duration.second) := by decide
  have hgone : ((initial Options.standard someMorning).replay?
      (stoppedAtWork ++ (endsInGrace ++ [.step (.proceed 4)]))).map (·.runs.entries) = some
        [] := by decide
  have hst := replay?_append_iff.2 ⟨s, hs, ht⟩
  rw [hs, Option.bind_some] at hcalled hatWork
  rw [hst, Option.bind_some] at hdrains
  rw [hst, Option.map_some, Option.some.injEq] at hclock
  rw [hu, Option.map_some, Option.some.injEq] at hgone
  have hstops : s.StopsEarly 4 endsInGrace t u (30 * Duration.second) :=
    ⟨hcalled, ht, ⟨true, hdrains⟩, by rw [hclock]; decide, replay?_singleton_iff.1 hlast⟩
  have hprogress : s.InProgress 0 3 := ⟨_, hatWork, rfl, rfl⟩
  have hreachable : s.Reachable := ⟨_, _, _, _, hcreate, hs⟩
  have hpassed := (hreachable.isOutstanding_iff.2 (.inl hprogress)).1
  obtain ⟨-, -, -, hruns⟩ := recorded_of_stopsEarly hcreate hs hstops
  refine ⟨_, s, t, u, hcreate, hs, hstops, hprogress, ?_⟩
  rcases (hruns 0 3 hpassed).1 with ⟨hrecorded, hover, -⟩ | ⟨-, hleft⟩
  · exact ⟨hrecorded, hover⟩
  · -- No run is left at the end.
    rcases hleft with ⟨run, hrun, -⟩ | ⟨run, hrun, -⟩ <;>
    · have hmem := Table.mem_entries_iff.2 hrun
      rw [hgone] at hmem
      cases hmem

/-- A scheduler is started, and a run that a trigger waits for executes when it is stopped. -/
def stoppedDuringTrigger : List (Event Unit) :=
  [.request (.register (.new "backup" ())), .request .start, .step (.proceed 1), .step (.proceed 1),
    .request (.trigger ["backup"]), .step (.begin 4), .request .stop]

/-- The stop finds no dispatched run when the loop has exited. -/
def findsNoneDispatched : List (Event Unit) :=
  [.step (.proceed 5), .step (.leave 2), .step (.proceed 5)]

/-- A stop may return before the time of grace is over while a run that had passed the guard
executes: it does not wait for the run of a trigger. -/
theorem not_forall_recorded_of_stopsEarly :
    ¬ ∀ (s t u : State Unit) (c : Nat) (after : List (Event Unit)) (limit : Moment), s.Reachable →
      s.StopsEarly c after t u limit → ∀ record id, HasPassed s.journal record id →
        IsRecorded u.journal id ∧ ¬ u.InProgress record id := by
  intro hall
  have hcreate : create? Options.standard someMorning =
      some (initial Options.standard someMorning : State Unit) := rfl
  obtain ⟨u, hu⟩ : ∃ u, (initial Options.standard someMorning).replay?
      (stoppedDuringTrigger ++ (findsNoneDispatched ++ [.step (.proceed 5)])) = some u :=
    Option.isSome_iff_exists.1 (by decide)
  obtain ⟨s, hs, hafter⟩ := replay?_append_iff.1 hu
  obtain ⟨t, ht, hlast⟩ := replay?_append_iff.1 hafter
  have hcalled : ((initial Options.standard someMorning).replay? stoppedDuringTrigger).bind
      (fun s => s.calls.get? 5) = some .stopping := rfl
  have hdrains : ((initial Options.standard someMorning).replay?
      (stoppedDuringTrigger ++ findsNoneDispatched)).bind (fun t => t.calls.get? 5) =
      some (.draining (30 * Duration.second) true) := rfl
  have hclock : ((initial Options.standard someMorning).replay?
      (stoppedDuringTrigger ++ findsNoneDispatched)).map (·.clock) = some 0 := by decide
  have hatWork : ((initial Options.standard someMorning).replay?
      (stoppedDuringTrigger ++ (findsNoneDispatched ++ [.step (.proceed 5)]))).bind
      (fun u => u.runs.get? 4) =
      some ⟨0, .manual, .call 3, .executing ⟨0, false⟩ (300 * Duration.second) 0⟩ := by decide
  have hbefore : ((initial Options.standard someMorning).replay? stoppedDuringTrigger).bind
      (fun s => s.runs.get? 4) =
      some ⟨0, .manual, .call 3, .executing ⟨0, false⟩ (300 * Duration.second) 0⟩ := by decide
  have hst := replay?_append_iff.2 ⟨s, hs, ht⟩
  rw [hs, Option.bind_some] at hcalled hbefore
  rw [hst, Option.bind_some] at hdrains
  rw [hst, Option.map_some, Option.some.injEq] at hclock
  rw [hu, Option.bind_some] at hatWork
  have hstops : s.StopsEarly 5 findsNoneDispatched t u (30 * Duration.second) :=
    ⟨hcalled, ht, ⟨true, hdrains⟩, by rw [hclock]; decide, replay?_singleton_iff.1 hlast⟩
  have hreachable : s.Reachable := ⟨_, _, _, _, hcreate, hs⟩
  have hpassed := (hreachable.isOutstanding_iff.2 (.inl ⟨_, hbefore, rfl, rfl⟩)).1
  exact (hall s t u 5 _ _ hreachable hstops 0 4 hpassed).2 ⟨_, hatWork, rfl, rfl⟩

end State

end CronDaemon.Scheduler
