import CronDaemon.Proofs.Scheduler.Cancellation
import CronDaemon.Proofs.Scheduler.Dispatched
import CronDaemon.Proofs.Scheduler.Tally

/-!
# Which runs a stop reaches

A stop ends the lifetime of the moment at which it takes the loop handle. A dispatched run takes a
lifetime only when it is looked at for the first time. So the stop reaches the runs that were looked
at before, and none of the others: a run that still waits for its first look goes on in the next
lifetime.
-/

namespace CronDaemon.Scheduler

open Job

/-- A run that has passed the guard and goes on has a token. -/
theorem Phase.exists_token_of_isActive {phase : Phase} (h : phase.isActive = true) :
    ∃ token, phase.token? = some token := by
  cases phase with
  | spawned | stranded => cases h
  | queued token | executing token | resting token => exact ⟨token, rfl⟩

namespace State

variable {H : Type} {start d s t t' : State H} {events between after : List (Event H)}
  {event : Event H} {id k c record : Nat} {run run' : Run} {token : Token}

/-- No run belongs to a lifetime that is yet to come. -/
theorem Reachable.lifetime_le_of_token (hs : s.Reachable) (hrun : s.runs.get? id = some run)
    (htoken : run.phase.token? = some token) : token.lifetime ≤ s.lifetime := by
  obtain ⟨options, now, start, events, hcreate, hreplay⟩ := hs
  have hstart : start.Reachable := .of_create? hcreate
  have hnone : ∀ k, start.runs.get? k = none := eq_initial_of_create? hcreate ▸ fun _ => rfl
  obtain ⟨v, v', after, hpasses, hlifetime⟩ := exists_passesGuard hstart hnone hreplay hrun htoken
  have hstep := (transition_of_fire? hpasses.occurs.fires).lifetime_le
  have hrest := lifetime_le_of_replay? (hpasses.occurs.replay? hreplay)
  omega

/-- A run that has been looked at keeps its lifetime. -/
theorem Reachable.lifetime_lt_of_token (ht : t.Reachable) (hlt : id < t.nextId) {bound : Nat}
    (hbefore : ∀ run, t.runs.get? id = some run → run.phase ≠ .spawned ∧
      ∀ token, run.phase.token? = some token → token.lifetime < bound)
    (h : t.replay? after = some s) (hrun : s.runs.get? id = some run)
    (htoken : run.phase.token? = some token) : token.lifetime < bound := by
  refine (history_induction (motive := fun _ s => ∀ run, s.runs.get? id = some run →
    run.phase ≠ .spawned ∧ ∀ token, run.phase.token? = some token → token.lifetime < bound)
    hbefore ?_ h run hrun).2 token htoken
  intro before event u u' hu hfire ih run' hrun'
  have htransition := transition_of_fire? hfire
  have hreachable : u.Reachable := ht.replay? hu
  obtain ⟨run, hrun, hcontinues⟩ := htransition.moves.run_continues
    (Nat.lt_of_lt_of_le hlt (Ledger.Moves.nextId_le (replay?_moves hu))) hrun'
  obtain ⟨hpast, hbound⟩ := ih run hrun
  refine ⟨fun hspawned => hpast (hcontinues.spawned hspawned), fun token htoken => ?_⟩
  rcases (htransition.goes hreachable hrun hrun').lifetime_cases htoken with
    ⟨first, hfirst, hsame⟩ | ⟨rfl, -⟩
  · exact hsame ▸ hbound first hfirst
  · cases htransition with
    | begin hrun₀ hspawned =>
      rw [show u.runs.get? id = some run from hrun] at hrun₀
      cases hrun₀
      exact absurd hspawned hpast

/-- A dispatched run waits for its first look, or was refused or passed the guard when it had it. -/
theorem Reachable.waits_or_looked_at (hd : d.Reachable) (hrun : d.runs.get? id = some run)
    (howner : run.owner = .dispatched) (hphase : run.phase = .spawned)
    (h : d.replay? events = some s) :
    (.step (.begin id) ∉ events ∧ s.runs.get? id = some run) ∨
      (.step (.begin id) ∈ events ∧
        (.refused id run.record ∈ s.journal ∨ HasPassed s.journal run.record id)) := by
  by_cases hlook : .step (.begin id) ∈ events
  · refine .inr ⟨hlook, ?_⟩
    obtain ⟨before, rest, rfl, hnot⟩ := List.eq_append_cons_of_mem hlook
    obtain ⟨u, hu, hrest⟩ := replay?_append_iff.1 h
    rw [replay?_cons, Option.bind_eq_some_iff] at hrest
    obtain ⟨u', hfire, hrest⟩ := hrest
    have hwaits := hd.waits hu hrun howner hphase hnot
    obtain ⟨v, k, hstep, hout, hcases⟩ :=
      (hd.replay? hu).exists_outstanding_of_begin hwaits howner hphase
    rw [show u.fire? (.step (.begin id)) = u.step? (.begin id) from rfl, hstep] at hfire
    cases hfire
    have hsuffix : u'.journal <:+ s.journal := journal_suffix_of_replay? hrest
    rcases hcases with rfl | ⟨hrefused, -⟩
    · obtain ⟨trigger, moment, now, hmem⟩ := hout.1
      exact .inr ⟨trigger, moment, now, hsuffix.subset hmem⟩
    · exact .inl (hsuffix.subset hrefused)
  · exact .inl ⟨hlook, hd.waits h hrun howner hphase hlook⟩

/-- The run was refused or recorded, or broke off, or goes on with a token that is cancelled. -/
def IsReached (s : State H) (record id : Nat) : Prop :=
  .refused id record ∈ s.journal ∨ s.timesRecorded record id = 1 ∨ s.IsStranded record id ∨
    ∃ run token, s.runs.get? id = some run ∧ run.phase.token? = some token ∧
      s.isCancelled token = true

/-- A run that waits for its first look is not reached. -/
theorem Reachable.not_isReached_of_spawned (hs : s.Reachable) (hrun : s.runs.get? id = some run)
    (hphase : run.phase = .spawned) : ¬ s.IsReached record id := by
  have hnot : ¬ HasPassed s.journal record id :=
    hs.isSound.kept.not_passed (Ledger.standing?_of_spawned hrun hphase)
  rintro (hrefused | hrecorded | ⟨run', hrun', -, hstranded⟩ | ⟨run', token, hrun', htoken, -⟩)
  · rw [(hs.not_hasPassed_of_refused hrefused).1] at hrun
    cases hrun
  · rw [hs.timesRecorded_eq_zero hnot] at hrecorded
    cases hrecorded
  · rw [hrun] at hrun'
    cases hrun'
    rw [hphase] at hstranded
    cases hstranded
  · rw [hrun] at hrun'
    cases hrun'
    rw [hphase] at htoken
    cases htoken

/-- A dispatched run waits for its first look; a stop is called after that, takes the loop handle of
the started scheduler in state `t`, and leaves state `t'`. -/
structure StopsAfter (d : State H) (id : Nat) (run : Run) (between : List (Event H)) (c : Nat)
    (t t' : State H) : Prop where
  waits : d.runs.get? id = some run
  dispatched : run.owner = .dispatched
  spawned : run.phase = .spawned
  /-- The call of the stop has a later number than anything there is. -/
  called : d.nextId ≤ c
  replay : d.replay? between = some t
  takes : t.TakesHandle c
  fires : t.fire? (.step (.proceed c)) = some t'

namespace StopsAfter

theorem lifetime_eq (h : d.StopsAfter id run between c t t') : t'.lifetime = t.lifetime + 1 := by
  have hnow : t.replay? [] = some t := rfl
  have hoccurs : t.Occurs [.step (.proceed c)] (.step (.proceed c)) t t' [] :=
    Occurs.last hnow h.fires
  have hlt : t.lifetime < t'.lifetime :=
    (lifetime_lt_iff (replay?_singleton_iff.2 h.fires)).2 ⟨c, t, t', [], hoccurs, h.takes⟩
  rcases (transition_of_fire? h.fires).lifetime_cases with ⟨hsame, -⟩ | ⟨_, -, -, hnext, -⟩
  · omega
  · exact hnext

theorem replay_stop (h : d.StopsAfter id run between c t t') :
    d.replay? (between ++ [.step (.proceed c)]) = some t' :=
  replay?_append_iff.2 ⟨t, h.replay, replay?_singleton_iff.2 h.fires⟩

/-- Every token that the stop finds is of a lifetime that is over then. -/
theorem lifetime_lt_of_token (h : d.StopsAfter id run between c t t') (hd : d.Reachable)
    (hrun' : t'.runs.get? k = some run') (htoken : run'.phase.token? = some token) :
    token.lifetime < t'.lifetime := by
  have ht : t.Reachable := hd.replay? h.replay
  have htransition := transition_of_fire? h.fires
  rcases htransition.run_cases ht hrun' with ⟨first, hfirst, -⟩ | ⟨-, hspawns⟩
  · rcases (htransition.goes ht hfirst hrun').lifetime_cases htoken with
      ⟨before, hbefore, hsame⟩ | ⟨hevent, -⟩
    · have hle := ht.lifetime_le_of_token hfirst hbefore
      rw [h.lifetime_eq]
      omega
    · cases hevent
  · rw [hspawns.phase] at htoken
    cases htoken

/-- A run that was looked at before the stop took the loop handle stays reached. -/
theorem isReached_of_looked_at (h : d.StopsAfter id run between c t t') (hd : d.Reachable)
    (hlook : .step (.begin id) ∈ between) (hafter : t'.replay? after = some s) :
    s.IsReached run.record id := by
  have ht' : t'.Reachable := hd.replay? h.replay_stop
  have hs : s.Reachable := ht'.replay? hafter
  have hsuffix : t'.journal <:+ s.journal := journal_suffix_of_replay? hafter
  rcases hd.waits_or_looked_at h.waits h.dispatched h.spawned h.replay_stop with
    ⟨hnot, -⟩ | ⟨-, hrefused | hpassed⟩
  · exact absurd (List.mem_append_left _ hlook) hnot
  · exact .inl (hsuffix.subset hrefused)
  · -- The run is behind the guard already, so that its token is of a lifetime that is over.
    have hold : ∀ run', t'.runs.get? id = some run' → run'.phase ≠ .spawned ∧
        ∀ token, run'.phase.token? = some token → token.lifetime < t'.lifetime := by
      intro run' hrun'
      refine ⟨fun hspawned => ?_, fun token htoken => h.lifetime_lt_of_token hd hrun' htoken⟩
      exact ht'.isSound.kept.not_passed (Ledger.standing?_of_spawned hrun' hspawned) hpassed
    have hpassed' : HasPassed s.journal run.record id := by
      obtain ⟨trigger, moment, now, hmem⟩ := hpassed
      exact ⟨trigger, moment, now, hsuffix.subset hmem⟩
    rcases hs.recorded_or_outstanding hpassed' with ⟨hrecorded, -⟩ | ⟨-, hprogress | hstranded⟩
    · exact .inr (.inl hrecorded)
    · obtain ⟨run', hrun', -, hactive⟩ := hprogress
      obtain ⟨token, htoken⟩ := Phase.exists_token_of_isActive hactive
      have hlt : id < t'.nextId := Nat.lt_of_lt_of_le (hd.run_lt h.waits)
        (Ledger.Moves.nextId_le (replay?_moves h.replay_stop))
      have hbound := ht'.lifetime_lt_of_token hlt hold hafter hrun' htoken
      refine .inr (.inr (.inr ⟨run', token, hrun', htoken, hs.isCancelled_iff.2 (.inr ?_)⟩))
      exact Nat.lt_of_lt_of_le hbound (lifetime_le_of_replay? hafter)
    · exact .inr (.inr (.inl hstranded))

/-- A run that was not looked at before takes a later lifetime, and the stop has no part in its
end. -/
theorem passesGuard_of_not_looked_at (h : d.StopsAfter id run between c t t') (hd : d.Reachable)
    (hnot : .step (.begin id) ∉ between) (hafter : t'.replay? after = some s)
    (hrun' : s.runs.get? id = some run') (htoken : run'.phase.token? = some token) :
    t.lifetime < token.lifetime ∧ ∃ v v' rest, t'.PassesGuard after id v v' rest ∧
      token.lifetime = v.lifetime ∧ v'.isCancelled ⟨v.lifetime, false⟩ = false ∧
      (s.isCancelled token = true ↔ token.cancelled = true ∨ v'.IsStoppedIn rest) := by
  have ht' : t'.Reachable := hd.replay? h.replay_stop
  have hwaits : t'.runs.get? id = some run :=
    hd.waits h.replay_stop h.waits h.dispatched h.spawned (by simpa using hnot)
  have hbefore : ∀ first, t'.runs.get? id = some first → first.phase.token? = none := by
    intro first hfirst
    rw [hwaits] at hfirst
    cases hfirst
    rw [h.spawned]
    rfl
  obtain ⟨v, v', rest, hpasses, hsame⟩ := ht'.passesGuard_since hbefore hafter hrun' htoken
  obtain ⟨before, -, hv⟩ := hpasses.occurs.split
  have hv' : v'.Reachable := (ht'.replay? hv).fire? hpasses.occurs.fires
  have hlater := lifetime_le_of_replay? hv
  refine ⟨by rw [hsame, h.lifetime_eq] at *; omega, v, v', rest, hpasses, hsame, ?_, ?_⟩
  · have hkept : v'.lifetime = v.lifetime := by
      rcases (transition_of_fire? hpasses.occurs.fires).lifetime_cases with
        ⟨hkept, -⟩ | ⟨_, hevent, -⟩
      · exact hkept
      · cases hevent
    rw [← hkept]
    exact hv'.lifetime_not_ended
  · rw [(ht'.replay? hafter).isCancelled_iff, hsame, hpasses.lifetime_lt_iff hafter]

end StopsAfter

/-- A stop that takes the loop handle reaches a run that was dispatched before it was called exactly
if that run was looked at for the first time before the handle was taken. Such a run is refused or
recorded, has broken off, or has a token that is cancelled from then on for as long as it goes on;
none breaks off as long as nothing makes one break off. A run that was not looked at passes the
guard later, if at all, with a token of a later lifetime that is not cancelled then: only its
deadline or another stop cancels it. -/
theorem isReached_iff_looked_at {options : Options} {now : Instant}
    (hcreate : create? options now = some start) (hreplay : start.replay? events = some d)
    (h : d.StopsAfter id run between c t t') :
    (t'.IsReached run.record id ↔ .step (.begin id) ∈ between) ∧
      ∀ after s, t'.replay? after = some s →
        (.step (.begin id) ∈ between → s.IsReached run.record id) ∧
        (start.StaysUntroubled (events ++ (between ++ .step (.proceed c) :: after)) →
          ¬ s.IsStranded run.record id) ∧
        (.step (.begin id) ∉ between → ∀ run' token, s.runs.get? id = some run' →
          run'.phase.token? = some token →
          t.lifetime < token.lifetime ∧ ∃ v v' rest, t'.PassesGuard after id v v' rest ∧
            token.lifetime = v.lifetime ∧ v'.isCancelled ⟨v.lifetime, false⟩ = false ∧
            (s.isCancelled token = true ↔ token.cancelled = true ∨ v'.IsStoppedIn rest)) := by
  have hd : d.Reachable := ⟨options, now, start, events, hcreate, hreplay⟩
  have hnow : t'.replay? [] = some t' := rfl
  refine ⟨⟨fun hreached => ?_, fun hlook => h.isReached_of_looked_at hd hlook hnow⟩,
    fun after s hafter => ⟨fun hlook => h.isReached_of_looked_at hd hlook hafter,
      fun huntroubled => ?_, fun hnot _ _ => h.passesGuard_of_not_looked_at hd hnot hafter⟩⟩
  · refine Classical.not_not.1 fun hnot => ?_
    have hwaits : t'.runs.get? id = some run :=
      hd.waits h.replay_stop h.waits h.dispatched h.spawned (by simpa using hnot)
    exact (hd.replay? h.replay_stop).not_isReached_of_spawned hwaits h.spawned hreached
  · refine not_isStranded_of_staysUntroubled hcreate huntroubled ?_ run.record id
    refine replay?_append_iff.2 ⟨d, hreplay, replay?_append_iff.2 ⟨t, h.replay, ?_⟩⟩
    rw [replay?_cons, h.fires]
    exact hafter

/-- A scheduler is started, and a run of its task is dispatched. -/
def startedAndDispatched : List (Event Unit) :=
  [.request (.register (.new "backup" ())), .request .start, .step (.proceed 1), .step (.proceed 1),
    .request (.runNow true "backup")]

/-- A stop that takes the loop handle in the course of what follows comes after the dispatch. -/
theorem exists_stopsAfter_of_startedAndDispatched {t' : State Unit} {between : List (Event Unit)}
    (h : (initial Options.standard someMorning).replay?
      (startedAndDispatched ++ (between ++ [.step (.proceed 4)])) = some t')
    (hcalled :
      ((initial Options.standard someMorning).replay? (startedAndDispatched ++ between)).bind
      (fun t => t.calls.get? 4) = some .stopping)
    (hnext : ((initial Options.standard someMorning).replay? (startedAndDispatched ++ between)).map
      (fun t => (t.lock.isNext 4, t.handle.isSome)) = some (true, true)) :
    ∃ d t, (initial Options.standard someMorning).replay? startedAndDispatched = some d ∧
      d.StopsAfter 3 ⟨0, .manual, .dispatched, .spawned⟩ between 4 t t' := by
  obtain ⟨d, hd, hbetween⟩ := replay?_append_iff.1 h
  obtain ⟨t, ht, hlast⟩ := replay?_append_iff.1 hbetween
  have hdispatched : ((initial Options.standard someMorning).replay? startedAndDispatched).map
      (fun d => (d.runs.get? 3, d.nextId)) =
      some (some ⟨0, .manual, .dispatched, .spawned⟩, 4) := by decide
  have hst := replay?_append_iff.2 ⟨d, hd, ht⟩
  rw [hd, Option.map_some, Option.some.injEq, Prod.mk.injEq] at hdispatched
  rw [hst, Option.bind_some] at hcalled
  rw [hst, Option.map_some, Option.some.injEq, Prod.mk.injEq] at hnext
  exact ⟨d, t, hd, hdispatched.1, rfl, rfl, Nat.le_of_eq hdispatched.2, ht, ⟨hcalled, hnext⟩,
    replay?_singleton_iff.1 hlast⟩

/-- The run is looked at, and then the scheduler is stopped. -/
def looksThenStops : List (Event Unit) := [.step (.begin 3), .request .stop]

/-- The stop reaches the run, which executes and is cancelled. -/
theorem isReached_iff_looked_at_of_looksThenStops :
    ∃ start d t t', create? Options.standard someMorning = some start ∧
      start.replay? startedAndDispatched = some d ∧
      d.StopsAfter 3 ⟨0, .manual, .dispatched, .spawned⟩ looksThenStops 4 t t' ∧
      t'.IsReached 0 3 ∧ t'.InProgress 0 3 := by
  have hcreate : create? Options.standard someMorning =
      some (initial Options.standard someMorning : State Unit) := rfl
  obtain ⟨t', ht'⟩ : ∃ t', (initial Options.standard someMorning).replay?
      (startedAndDispatched ++ (looksThenStops ++ [.step (.proceed 4)])) = some t' :=
    Option.isSome_iff_exists.1 (by decide)
  have hatWork : ((initial Options.standard someMorning).replay?
      (startedAndDispatched ++ (looksThenStops ++ [.step (.proceed 4)]))).bind
        (fun t' => t'.runs.get? 3) =
      some ⟨0, .manual, .dispatched, .executing ⟨0, false⟩ (300 * Duration.second) 0⟩ := by decide
  rw [ht', Option.bind_some] at hatWork
  obtain ⟨d, t, hd, hstops⟩ := exists_stopsAfter_of_startedAndDispatched ht' rfl (by decide)
  have hreached := (isReached_iff_looked_at hcreate hd hstops).1.2 List.mem_cons_self
  exact ⟨_, d, t, t', hcreate, hd, hstops, hreached, _, hatWork, rfl, rfl⟩

/-- A stop may leave a run that was dispatched before it executing with a token that it does not
cancel: the run is looked at for the first time when the stop has taken the loop handle, and takes
the next lifetime. -/
theorem not_forall_cancelled_of_stopsAfter :
    ¬ ∀ (d t t' s : State Unit) (id c : Nat) (run : Run) (between after : List (Event Unit)),
      d.Reachable → d.StopsAfter id run between c t t' → t'.replay? after = some s →
      ∀ run' token deadline attempt, s.runs.get? id = some run' →
        run'.phase = .executing token deadline attempt → s.isCancelled token = true := by
  intro hall
  have hcreate : create? Options.standard someMorning =
      some (initial Options.standard someMorning : State Unit) := rfl
  obtain ⟨s, hs⟩ : ∃ s, (initial Options.standard someMorning).replay? ((startedAndDispatched ++
      ([.request .stop] ++ [.step (.proceed 4)])) ++ [.step (.begin 3)]) = some s :=
    Option.isSome_iff_exists.1 (by decide)
  have hatWork : ((initial Options.standard someMorning).replay? ((startedAndDispatched ++
      ([.request .stop] ++ [.step (.proceed 4)])) ++ [.step (.begin 3)])).map
      (fun s => (s.runs.get? 3, s.isCancelled ⟨1, false⟩)) =
      some (some ⟨0, .manual, .dispatched, .executing ⟨1, false⟩ (300 * Duration.second) 0⟩,
        false) := by
    decide
  rw [hs, Option.map_some, Option.some.injEq, Prod.mk.injEq] at hatWork
  obtain ⟨t', ht', hafter⟩ := replay?_append_iff.1 hs
  obtain ⟨d, t, hd, hstops⟩ := exists_stopsAfter_of_startedAndDispatched ht' rfl (by decide)
  have hreachable : d.Reachable := ⟨_, _, _, _, hcreate, hd⟩
  have hcancelled := hall d t t' s 3 4 _ _ _ hreachable hstops hafter _ _ _ _ hatWork.1 rfl
  rw [hatWork.2] at hcancelled
  cases hcancelled

end State

end CronDaemon.Scheduler
