import CronDaemon.Proofs.Scheduler.CatchUpPass
import CronDaemon.Proofs.Scheduler.LoopHandle
import CronDaemon.Proofs.Scheduler.Tally

/-!
# Catch-up runs

A start that takes the lock keeps it until it opens its loop, and in between no other start spawns
catch-up runs. Each run that it spawns waits for its first look, passes the guard unless its task is
running already, and lasts until it is recorded, since the start opens its loop only when none of
its runs is left. So a missed task is caught up on once, by a run that is recorded before the start
returns, and every other task is left with what the pass made of it.
-/

namespace CronDaemon.Scheduler

open Job

/-- Whether a catch-up run passes the guard by the entry. -/
def Entry.isCatchUp : Entry → Bool
  | .admitted _ _ trigger .. => trigger = .catchUp
  | .registered .. | .refreshed .. | .ticked .. | .refused .. | .began .. | .ended ..
  | .recorded .. => false

/-- The catch-up runs that passed the guard of the record, the latest first. -/
def caughtUpOn (journal : List Entry) (record : Nat) : List Nat :=
  admittedOn (journal.filter Entry.isCatchUp) record

theorem mem_caughtUpOn_iff {journal : List Entry} {record id : Nat} :
    id ∈ caughtUpOn journal record ↔ ∃ moment now,
      .admitted id record .catchUp moment now ∈ journal := by
  simp only [caughtUpOn, mem_admittedOn_iff, HasPassed, List.mem_filter, Entry.isCatchUp,
    decide_eq_true_eq]
  constructor
  · rintro ⟨trigger, moment, now, hmem, rfl⟩
    exact ⟨moment, now, hmem⟩
  · rintro ⟨moment, now, hmem⟩
    exact ⟨.catchUp, moment, now, hmem, rfl⟩

theorem caughtUpOn_sublist (journal : List Entry) (record : Nat) :
    (caughtUpOn journal record).Sublist (admittedOn journal record) :=
  List.filter_sublist.filterMap _

namespace State

variable {H : Type} {start s s' t t' u u' v v' : State H} {event : Event H}
  {events during : List (Event H)} {c id k number : Nat} {run : Run} {record seen : Record H}
  {new : List Entry} {now : Instant}

/-- A catch-up run belongs to a call. -/
theorem Reachable.owner_of_catchUp (hs : s.Reachable) (hrun : s.runs.get? k = some run)
    (htrigger : run.trigger = .catchUp) : ∃ call, run.owner = .call call := by
  refine hs.step_induction (motive := fun s => ∀ run, s.runs.get? k = some run →
    run.trigger = .catchUp → ∃ call, run.owner = .call call) (fun _ _ => nofun) ?_ run hrun htrigger
  intro s event s' hs h ih run hrun htrigger
  rcases h.run_cases hs hrun with ⟨before, hbefore, hcontinues⟩ | ⟨-, hspawns⟩
  · rw [hcontinues.owner]
    exact ih before hbefore (hcontinues.trigger.symm.trans htrigger)
  · exact (hspawns.caughtUp htrigger).2

/-- While the lock is free every catch-up run has broken off. -/
theorem Reachable.stranded_of_catchUp (hs : s.Reachable) (hfree : s.lock.holder = none)
    (hrun : s.runs.get? k = some run) (htrigger : run.trigger = .catchUp) :
    run.phase = .stranded := by
  refine Classical.not_not.1 fun hlive => ?_
  obtain ⟨owner, howner⟩ := hs.owner_of_catchUp hrun htrigger
  obtain ⟨call, hcall, hawaits⟩ := hs.isAwaited.awaited k run owner hrun hlive howner
  rw [htrigger] at hawaits
  cases call with
  | catchingUp =>
    have hholder := hs.holdsLock owner hcall
    rw [hfree] at hholder
    cases hholder
  | triggering => cases hawaits.1
  | starting | stopping | leaving | draining | returned => exact hawaits.elim

/-- A start at its catch-up runs goes on with them until it returns. -/
theorem Reachable.catchingUp_or_returned (ht : t.Reachable)
    (hcall : t.calls.get? c = some .catchingUp) (h : t.replay? events = some u) :
    u.calls.get? c = some .catchingUp ∨ ∃ reply, u.calls.get? c = some (.returned reply) := by
  refine history_induction (motive := fun _ u => u.calls.get? c = some .catchingUp ∨
    ∃ reply, u.calls.get? c = some (.returned reply)) (.inl hcall) ?_ h
  intro before event v v' hv hfire ih
  have htransition := transition_of_fire? hfire
  have hreachable : v.Reachable := ht.replay? hv
  rcases ih with hcall | ⟨reply, hcall⟩
  · rcases htransition.catchingUp_cases hreachable hcall with
      hreturned | hsame | ⟨-, fault, hbroken⟩
    · exact .inr ⟨_, hreturned⟩
    · exact .inl hsame
    · exact .inr ⟨_, hbroken⟩
  · exact .inr ⟨reply, htransition.returned_stays hreachable hcall⟩

/-- A start takes the lock of a stopped scheduler, makes its pass, and is still at its catch-up runs
after the events that follow. -/
structure CatchesUp (t : State H) (c : Nat) (t' : State H) (during : List (Event H)) (u : State H) :
    Prop where
  reachable : t.Reachable
  takesLock : t.TakesLock c
  fires : t.fire? (.step (.proceed c)) = some t'
  enters : t'.calls.get? c = some .catchingUp
  replay : t'.replay? during = some u
  waits : u.calls.get? c = some .catchingUp

namespace CatchesUp

theorem reachable_pass (h : t.CatchesUp c t' during u) : t'.Reachable := h.reachable.fire? h.fires

theorem reachable_last (h : t.CatchesUp c t' during u) :
    u.Reachable := h.reachable_pass.replay? h.replay

theorem holder_eq_none (h : t.CatchesUp c t' during u) : t.lock.holder = none :=
  holder_of_isNext h.takesLock.2.1

/-- What is told at the pass and since comes before what was told earlier. -/
theorem journal_suffix (h : t.CatchesUp c t' during u) : t.journal <:+ u.journal :=
  (transition_of_fire? h.fires).journal_suffix.trans (journal_suffix_of_replay? h.replay)

theorem not_breaks (h : t.CatchesUp c t' during u) : ¬ u.Breaks (.call c) := by
  rintro ⟨call, fault, howner, hcall⟩
  cases howner
  rw [h.waits] at hcall
  cases hcall

theorem snoc (h : t.CatchesUp c t' during u) (hfire : u.fire? event = some u')
    (hwaits : u'.calls.get? c = some .catchingUp) : t.CatchesUp c t' (during ++ [event]) u' :=
  ⟨h.reachable, h.takesLock, h.fires, h.enters,
    replay?_append_iff.2 ⟨u, h.replay, replay?_singleton_iff.2 hfire⟩, hwaits⟩

/-- What holds after the pass and is kept by each event while the start is at its catch-up runs. -/
theorem induction {motive : List (Event H) → State H → Prop} (h : t.CatchesUp c t' during u)
    (hfirst : motive [] t')
    (hkept : ∀ before event v v', t.CatchesUp c t' before v →
      t.CatchesUp c t' (before ++ [event]) v' → v.fire? event = some v' → motive before v →
      motive (before ++ [event]) v') : motive during u := by
  refine history_induction (motive := fun during u => u.calls.get? c = some .catchingUp →
    motive during u) (fun _ => hfirst) ?_ h.replay h.waits
  intro before event v v' hv hfire ih hwaits
  have htransition := transition_of_fire? hfire
  have hstood : v.calls.get? c = some .catchingUp := by
    rcases htransition.stood_of_waits (h.reachable_pass.replay? hv) hwaits (.inl rfl) with
      rfl | hstood
    · -- A start that has entered its catch-up runs does not take the lock again.
      have hcall := (htransition.takesLock_of_catchingUp hwaits).1
      rcases h.reachable_pass.catchingUp_or_returned h.enters hv with he | ⟨reply, he⟩ <;>
        rw [hcall] at he <;> cases he
    · exact hstood
  have hbefore : t.CatchesUp c t' before v :=
    ⟨h.reachable, h.takesLock, h.fires, h.enters, hv, hstood⟩
  exact hkept before event v v' hbefore (hbefore.snoc hfire hwaits) hfire (ih hstood)

theorem makesPass (h : t.CatchesUp c t' during u) : ∃ now, t.MakesPass t' c now := by
  obtain ⟨hcall, hnext, -⟩ := h.takesLock
  have hproceed : t.proceed? c = some t' := h.fires
  simp only [proceed?, hcall, hnext, if_true, Option.some.injEq] at hproceed
  subst hproceed
  exact h.reachable.makesPass h.enters

/-- A catch-up run that goes on was spawned by the pass of the start. -/
theorem run_of_catchUp (h : t.CatchesUp c t' during u) (hrun : u.runs.get? k = some run)
    (htrigger : run.trigger = .catchUp) (hlive : run.phase ≠ .stranded) :
    ∃ first, t.nextId ≤ k ∧ t'.runs.get? k = some first ∧ first.Continues run := by
  refine h.induction (motive := fun _ u => ∀ run, u.runs.get? k = some run →
    run.trigger = .catchUp →
    run.phase ≠ .stranded → ∃ first, t.nextId ≤ k ∧ t'.runs.get? k = some first ∧
      first.Continues run)
    ?_ ?_ run hrun htrigger hlive
  · intro run hrun htrigger hlive
    refine ⟨run, Nat.le_of_not_lt fun hlt => ?_, hrun, .refl run⟩
    obtain ⟨before, hbefore, hcontinues⟩ :=
      (transition_of_fire? h.fires).moves.run_continues hlt hrun
    refine hlive (hcontinues.stranded ?_)
    exact h.reachable.stranded_of_catchUp h.holder_eq_none hbefore
      (hcontinues.trigger.symm.trans htrigger)
  · intro before event v v' hbefore _ hfire ih run hrun htrigger hlive
    rcases (transition_of_fire? hfire).run_cases hbefore.reachable_last hrun with
      ⟨mid, hmid, hcontinues⟩ | ⟨-, hspawns⟩
    · obtain ⟨first, hnew, hfirst, hrest⟩ := ih mid hmid (hcontinues.trigger.symm.trans htrigger)
        fun he => hlive (hcontinues.stranded he)
      exact ⟨first, hnew, hfirst, hrest.trans hcontinues⟩
    · have hholder := hbefore.reachable_last.holdsLock c hbefore.waits
      rw [(hspawns.caughtUp htrigger).1] at hholder
      cases hholder

/-- A catch-up run that passes the guard while the start is at its catch-up runs was spawned by its
pass. -/
theorem admitted_cases (h : t.CatchesUp c t' during u) {moment : Moment}
    (hmem : .admitted id number .catchUp moment now ∈ u.journal) :
    .admitted id number .catchUp moment now ∈ t.journal ∨
      ∃ first, t.nextId ≤ id ∧ t'.runs.get? id = some first ∧ first.record = number := by
  refine h.induction (motive := fun _ u => .admitted id number .catchUp moment now ∈ u.journal →
    .admitted id number .catchUp moment now ∈ t.journal ∨
      ∃ first, t.nextId ≤ id ∧ t'.runs.get? id = some first ∧ first.record = number) ?_ ?_ hmem
  · intro hmem
    refine ((transition_of_fire? h.fires).admitted_cases h.reachable hmem).imp_right ?_
    rintro ⟨he, -⟩
    cases he
  · intro before event v v' hbefore _ hfire ih hmem
    rcases (transition_of_fire? hfire).admitted_cases hbefore.reachable_last hmem with
      hold | ⟨-, run, -, hrun, hphase, rfl, htrigger, -⟩
    · exact ih hold
    · obtain ⟨first, hnew, hfirst, hcontinues⟩ :=
        hbefore.run_of_catchUp hrun htrigger (by rw [hphase]; simp)
      exact .inr ⟨first, hnew, hfirst, hcontinues.record.symm⟩

end CatchesUp

/-- The first look at a run in a history, and the record that it finds. -/
structure LooksAt (start : State H) (events : List (Event H)) (id : Nat) (run : Run)
    (v v' : State H) (seen : Record H) : Prop where
  occurs : ∃ after, start.Occurs events (.step (.begin id)) v v' after
  waits : v.runs.get? id = some run
  spawned : run.phase = .spawned
  finds : v.records.get? run.record = some seen

namespace LooksAt

theorem snoc (h : start.LooksAt events id run v v' seen) (event : Event H) :
    start.LooksAt (events ++ [event]) id run v v' seen := by
  obtain ⟨after, hoccurs⟩ := h.occurs
  exact ⟨⟨after ++ [event], hoccurs.snoc event⟩, h.waits, h.spawned, h.finds⟩

theorem state_eq (h : start.LooksAt events id run v v' seen) : v' = v.begin id run := by
  obtain ⟨after, hoccurs⟩ := h.occurs
  have hstep : v.step? (.begin id) = some v' := hoccurs.fires
  simpa [step?, h.waits, begin?, h.spawned, eq_comm] using hstep

theorem journal_suffix (h : start.LooksAt events id run v v' seen)
    (hreplay : start.replay? events = some s) :
    v.journal <:+ s.journal ∧ v'.journal <:+ s.journal := by
  obtain ⟨after, hoccurs⟩ := h.occurs
  have hstep : v.journal <:+ v'.journal := (transition_of_fire? hoccurs.fires).journal_suffix
  have hrest : v'.journal <:+ s.journal :=
    journal_suffix_of_replay? (hoccurs.replay? hreplay)
  exact ⟨hstep.trans hrest, hrest⟩

/-- A run that finds its task running is refused, and no record changes. -/
theorem refused (h : start.LooksAt events id run v v' seen) (hrunning : seen.status = .running) :
    v'.records = v.records ∧ .refused id run.record ∈ v'.journal := by
  have hledger := ledger_finish (v.note (.refused id run.record)) id run .alreadyRunning
  rw [h.state_eq, begin_of_running h.finds hrunning]
  refine ⟨congrArg Ledger.records hledger, ?_⟩
  rw [show (finish _ id run _).journal = _ from congrArg Ledger.journal hledger]
  exact List.mem_cons_self

/-- A run that finds its task at rest passes the guard. -/
theorem admitted (h : start.LooksAt events id run v v' seen) (hfree : seen.status ≠ .running) :
    .admitted id run.record run.trigger v.clock v.now ∈ v'.journal := by
  rcases frame_begin id h.finds with ⟨hrunning, -⟩ | ⟨-, hframe⟩
  · exact absurd hrunning hfree
  · rw [← mem_marks_iff rfl, h.state_eq, hframe]
    exact List.mem_cons_self

/-- If the task was at rest and no run passed its guard since, then the run finds it at rest. -/
theorem free_of_quiet (h : start.LooksAt events id run v v' seen) (hs : s.Reachable)
    (hv : v.Reachable)
    (hsuffix : s.journal <:+ v.journal) (hrecord : s.records.get? run.record = some record)
    (hfree : record.status ≠ .running)
    (hquiet : ∀ k, HasPassed v.journal run.record k → HasPassed s.journal run.record k) :
    seen.status ≠ .running := by
  intro hrunning
  obtain ⟨k, ⟨hpassed, hnot⟩, -⟩ := (hv.status_eq_running_iff h.finds).1 hrunning
  obtain ⟨number, result, finished, hmem⟩ := hs.isRecorded_of_free hrecord hfree (hquiet k hpassed)
  exact hnot ⟨number, result, finished, hsuffix.subset hmem⟩

end LooksAt

namespace CatchesUp

/-- A run of the start waits for its first look, or has had it. -/
theorem looksAt_of_spawned (h : t.CatchesUp c t' during u) (hrun : t'.runs.get? id = some run)
    (hphase : run.phase = .spawned) (howner : run.owner = .call c) :
    u.runs.get? id = some run ∨ ∃ v v' seen, t'.LooksAt during id run v v' seen := by
  refine h.induction (motive := fun during u => u.runs.get? id = some run ∨
    ∃ v v' seen, t'.LooksAt during id run v v' seen) (.inl hrun) ?_
  intro before event v v' hbefore hafter hfire ih
  rcases ih with hwaits | ⟨w, w', seen, hlooks⟩
  · by_cases he : event = .step (.begin id)
    · subst he
      obtain ⟨seen, hseen⟩ := hbefore.reachable_last.record_of_run hwaits
      exact .inr ⟨v, v', seen, ⟨[], Occurs.last hbefore.replay hfire⟩, hwaits, hphase, hseen⟩
    · refine .inl ((transition_of_fire? hfire).spares hbefore.reachable_last hwaits hphase ?_ he)
      rw [howner]
      exact hafter.not_breaks
  · exact .inr ⟨w, w', seen, hlooks.snoc event⟩

/-- A run that the pass of the start spawned had not passed any guard before. -/
theorem not_hasPassed_of_spawned (h : t.CatchesUp c t' during u) (hrun : t'.runs.get? id = some run)
    (hphase : run.phase = .spawned) : ¬ HasPassed t.journal number id := by
  rintro ⟨trigger, moment, now, hmem⟩
  have hsuffix : t.journal <:+ t'.journal := (transition_of_fire? h.fires).journal_suffix
  exact h.reachable_pass.isSound.kept.not_passed (Ledger.standing?_of_spawned hrun hphase)
    ⟨trigger, moment, now, hsuffix.subset hmem⟩

/-- A run of the start that goes on is one of those that its pass spawned. It waits for its first
look, or has passed the guard. -/
theorem own_run_cases (h : t.CatchesUp c t' during u) (hpass : t.MakesPass t' c now)
    (hrun : u.runs.get? k = some run) (hlive : run.phase ≠ .stranded)
    (howner : run.owner = .call c) :
    run.trigger = .catchUp ∧ t'.runs.get? k = some ⟨run.record, .catchUp, .call c, .spawned⟩ ∧
      (run.phase = .spawned ∨ ∃ moment now,
        .admitted k run.record .catchUp moment now ∈ u.journal) := by
  obtain ⟨call, hcall, hawaits⟩ := h.reachable_last.isAwaited.awaited k run c hrun hlive howner
  rw [h.waits] at hcall
  cases hcall
  obtain ⟨first, hnew, hfirst, hcontinues⟩ := h.run_of_catchUp hrun hawaits hlive
  obtain ⟨he, -, -⟩ := hpass.run_cases hnew hfirst
  rw [hcontinues.record, ← he]
  refine ⟨hawaits, hfirst, ?_⟩
  have hspawned : first.phase = .spawned := by rw [he]
  rcases h.looksAt_of_spawned hfirst hspawned (by rw [he]) with hwaits | ⟨v, v', seen, hlooks⟩
  · rw [hrun] at hwaits
    cases hwaits
    exact .inl hspawned
  · have hsuffix := (hlooks.journal_suffix h.replay).2
    by_cases hrunning : seen.status = .running
    · obtain ⟨hnone, -⟩ :=
        h.reachable_last.not_hasPassed_of_refused (hsuffix.subset (hlooks.refused hrunning).2)
      rw [hrun] at hnone
      cases hnone
    · have hadmitted := hsuffix.subset (hlooks.admitted hrunning)
      rw [show first.trigger = .catchUp by rw [he]] at hadmitted
      exact .inr ⟨_, _, hadmitted⟩

/-- A run of the start that passed the guard has been recorded when no run of the start is left. -/
theorem timesRecorded_eq_one (h : t.CatchesUp c t' during u) (hidle : u.hasRunsOf c = false)
    (hrun : t'.runs.get? id = some run) (howner : run.owner = .call c)
    (hpassed : HasPassed u.journal number id) : u.timesRecorded number id = 1 := by
  have hgone : ∀ later, u.runs.get? id ≠ some later := by
    intro later hlater
    obtain ⟨first, hfirst, hcontinues⟩ :=
      Ledger.Moves.run_continues (replay?_moves h.replay) (h.reachable_pass.run_lt hrun) hlater
    rw [show t'.runs.get? id = some first from hfirst] at hrun
    cases hrun
    exact not_owner_of_hasRunsOf hidle id later hlater (hcontinues.owner.trans howner)
  rcases h.reachable_last.recorded_or_outstanding hpassed with ⟨hone, -⟩ | ⟨-, hout⟩
  · exact hone
  · rcases hout with ⟨later, hlater, -⟩ | ⟨later, hlater, -⟩ <;> exact absurd hlater (hgone later)

/-- The catch-up runs since the start took the lock are those that its pass spawned. -/
theorem run_of_mem_caughtUpOn (h : t.CatchesUp c t' during u) (hpass : t.MakesPass t' c now)
    (hnew : u.journal = new ++ t.journal) (hmem : id ∈ caughtUpOn new number) :
    t.nextId ≤ id ∧ t'.runs.get? id = some ⟨number, .catchUp, .call c, .spawned⟩ ∧
      t.IsMissed now number := by
  have hnodup : (admittedOn new number ++ admittedOn t.journal number).Nodup := by
    rw [← admittedOn_append, ← hnew]
    exact h.reachable_last.isOrderly.nodup number
  obtain ⟨moment, instant, hadmitted⟩ := mem_caughtUpOn_iff.1 hmem
  have hu : .admitted id number .catchUp moment instant ∈ u.journal :=
    hnew ▸ List.mem_append_left _ hadmitted
  rcases h.admitted_cases hu with hold | ⟨first, hge, hfirst, rfl⟩
  · have hnew' : id ∈ admittedOn new number := (caughtUpOn_sublist new number).subset hmem
    have hold' : id ∈ admittedOn t.journal number := mem_admittedOn_iff.2 ⟨_, _, _, hold⟩
    exact absurd rfl ((List.nodup_append.1 hnodup).2.2 id hnew' id hold')
  · obtain ⟨he, hmissed, -⟩ := hpass.run_cases hge hfirst
    exact ⟨hge, he ▸ hfirst, hmissed⟩

/-- A run that the pass spawned and that passed the guard is one of the catch-up runs since then. -/
theorem mem_caughtUpOn (h : t.CatchesUp c t' during u) (hnew : u.journal = new ++ t.journal)
    (hrun : t'.runs.get? id = some run) (hphase : run.phase = .spawned) {moment : Moment}
    (hmem : .admitted id number .catchUp moment now ∈ u.journal) : id ∈ caughtUpOn new number := by
  rw [hnew] at hmem
  refine mem_caughtUpOn_iff.2 ⟨moment, now, (List.mem_append.1 hmem).resolve_right fun hold => ?_⟩
  exact h.not_hasPassed_of_spawned hrun hphase ⟨_, _, _, hold⟩

/-- The run that the pass spawned for a missed task is looked at. It catches up on the task, and is
recorded, unless it finds the task running. -/
theorem caughtUpOn_of_isMissed (h : t.CatchesUp c t' during u) (hidle : u.hasRunsOf c = false)
    (hpass : t.MakesPass t' c now) (hnew : u.journal = new ++ t.journal)
    (hmissed : t.IsMissed now number) :
    ∃ id v v' seen, t'.LooksAt during id ⟨number, .catchUp, .call c, .spawned⟩ v v' seen ∧
      (seen.status ≠ .running → caughtUpOn new number = [id] ∧ u.timesRecorded number id = 1) ∧
      (seen.status = .running → caughtUpOn new number = [] ∧ v'.records = v.records) := by
  obtain ⟨id, hge, hrun⟩ := hpass.exists_run hmissed
  obtain ⟨-, -, honly⟩ := hpass.run_cases hge hrun
  have hone : ∀ k ∈ caughtUpOn new number, k = id := by
    intro k hmem
    obtain ⟨hge', hrun', -⟩ := h.run_of_mem_caughtUpOn hpass hnew hmem
    exact honly k _ hge' hrun' rfl
  rcases h.looksAt_of_spawned hrun rfl rfl with hwaits | ⟨v, v', seen, hlooks⟩
  · exact absurd rfl (not_owner_of_hasRunsOf hidle id _ hwaits)
  have hsuffix := (hlooks.journal_suffix h.replay).2
  refine ⟨id, v, v', seen, hlooks, fun hfree => ?_, fun hrunning => ?_⟩
  · have hadmitted := hsuffix.subset (hlooks.admitted hfree)
    have hmem : id ∈ caughtUpOn new number := h.mem_caughtUpOn hnew hrun rfl hadmitted
    have hnodup : (caughtUpOn new number).Nodup := by
      have hall := h.reachable_last.isOrderly.nodup number
      rw [hnew, admittedOn_append] at hall
      exact hall.of_append_left.sublist (caughtUpOn_sublist new number)
    refine ⟨List.perm_singleton.1 ((List.perm_ext_iff_of_nodup hnodup (List.nodup_singleton id)).2
      fun k => ?_), h.timesRecorded_eq_one hidle hrun rfl ⟨_, _, _, hadmitted⟩⟩
    rw [List.mem_singleton]
    exact ⟨hone k, fun he => he ▸ hmem⟩
  · obtain ⟨hrecords, hrefused⟩ := hlooks.refused hrunning
    obtain ⟨-, -, hnot⟩ := h.reachable_last.not_hasPassed_of_refused (hsuffix.subset hrefused)
    refine ⟨List.eq_nil_iff_forall_not_mem.2 fun k hmem => ?_, hrecords⟩
    obtain ⟨moment, instant, hadmitted⟩ := mem_caughtUpOn_iff.1 (hone k hmem ▸ hmem)
    exact hnot number ⟨_, moment, instant, hnew ▸ List.mem_append_left _ hadmitted⟩

end CatchesUp

/-- The start looks at its runs in the poll in which it has made its pass: while one of them still
waits for its first look, no run that does not belong to the start is looked at. The starts of a
simulated session do so. -/
def LooksFirst (t' : State H) (c : Nat) (during : List (Event H)) : Prop :=
  ∀ k v v' after other id own, t'.Occurs during (.step (.begin k)) v v' after →
    v.runs.get? k = some other → other.owner ≠ .call c → v.runs.get? id = some own →
    own.owner = .call c → own.phase ≠ .spawned

theorem LooksFirst.of_append {rest : List (Event H)} (h : t'.LooksFirst c (during ++ rest)) :
    t'.LooksFirst c during := by
  intro k v v' after other id own hoccurs
  obtain ⟨before, rfl, hbefore⟩ := hoccurs.split
  exact h k v v' (after ++ rest) other id own ⟨⟨before, by simp, hbefore⟩, hoccurs.fires⟩

namespace CatchesUp

/-- The start is at its catch-up runs before each event that happens while it is at them. -/
theorem exists_before (h : t.CatchesUp c t' during u) {after : List (Event H)}
    (hoccurs : t'.Occurs during event v v' after) :
    ∃ before, t.CatchesUp c t' before v ∧ during = before ++ event :: after := by
  refine h.induction (motive := fun during _ => ∀ after, t'.Occurs during event v v' after →
    ∃ before, t.CatchesUp c t' before v ∧ during = before ++ event :: after) ?_ ?_ after hoccurs
  · intro after hoccurs
    obtain ⟨before, he, -⟩ := hoccurs.split
    simp at he
  · intro before last w w' hbefore _ _ ih after hoccurs
    rcases hoccurs.of_snoc with ⟨rest, rfl, hearlier⟩ | ⟨rfl, rfl, hv⟩
    · obtain ⟨first, hfirst, rfl⟩ := ih rest hearlier
      exact ⟨first, hfirst, by simp⟩
    · rw [hbefore.replay] at hv
      cases hv
      exact ⟨before, hbefore, rfl⟩

/-- Until a start that looks at its runs first has looked at the one of a missed task, no run passes
the guard of the task. -/
theorem quiet_of_looksFirst (h : t.CatchesUp c t' during u) (hpass : t.MakesPass t' c now)
    (hlooksFirst : t'.LooksFirst c during)
    (hwaits : u.runs.get? id = some ⟨number, .catchUp, .call c, .spawned⟩)
    (hpassed : HasPassed u.journal number k) : HasPassed t.journal number k := by
  refine h.induction (motive := fun during u => t'.LooksFirst c during →
    u.runs.get? id = some ⟨number, .catchUp, .call c, .spawned⟩ →
    HasPassed u.journal number k → HasPassed t.journal number k) ?_ ?_ hlooksFirst hwaits hpassed
  · rintro - - ⟨trigger, moment, instant, hmem⟩
    rcases (transition_of_fire? h.fires).admitted_cases h.reachable hmem with hold | ⟨he, -⟩
    · exact ⟨trigger, moment, instant, hold⟩
    · cases he
  intro before event v v' hbefore hafter hfire ih hlooksFirst hwaits
    ⟨trigger, moment, instant, hmem⟩
  have htransition := transition_of_fire? hfire
  have hwaited : v.runs.get? id = some ⟨number, .catchUp, .call c, .spawned⟩ := by
    rcases htransition.run_cases hbefore.reachable_last hwaits with
      ⟨earlier, hget, hcontinues⟩ | ⟨-, hspawns⟩
    · rw [hget, hcontinues.eq (hcontinues.spawned rfl).symm]
    · have hholder := hbefore.reachable_last.holdsLock c hbefore.waits
      rw [(hspawns.caughtUp rfl).1] at hholder
      cases hholder
  rcases htransition.admitted_cases hbefore.reachable_last hmem with
    hold | ⟨rfl, run, -, hrun, hphase, hnumber, -⟩
  · exact ih hlooksFirst.of_append hwaited ⟨trigger, moment, instant, hold⟩
  by_cases howner : run.owner = .call c
  · -- The only run of the start on the record is the one that still waits.
    obtain ⟨htrigger, -, -⟩ := hbefore.own_run_cases hpass hrun (by rw [hphase]; simp) howner
    obtain ⟨first, hnew, hfirst, hcontinues⟩ := hbefore.run_of_catchUp hrun htrigger
      (by rw [hphase]; simp)
    obtain ⟨own, hnew', hown, hcontinues'⟩ := hbefore.run_of_catchUp hwaited rfl (by simp)
    obtain ⟨-, -, honly⟩ := hpass.run_cases hnew' hown
    obtain rfl : k = id := honly k first hnew hfirst
      (hcontinues.record.symm.trans (hnumber.trans hcontinues'.record))
    exact absurd ⟨trigger, moment, instant, hmem⟩
      (hafter.reachable_last.isSound.kept.not_passed (Ledger.standing?_of_spawned hwaits rfl))
  · exact absurd rfl
      (hlooksFirst k v v' [] run id _ (Occurs.last hbefore.replay hfire) hrun howner hwaited rfl)

/-- A start that looks at its runs first catches up once on each missed task that is at rest. -/
theorem caughtUpOn_of_looksFirst (h : t.CatchesUp c t' during u) (hidle : u.hasRunsOf c = false)
    (hpass : t.MakesPass t' c now) (hnew : u.journal = new ++ t.journal)
    (hmissed : t.IsMissed now number) (hlooksFirst : t'.LooksFirst c during)
    (hrecord : t.records.get? number = some record) (hrest : record.status ≠ .running) :
    ∃ id, caughtUpOn new number = [id] ∧ u.timesRecorded number id = 1 := by
  obtain ⟨id, v, v', seen, hlooks, hfree, -⟩ := h.caughtUpOn_of_isMissed hidle hpass hnew hmissed
  refine ⟨id, hfree ?_⟩
  obtain ⟨after, hoccurs⟩ := hlooks.occurs
  obtain ⟨before, hbefore, rfl⟩ := h.exists_before hoccurs
  exact hlooks.free_of_quiet h.reachable hbefore.reachable_last hbefore.journal_suffix hrecord hrest
    fun k hpassed =>
    hbefore.quiet_of_looksFirst hpass hlooksFirst.of_append hlooks.waits hpassed

end CatchesUp

/-- A start that returned in the history took the lock at `t`, made its pass, was at its catch-up
runs until `u`, and then opened its loop. -/
structure Starts (start : State H) (events : List (Event H)) (c : Nat) (during : List (Event H))
    (t t' u u' : State H) : Prop where
  occurs : ∃ after, start.Occurs events (.step (.proceed c)) t t'
    (during ++ .step (.proceed c) :: after)
  catchesUp : t.CatchesUp c t' during u
  opens : u.step? (.proceed c) = some u'
  returns : u'.calls.get? c = some (.returned .started)

/-- A start opens its loop when none of its runs is left. -/
theorem Starts.openLoop_eq (h : start.Starts events c during t t' u u') :
    u.hasRunsOf c = false ∧ u' = u.openLoop c := by
  have hproceed : u.proceed? c = some u' := h.opens
  simp only [proceed?, h.catchesUp.waits] at hproceed
  split at hproceed <;> cases hproceed
  next hidle => exact ⟨Bool.eq_false_iff.2 hidle, rfl⟩

/-- A start that a step of its own lets return has waited for its catch-up runs. -/
theorem Transition.catchingUp_of_started (h : s.Transition (.step (.proceed c)) s')
    (hcall : s'.calls.get? c = some (.returned .started)) : s.calls.get? c = some .catchingUp := by
  cases h with
  | openLoop hwaits => exact hwaits
  | enterStart =>
    rcases s.enterStart_cases c with he | ⟨records, journal, ⟨fault, he⟩ | he⟩ <;>
      simp [he, calls_breakCall, reply, setCall] at hcall
  | enterStop =>
    simp only [State.enterStop] at hcall
    split at hcall <;> simp [reply, setCall] at hcall
  | answer | drain | endStop => simp [State.drain, State.endStop, reply, setCall] at hcall

/-- Every start that has returned in a history was carried out in it. -/
theorem exists_starts (hstart : start.Reachable) (hnone : ∀ call, start.calls.get? c ≠ some call)
    (hreplay : start.replay? events = some s)
    (hreturns : s.calls.get? c = some (.returned .started)) :
    ∃ during t t' u u', start.Starts events c during t t' u u' := by
  refine (history_induction (motive := fun events s =>
    (s.calls.get? c = some .catchingUp → ∃ during t t',
      start.Occurs events (.step (.proceed c)) t t' during ∧ t.CatchesUp c t' during s) ∧
    (s.calls.get? c = some (.returned .started) → ∃ during t t' u u',
      start.Starts events c during t t' u u'))
    ⟨fun hcall => absurd hcall (hnone _), fun hcall => absurd hcall (hnone _)⟩ ?_ hreplay).2
      hreturns
  intro before event s s' hs hfire ⟨hcatchesUp, hstarts⟩
  have hreachable : s.Reachable := hstart.replay? hs
  have htransition := transition_of_fire? hfire
  refine ⟨fun hcall => ?_, fun hcall => ?_⟩
  · rcases htransition.stood_of_waits hreachable hcall (.inl rfl) with rfl | hstood
    · exact ⟨[], s, s', Occurs.last hs hfire, hreachable, htransition.takesLock_of_catchingUp hcall,
        hfire, hcall, rfl, hcall⟩
    · obtain ⟨during, t, t', hoccurs, h⟩ := hcatchesUp hstood
      exact ⟨during ++ [event], t, t', hoccurs.snoc event, h.snoc hfire hcall⟩
  · rcases htransition.returned_cases hreachable hcall with rfl | hstood | ⟨fault, hbroken⟩
    · obtain ⟨during, t, t', hoccurs, h⟩ := hcatchesUp (htransition.catchingUp_of_started hcall)
      exact ⟨during, t, t', s, s', ⟨[], hoccurs.snoc _⟩, h, hfire, hcall⟩
    · obtain ⟨during, t, t', u, u', ⟨after, hoccurs⟩, h, hopens, hreturns⟩ := hstarts hstood
      have hlater := hoccurs.snoc event
      rw [List.append_assoc, List.cons_append] at hlater
      exact ⟨during, t, t', u, u', ⟨after ++ [event], hlater⟩, h, hopens, hreturns⟩
    · cases hbroken

end State

end CronDaemon.Scheduler
