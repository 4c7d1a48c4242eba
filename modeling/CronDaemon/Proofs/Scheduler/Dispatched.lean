import CronDaemon.Proofs.Scheduler.Bystanders
import CronDaemon.Proofs.Scheduler.OverlapGuard
import CronDaemon.Proofs.Scheduler.Registration

/-!
# Dispatched runs that wait for their first look

A dispatched run belongs to no call, so that nothing leaves it in the midst: until it is looked at
for the first time, every other change spares it. The first look takes a dispatched run past the
guard, or tells it that its task is running.
-/

namespace CronDaemon.Scheduler

open Job

namespace State

variable {H : Type} {s s' t : State H} {id : Nat} {run : Run} {event : Event H}
  {events : List (Event H)}

/-- A run that was not looked at goes on only with its first look. -/
theorem Transition.eq_begin_of_run? (h : s.Transition event s') (hrun : s.runs.get? id = some run)
    (hphase : run.phase = .spawned) (he : event.run? = some id) : event = .step (.begin id) := by
  cases h with
  | begin =>
    cases he
    rfl
  | cancel hk hpast | acquire hk hpast | endAttempt _ hk hpast | retry hk hpast | giveUp hk hpast
  | revokeExecuting hk hpast | revokeResting hk hpast =>
    cases he
    rw [hrun] at hk
    cases hk
    rw [hphase] at hpast
    cases hpast
  | _ => cases he

/-- Every event but the first look at a run that waits for it leaves the run as it is, as long as
its owner does not break off. -/
theorem Transition.spares (h : s.Transition event s') (hs : s.Reachable)
    (hrun : s.runs.get? id = some run) (hphase : run.phase = .spawned)
    (howner : ¬ s'.Breaks run.owner)
    (hne : event ≠ .step (.begin id)) : s'.runs.get? id = some run :=
  (h.leaves (hs.run_lt hrun) fun he => hne
    (h.eq_begin_of_run? hrun hphase he)).eq_of_not_breaks hrun howner

/-- A dispatched run that was not looked at waits for that, whatever else happens. -/
theorem Reachable.waits (ht : t.Reachable) (h : t.replay? events = some s)
    (hrun : t.runs.get? id = some run) (howner : run.owner = .dispatched)
    (hphase : run.phase = .spawned) (hnot : .step (.begin id) ∉ events) :
    s.runs.get? id = some run := by
  refine history_induction (motive := fun events s => .step (.begin id) ∉ events →
    s.runs.get? id = some run) (fun _ => hrun) ?_ h hnot
  intro before event u u' hu hfire ih hnot
  refine (transition_of_fire? hfire).spares (ht.replay? hu)
    (ih fun hmem => hnot (List.mem_append_left _ hmem)) hphase
      (howner ▸ u'.not_breaks_dispatched) ?_
  rintro rfl
  exact hnot (List.mem_append_right _ List.mem_cons_self)

/-- A run that breaks off behind the guard stays there. -/
theorem get?_runs_abandon (hrun : s.runs.get? id = some run) (hactive : run.phase.isActive = true) :
    (s.abandon id).runs.get? id = some { run with phase := .stranded } := by
  refine get?_runs_setPhase hrun .stranded ?_
  cases hphase : run.phase with
  | spawned | stranded =>
    rw [hphase] at hactive
    cases hactive
  | queued | executing | resting =>
    simp only [State.abandon, hrun, hphase]
    rfl

/-- A dispatched run that gets a permit goes on, or breaks off. -/
theorem get?_runs_launch (hrun : s.runs.get? id = some run) (howner : run.owner = .dispatched)
    (token : Token) :
    ∃ phase : Phase, phase ≠ .spawned ∧
      (s.launch id run token).runs.get? id = some { run with phase := phase } := by
  unfold launch
  split
  · next deadline _ => exact ⟨.executing token deadline 0, by simp, get?_runs_setPhase hrun _ rfl⟩
  · have hqueued := get?_runs_setPhase hrun (.queued token) rfl
    have hruns : ((s.setPhase id (.queued token)).breakRun id run .unreachableDeadline).runs =
        ((s.setPhase id (.queued token)).abandon id).runs := by
      simp only [State.breakRun, howner]
      exact congrArg Ledger.runs (ledger_wakeStops _)
    have hstranded := get?_runs_abandon hqueued rfl
    exact ⟨.stranded, by simp, hruns ▸ hstranded⟩

/-- A dispatched run that passes the guard goes on, waits for a permit, or breaks off. -/
theorem get?_runs_accept (hrun : s.runs.get? id = some run) (howner : run.owner = .dispatched) :
    ∃ phase : Phase, phase ≠ .spawned ∧
      (s.accept id run).runs.get? id = some { run with phase := phase } := by
  simp only [accept]
  split
  · exact get?_runs_launch (by exact hrun) howner _
  · exact ⟨.queued _, by simp, get?_runs_setPhase hrun _ rfl⟩

/-- The first look at a dispatched run takes it past the guard, or finds another run of its task
outstanding. -/
theorem Reachable.exists_outstanding_of_begin (hs : s.Reachable) (hrun : s.runs.get? id = some run)
    (howner : run.owner = .dispatched) (hphase : run.phase = .spawned) :
    ∃ s' k, s.step? (.begin id) = some s' ∧ IsOutstanding s'.journal run.record k ∧
      (k = id ∨ .refused id run.record ∈ s'.journal ∧ IsOutstanding s.journal run.record k) := by
  obtain ⟨record, hrecord⟩ := hs.record_of_run hrun
  have hstep : s.step? (.begin id) = some (s.begin id run) := by
    simp [State.step?, begin?, hrun, hphase]
  by_cases hrunning : record.status = .running
  · obtain ⟨k, hk, -⟩ := (hs.status_eq_running_iff hrecord).1 hrunning
    have hjournal : (s.begin id run).journal = .refused id run.record :: s.journal := by
      simp only [begin, hrecord, if_pos hrunning]
      exact congrArg Ledger.journal (ledger_finish (s.note _) id run .alreadyRunning)
    refine ⟨_, k, hstep, ?_, .inr ⟨hjournal ▸ List.mem_cons_self, hk⟩⟩
    rwa [hjournal, IsOutstanding, hasPassed_cons_of_isRemark rfl, isRecorded_cons_of_isRemark rfl]
  · have hbegin : s.begin id run = s.accept id run := by
      simp only [begin, hrecord, if_neg hrunning]
    obtain ⟨phase, hpast, hrun'⟩ := get?_runs_accept hrun howner
    rw [← hbegin] at hrun'
    have hholds : (s.begin id run).ledger.Holds run.record id := by
      simpa [Ledger.Holds, hpast] using standing?_of_get? hrun'
    exact ⟨_, id, hstep, (hs.step? hstep).isSound.kept.outstanding_iff.2 hholds, .inl rfl⟩

end State

end CronDaemon.Scheduler
