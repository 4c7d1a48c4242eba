import CronDaemon.Proofs.Scheduler.Dispatched

/-!
# The course of a run

An event takes a run from one phase to another in a few ways, each with the guard that it met and
the token, the deadline and the attempt that it hands on. An event that is not about a run leaves it
as it is, or makes it break off.
-/

namespace CronDaemon.Scheduler

open Job

/-- A run that goes on in the same phase is as it was. -/
theorem Run.Continues.eq {run run' : Run} (h : run.Continues run')
    (hphase : run'.phase = run.phase) : run' = run := by
  obtain ⟨record, trigger, owner, phase⟩ := run
  obtain ⟨record', trigger', owner', phase'⟩ := run'
  obtain ⟨rfl, rfl, rfl, -, -⟩ := h
  cases hphase
  rfl

namespace State

variable {H : Type} {s s' : State H} {id : Nat} {run run' other : Run} {event : Event H}

/-- A run that breaks off is dropped or stranded, whoever waits for it. -/
theorem phase_of_breakRun (hrun : s.runs.get? id = some run) (howner : other.owner = run.owner)
    {fault : Fault} (hrun' : (s.breakRun id other fault).runs.get? id = some run') :
    run'.phase = .stranded := by
  cases hcase : other.owner with
  | dispatched =>
    rw [runs_breakRun_of_dispatched s id hcase] at hrun'
    exact phase_of_abandon hrun'
  | call call =>
    simp only [State.breakRun, hcase, runs_breakCall] at hrun'
    exact phase_of_abandonAll (e := (id, run)) (Table.mem_entries_iff.2 hrun)
      (howner.symm.trans hcase) hrun'

/-- A run that is concluded is dropped, or breaks off. -/
theorem phase_of_conclude (hrun : s.runs.get? id = some run)
    (hrecord : ∃ record, s.records.get? run.record = some record) {result : Except JobError Unit}
    (hrun' : (s.conclude id run result).runs.get? id = some run') : run'.phase = .stranded := by
  rcases s.conclude_cases id run result with
    ⟨hnone, -⟩ | ⟨fault, -, he⟩ | ⟨_, now, after, -, -, -, he⟩
  · obtain ⟨record, hrecord⟩ := hrecord
    rw [hnone] at hrecord
    cases hrecord
  · rw [he] at hrun'
    exact phase_of_breakRun hrun rfl hrun'
  · rw [he, show (s.putDown id run result now after).runs = s.runs.erase id from
      congrArg Ledger.runs (ledger_putDown s id run result now after), Table.get?_erase,
        if_pos rfl] at hrun'
    cases hrun'

/-- How an event takes a run from one phase to another. -/
inductive Goes (s : State H) (id : Nat) : Event H → Phase → Phase → Prop
  | stay {event : Event H} (phase : Phase) : Goes s id event phase phase
  /-- The run breaks off. -/
  | strand {event : Event H} (phase : Phase) : Goes s id event phase .stranded
  /-- The run passes the guard and finds no permit. -/
  | queue (hspare : s.hasSparePermit = false) :
      Goes s id (.step (.begin id)) .spawned (.queued ⟨s.lifetime, false⟩)
  /-- The run passes the guard and may execute at once. -/
  | launch {deadline : Moment} (hspare : s.hasSparePermit = true)
      (hdeadline : momentAfter? s.clock s.options.taskTimeout = some deadline) :
      Goes s id (.step (.begin id)) .spawned (.executing ⟨s.lifetime, false⟩ deadline 0)
  /-- The run gets a permit that it has waited for. -/
  | acquire {token : Token} {deadline : Moment} (hlive : s.isCancelled token = false)
      (hfirst : s.mayAcquire id = true)
      (hdeadline : momentAfter? s.clock s.options.taskTimeout = some deadline) :
      Goes s id (.step (.acquire id)) (.queued token) (.executing token deadline 0)
  /-- An attempt has failed, and there is to be another one. -/
  | rest {token : Token} {deadline : Moment} {attempt : Nat} (ending : Ending) (wake : Moment)
      (failure : JobError) :
      Goes s id (.step (.endAttempt id ending)) (.executing token deadline attempt)
        (.resting token deadline attempt wake failure)
  | retry {token : Token} {deadline wake : Moment} {attempt : Nat} {failure : JobError}
      (hwake : wake ≤ s.clock) :
      Goes s id (.step (.retry id)) (.resting token deadline attempt wake failure)
        (.executing token deadline (attempt + 1))
  | revokeExecuting {token : Token} {deadline : Moment} {attempt : Nat} {canceller : Canceller}
      (hmay : canceller.mayCancel deadline s.clock = true) :
      Goes s id (.step (.revoke id canceller)) (.executing token deadline attempt)
        (.executing { token with cancelled := true } deadline attempt)
  | revokeResting {token : Token} {deadline wake : Moment} {attempt : Nat} {failure : JobError}
      {canceller : Canceller} (hmay : canceller.mayCancel deadline s.clock = true) :
      Goes s id (.step (.revoke id canceller)) (.resting token deadline attempt wake failure)
        (.resting { token with cancelled := true } deadline attempt wake failure)

/-- A run that a change leaves stays as it is, or breaks off. -/
theorem Leaves.goes {breaks : Owner → Prop} (h : Leaves breaks s s' id)
    (hrun : s.runs.get? id = some run)
    (hrun' : s'.runs.get? id = some run') : s.Goes id event run.phase run'.phase := by
  rw [Leaves, hrun, hrun'] at h
  cases h with
  | same => exact .stay _
  | stranded => exact .strand _

/-- A run that is put into a phase is in that phase. -/
theorem phase_of_setPhase {phase : Phase} (h : s'.runs = (s.setPhase id phase).runs)
    (hrun' : s'.runs.get? id = some run') : run'.phase = phase := by
  rw [h, State.setPhase, Table.get?_modify, if_pos rfl] at hrun'
  obtain ⟨run, -, rfl⟩ := Option.map_eq_some_iff.1 hrun'
  rfl

/-- A run that is launched executes its first attempt, with a deadline from now on, or breaks
off. -/
theorem phase_of_launch (hrun : s.runs.get? id = some run) (howner : other.owner = run.owner)
    {token : Token} (hrun' : (s.launch id other token).runs.get? id = some run') :
    (∃ deadline, momentAfter? s.clock s.options.taskTimeout = some deadline ∧
      run'.phase = .executing token deadline 0) ∨ run'.phase = .stranded := by
  unfold State.launch at hrun'
  split at hrun'
  · next deadline hdeadline =>
    exact .inl ⟨deadline, hdeadline, phase_of_setPhase (s := s.takePermit) rfl hrun'⟩
  · have hqueued := get?_runs_setPhase hrun (.queued token) rfl
    exact .inr (phase_of_breakRun hqueued howner hrun')

/-- A run that is looked at for the first time and stays waits for a permit, executes, or breaks
off. -/
theorem goes_of_begin (hrun : s.runs.get? id = some run) (hphase : run.phase = .spawned)
    (hrun' : (s.begin id run).runs.get? id = some run') :
    s.Goes id (.step (.begin id)) run.phase run'.phase := by
  rcases begin_cases s id run with h | h | h <;> rw [h] at hrun'
  · rw [hrun] at hrun'
    cases hrun'
    exact .stay _
  · rw [show (finish _ id run _).runs = s.runs.erase id from
      congrArg Ledger.runs (ledger_finish (s.note _) id run _), Table.get?_erase,
        if_pos rfl] at hrun'
    cases hrun'
  · rw [hphase]
    cases hspare : s.hasSparePermit with
    | true =>
      rw [accept_of_spare hspare] at hrun'
      rcases phase_of_launch (s := s.letPass id run) hrun rfl hrun' with
        ⟨deadline, hdeadline, he⟩ | he
      · rw [he]
        exact .launch hspare hdeadline
      · rw [he]
        exact .strand _
    | false =>
      rw [accept_of_not_spare hspare] at hrun'
      rw [phase_of_setPhase (s := s) rfl hrun']
      exact .queue hspare

theorem goes_of_endAttempt (hrun : s.runs.get? id = some run)
    (hrecord : ∃ record, s.records.get? run.record = some record) {token : Token}
    {deadline : Moment}
    {attempt : Nat} (hphase : run.phase = .executing token deadline attempt) {ending : Ending}
    (hrun' : (s.endAttempt id run token deadline attempt ending).runs.get? id = some run') :
    s.Goes id (.step (.endAttempt id ending)) run.phase run'.phase := by
  have hconclude : ∀ entry result,
      ((s.note entry).conclude id run result).runs.get? id = some run' →
      s.Goes id (.step (.endAttempt id ending)) run.phase run'.phase := by
    intro entry result h
    rw [phase_of_conclude (s := s.note entry) hrun hrecord h]
    exact .strand _
  simp only [State.endAttempt] at hrun'
  split at hrun'
  · exact hconclude _ _ hrun'
  · split at hrun'
    · rw [phase_of_setPhase (s := s) rfl hrun', hphase]
      exact .rest ending _ _
    · exact hconclude _ _ hrun'

/-- Every event takes a run from one phase to another in one of these ways. -/
theorem Transition.goes (h : s.Transition event s') (hs : s.Reachable)
    (hrun : s.runs.get? id = some run) (hrun' : s'.runs.get? id = some run') :
    s.Goes id event run.phase run'.phase := by
  -- An event goes on with one run at most; every other one stays as it is, or is stranded.
  by_cases hevent : event.run? = some id
  · have hsame : ∀ {other}, s.runs.get? id = some other → other = run :=
      fun hother => Option.some.inj (hother.symm.trans hrun)
    have hrecord := hs.record_of_run hrun
    cases h with
    | begin hk hphase =>
      cases hevent
      obtain rfl := hsame hk
      exact goes_of_begin hk hphase hrun'
    | cancel hk =>
      cases hevent
      obtain rfl := hsame hk
      rw [phase_of_conclude (s := s.dequeue id) hk hrecord hrun']
      exact .strand _
    | acquire hk hphase hlive hfirst =>
      cases hevent
      obtain rfl := hsame hk
      rw [hphase]
      rcases phase_of_launch (s := s.dequeue id) hk rfl hrun' with ⟨deadline, hdeadline, he⟩ | he
      · rw [he]
        exact .acquire hlive hfirst hdeadline
      · rw [he]
        exact .strand _
    | endAttempt ending hk hphase =>
      cases hevent
      obtain rfl := hsame hk
      exact goes_of_endAttempt hk hrecord hphase hrun'
    | retry hk hphase hwake =>
      cases hevent
      obtain rfl := hsame hk
      rw [phase_of_setPhase (s := s) rfl hrun', hphase]
      exact .retry hwake
    | giveUp hk =>
      cases hevent
      obtain rfl := hsame hk
      rw [phase_of_conclude hk hrecord hrun']
      exact .strand _
    | revokeExecuting hk hphase hdeadline =>
      cases hevent
      obtain rfl := hsame hk
      rw [phase_of_setPhase (s := s) rfl hrun', hphase]
      exact .revokeExecuting hdeadline
    | revokeResting hk hphase hdeadline =>
      cases hevent
      obtain rfl := hsame hk
      rw [phase_of_setPhase (s := s) rfl hrun', hphase]
      exact .revokeResting hdeadline
    | _ => cases hevent
  · exact (h.leaves (hs.run_lt hrun) hevent).goes hrun hrun'

/-- A run that stays goes on with its record, its trigger and its owner. -/
theorem Transition.continues (h : s.Transition event s') (hs : s.Reachable)
    (hrun : s.runs.get? id = some run) (hrun' : s'.runs.get? id = some run') :
    run.Continues run' := by
  obtain ⟨run₀, hrun₀, hcontinues⟩ := h.moves.run_continues (hs.run_lt hrun) hrun'
  rw [show s.runs.get? id = some run₀ from hrun₀] at hrun
  cases hrun
  exact hcontinues

/-- What every event keeps of the phase of a run is kept through a history, unless the run breaks
off. -/
theorem Reachable.phase_kept {events : List (Event H)} {motive : Phase → Prop} (hs : s.Reachable)
    (hrun : s.runs.get? id = some run) (hphase : motive run.phase)
    (hkept : ∀ t event phase phase', Goes (H := H) t id event phase phase' → motive phase →
      motive phase' ∨ phase' = .stranded)
    (h : s.replay? events = some s') (hrun' : s'.runs.get? id = some run') :
    motive run'.phase ∨ run'.phase = .stranded := by
  refine history_induction (motive := fun _ u => ∀ run', u.runs.get? id = some run' →
    motive run'.phase ∨ run'.phase = .stranded) (fun run' hrun' => ?_) ?_ h run' hrun'
  · rw [hrun] at hrun'
    cases hrun'
    exact .inl hphase
  · intro before event t t' ht hfire ih run' hrun'
    have htreach : t.Reachable := hs.replay? ht
    have hlt : id < t.nextId :=
      Nat.lt_of_lt_of_le (hs.run_lt hrun) (Ledger.Moves.nextId_le (replay?_moves ht))
    have htransition := transition_of_fire? hfire
    obtain ⟨mid, hmid, hcontinues⟩ := htransition.moves.run_continues hlt hrun'
    rcases ih mid hmid with hmotive | hstranded
    · exact hkept _ _ _ _ (htransition.goes htreach hmid hrun') hmotive
    · exact .inr (hcontinues.stranded hstranded)

/-- A run that holds a permit goes on with it, or breaks off. -/
theorem Goes.holdsPermit {phase phase' : Phase} (h : s.Goes id event phase phase')
    (hholds : phase.holdsPermit = true) : phase'.holdsPermit = true ∨ phase' = .stranded := by
  cases h with
  | stay => exact .inl hholds
  | strand => exact .inr rfl
  | queue | launch | acquire => cases hholds
  | rest | retry | revokeExecuting | revokeResting => exact .inl rfl

/-- The run has ended or broken off, or there never was such a run. -/
def IsOver (s : State H) (id : Nat) : Prop :=
  ∀ run, s.runs.get? id = some run → run.phase = .stranded

/-- A run that is over stays over. -/
theorem IsOver.replay? {events : List (Event H)} (hover : s.IsOver id) (hlt : id < s.nextId)
    (h : s.replay? events = some s') : s'.IsOver id := by
  intro run' hrun'
  obtain ⟨run, hrun, hcontinues⟩ := Ledger.Moves.run_continues (replay?_moves h) hlt hrun'
  exact hcontinues.stranded (hover run hrun)

end State

end CronDaemon.Scheduler
