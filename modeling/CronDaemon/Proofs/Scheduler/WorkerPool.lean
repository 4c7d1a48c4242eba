import CronDaemon.Proofs.Scheduler.Permits
import CronDaemon.Proofs.Scheduler.Regime
import CronDaemon.Proofs.Scheduler.Tally

/-!
# What the worker pool guarantees

A run takes one permit with its first attempt, keeps it through its retries, and gives it back once:
a run that has left its permit never holds one again. A run that is cancelled while it waits for a
permit never gets one, whatever becomes free: it waits until it finds that it is cancelled, and then
it is recorded, or breaks off in case of trouble. Whoever waits although nothing can be acquired
waits for a permit that is held.
-/

namespace CronDaemon.Scheduler

open Job

namespace State

variable {H : Type} {start s s' t u : State H} {events after : List (Event H)} {event : Event H}
  {id permits : Nat} {run : Run}

theorem exists_of_mem_holders (h : id ∈ s.holders) :
    ∃ run, s.runs.get? id = some run ∧ run.phase.holdsPermit = true :=
  standsIn_eq_true_iff.1 (mem_holders_iff.1 h)

theorem mem_holders_of_get? (hrun : s.runs.get? id = some run) :
    id ∈ s.holders ↔ run.phase.holdsPermit = true := by
  rw [mem_holders_iff, standsIn_of_get? hrun]

theorem IsOver.notMem_holders (h : s.IsOver id) : id ∉ s.holders := by
  intro hmem
  obtain ⟨run, hrun, hholds⟩ := exists_of_mem_holders hmem
  rw [h run hrun] at hholds
  cases hholds

/-- A run that holds a permit holds it after an event, or is over. -/
theorem Transition.holds_or_isOver (h : s.Transition event s') (hs : s.Reachable)
    (hmem : id ∈ s.holders) : id ∈ s'.holders ∨ s'.IsOver id := by
  obtain ⟨run, hrun, hholds⟩ := exists_of_mem_holders hmem
  cases hrun' : s'.runs.get? id with
  | none => exact .inr fun run' he => absurd (hrun'.symm.trans he) nofun
  | some run' =>
    rcases (h.goes hs hrun hrun').holdsPermit hholds with hholds' | hstranded
    · exact .inl ((mem_holders_of_get? hrun').2 hholds')
    · refine .inr fun run'' he => ?_
      rw [hrun'] at he
      cases he
      exact hstranded

/-- A run that has left its permit never holds one again. -/
theorem Transition.notMem_holders_of_left (h : s.Transition event s') (hs : s.Reachable)
    (hmem : id ∈ s.holders) (hleft : id ∉ s'.holders) (hlater : s'.replay? after = some u) :
    id ∉ u.holders := by
  obtain ⟨run, hrun, -⟩ := exists_of_mem_holders hmem
  have hover : s'.IsOver id := (h.holds_or_isOver hs hmem).resolve_left hleft
  have hlt : id < s'.nextId := Nat.lt_of_lt_of_le (hs.run_lt hrun) (Ledger.Moves.nextId_le h.moves)
  exact (hover.replay? hlt hlater).notMem_holders

/-- A run that is reported to call its handler holds a permit, and had one before unless this is its
first attempt. -/
theorem Transition.mem_holders_of_began (h : s.Transition event s') (hs : s.Reachable)
    {record attempt : Nat} {trigger : Trigger} {moment : Moment}
    (hmem : .began id record attempt trigger moment ∈ s'.journal)
    (hnew : .began id record attempt trigger moment ∉ s.journal) :
    id ∈ s'.holders ∧ (id ∈ s.holders ↔ attempt ≠ 0) := by
  cases (h.report_cases rfl hmem).resolve_left hnew with
  | @began _ _ _ run run' token deadline _ hrun hidle hrun' hphase' =>
    have hgoes := h.goes hs hrun hrun'
    rw [hphase'] at hgoes
    refine ⟨(mem_holders_of_get? hrun').2 (by rw [hphase']; rfl), ?_⟩
    rw [mem_holders_of_get? hrun]
    generalize run.phase = phase at hgoes hidle
    cases hgoes with
    | stay | revokeExecuting => cases hidle
    | launch | acquire => exact iff_of_false (by simp [Phase.holdsPermit]) (by simp)
    | retry => exact iff_of_true rfl (Nat.succ_ne_zero _)

/-- A run with a permit that is dropped is one holder less, and the others are as they were. -/
theorem holders_of_erase (hmem : id ∈ s.holders) (hruns : s'.runs = s.runs.erase id) :
    s'.holders.length + 1 = s.holders.length ∧ ∀ k, k ∈ s'.holders ↔ k ∈ s.holders ∧ k ≠ id := by
  have hsame : ∀ k, id ≠ k → s'.standsIn Phase.holdsPermit k = s.standsIn Phase.holdsPermit k :=
    fun k hne => standsIn_erase_of_ne hne hruns
  have hgone : s'.standsIn Phase.holdsPermit id = false := standsIn_erase hruns
  constructor
  · have hlength := length_holders_update hsame
    rw [hgone, mem_holders_iff.1 hmem] at hlength
    exact hlength
  · intro k
    rw [mem_holders_iff, mem_holders_iff]
    by_cases he : id = k
    · subst he
      simp [hgone]
    · rw [hsame k he]
      exact (and_iff_left fun hk => he hk.symm).symm

/-- How an event from one state to another treats the permits of the pool. -/
structure KeepsPermits (s s' : State H) (free free' : Nat) : Prop where
  /-- A run that has left its permit never holds one again. -/
  left : ∀ id ∈ s.holders, id ∉ s'.holders → ∀ after u, s'.replay? after = some u → id ∉ u.holders
  /-- A run takes its permit with its first attempt and has it at every other one. -/
  began : ∀ id record attempt trigger moment, .began id record attempt trigger moment ∈ s'.journal →
    .began id record attempt trigger moment ∉ s.journal →
    id ∈ s'.holders ∧ (id ∈ s.holders ↔ attempt ≠ 0)
  /-- A run with a permit that is recorded gives back this permit, and no other run gives back
  one. -/
  recorded : ∀ id record result finished, .recorded id record result finished ∈ s'.journal →
    .recorded id record result finished ∉ s.journal → id ∈ s.holders →
    free' = free + 1 ∧ ∀ k, k ∈ s'.holders ↔ k ∈ s.holders ∧ k ≠ id

theorem Transition.keepsPermits (h : s.Transition event s') (hs : s.Reachable) {pool pool' : Pool}
    (hfits : pool.Fits s permits none) (hfits' : pool'.Fits s' permits none) :
    s.KeepsPermits s' pool.free pool'.free where
  left _ hmem hleft _ _ hlater := h.notMem_holders_of_left hs hmem hleft hlater
  began _ _ _ _ _ hmem hnew := h.mem_holders_of_began hs hmem hnew
  recorded id record result finished hmem hnew hholds := by
    cases (h.report_cases rfl hmem).resolve_left hnew with
    | recorded hrun hends hreading hruns =>
      obtain ⟨hlength, hothers⟩ := holders_of_erase hholds hruns
      have hbefore := hfits.conserved
      have hafter := hfits'.conserved
      exact ⟨by omega, hothers⟩

/-- No more handlers execute than there are permits. -/
theorem executing_le_of_fits {pool : Pool} (h : pool.Fits s permits none) :
    s.runs.values.countP (·.phase.isExecuting) ≤ permits := by
  have hcount : s.runs.values.countP (·.phase.isExecuting) ≤ s.holders.length := by
    rw [holders, List.length_map, ← List.countP_eq_length_filter, Table.values, List.countP_map]
    refine List.countP_mono_left fun e _ he => ?_
    obtain ⟨k, record, trigger, owner, phase⟩ := e
    cases phase <;> first | rfl | cases he
  have hconserved := h.conserved
  omega

/-- If nothing can be acquired although a run waits, no permit is free. -/
theorem free_eq_zero_of_fits {pool : Pool} (h : pool.Fits s permits none)
    (hpool : s.pool = some pool)
    (hstuck : ∀ k, s.step? (.acquire k) = none) (hqueued : s.standsIn Phase.isQueued id = true) :
    pool.free = 0 := by
  refine Nat.eq_zero_of_not_pos fun hpos => ?_
  have hwaits : id ∈ pool.waiting := h.waits id hqueued nofun
  obtain ⟨first, rest, hwaiting⟩ := List.exists_cons_of_ne_nil (List.ne_nil_of_mem hwaits)
  obtain ⟨run, hrun, hphase⟩ := standsIn_eq_true_iff.1
    (h.queued first (by rw [hwaiting]; exact List.mem_cons_self))
  obtain ⟨token, hphase⟩ := Phase.isQueued_iff.1 hphase
  -- The first that waits has a claim to a free permit.
  have hfirst : s.mayAcquire first = true := by
    obtain ⟨n, hn⟩ := Nat.exists_eq_succ_of_ne_zero (Nat.ne_of_gt hpos)
    simp [mayAcquire, hpool, hwaiting, hn]
  have hnone := hstuck first
  simp only [step?, hrun, Option.bind_some, acquire?, hphase, hfirst, if_true] at hnone
  split at hnone <;> cases hnone

/-- What becomes of a run that was cancelled while it waited for a permit. -/
inductive IsPassedOver (s : State H) (id : Nat) (run : Run) : Prop
  | waits (hrun : s.runs.get? id = some run)
  | stranded (h : s.IsStranded run.record id)
  | recorded (finished : Instant)
      (hmem : .recorded id run.record (.error .cancelled) finished ∈ s.journal)
      (hgone : s.runs.get? id = none)

theorem IsPassedOver.holdsPermit_eq_false {token : Token} (hphase : run.phase = .queued token)
    (hover : s.IsPassedOver id run) {run' : Run} (hrun' : s.runs.get? id = some run') :
    run'.phase.holdsPermit = false := by
  cases hover with
  | waits hrun =>
    rw [hrun] at hrun'
    cases hrun'
    rw [hphase]
    rfl
  | stranded h =>
    obtain ⟨run₀, hrun₀, -, hstranded⟩ := h
    rw [hrun₀] at hrun'
    cases hrun'
    rw [hstranded]
    rfl
  | recorded finished hmem hgone =>
    rw [hgone] at hrun'
    cases hrun'

/-- An event passes over a run that was cancelled while it waited for a permit. -/
theorem Transition.isPassedOver (h : s.Transition event s') (hs : s.Reachable) {token : Token}
    (hphase : run.phase = .queued token) (hcancelled : s.isCancelled token = true)
    (hlt : id < s.nextId) (hover : s.IsPassedOver id run) : s'.IsPassedOver id run := by
  cases hover with
  | waits hrun =>
    cases hrun' : s'.runs.get? id with
    | none =>
      obtain ⟨result, finished, hends, -, hmem⟩ :=
        h.ends_of_gone hs hrun (by rw [hphase]; simp) hrun'
      rw [hphase] at hends
      cases hends with
      | cancel => exact .recorded finished hmem hrun'
    | some run' =>
      have hcontinues := h.continues hs hrun hrun'
      have hgoes := h.goes hs hrun hrun'
      rw [hphase] at hgoes
      generalize hphase' : run'.phase = phase' at hgoes
      cases hgoes with
      | stay =>
        rw [hcontinues.eq (hphase'.trans hphase.symm)] at hrun'
        exact .waits hrun'
      | strand => exact .stranded ⟨run', hrun', hcontinues.record, hphase'⟩
      | acquire hlive =>
        rw [hcancelled] at hlive
        cases hlive
  | stranded hstranded =>
    obtain ⟨before, hrun, hrecord, hstranded⟩ := hstranded
    cases hrun' : s'.runs.get? id with
    | none =>
      obtain ⟨result, finished, hends, -⟩ := h.ends_of_gone hs hrun (by rw [hstranded]; simp) hrun'
      rw [hstranded] at hends
      cases hends
    | some run' =>
      have hcontinues := h.continues hs hrun hrun'
      exact .stranded ⟨run', hrun', hcontinues.record.trans hrecord, hcontinues.stranded hstranded⟩
  | recorded finished hmem hgone =>
    exact .recorded finished (h.journal_suffix.subset hmem)
      (h.run_eq_none hlt hgone)

/-- A run whose handler was called holds a permit, or is over. -/
theorem Reachable.holds_or_isOver_of_began (hs : s.Reachable) {record attempt : Nat}
    {trigger : Trigger}
    {moment : Moment} (hmem : .began id record attempt trigger moment ∈ s.journal) :
    id < s.nextId ∧ (id ∈ s.holders ∨ s.IsOver id) := by
  refine hs.step_induction (motive := fun s => .began id record attempt trigger moment ∈ s.journal →
    id < s.nextId ∧ (id ∈ s.holders ∨ s.IsOver id)) (fun _ _ hmem => nomatch hmem) ?_ hmem
  intro s event s' hs h ih hmem
  by_cases hold : .began id record attempt trigger moment ∈ s.journal
  · obtain ⟨hlt, hcases⟩ := ih hold
    refine ⟨Nat.lt_of_lt_of_le hlt (Ledger.Moves.nextId_le h.moves), ?_⟩
    rcases hcases with hholds | hover
    · exact h.holds_or_isOver hs hholds
    · refine .inr fun run' hrun' => ?_
      obtain ⟨run, hrun, hcontinues⟩ := h.moves.run_continues hlt hrun'
      exact hcontinues.stranded (hover run hrun)
  · obtain ⟨hholds, -⟩ := h.mem_holders_of_began hs hmem hold
    obtain ⟨run, hrun, -⟩ := exists_of_mem_holders hholds
    have hlt : id < s'.nextId := (h.moves.isSound hs.isSound).fresh.run_lt (standing?_of_get? hrun)
    exact ⟨hlt, .inl hholds⟩

/-- A run that was cancelled while it waited for a permit is passed over for ever, and its handler
is never called. -/
theorem Reachable.isPassedOver (hs : s.Reachable) {token : Token} (hrun : s.runs.get? id = some run)
    (hphase : run.phase = .queued token) (hcancelled : s.isCancelled token = true)
    (h : s.replay? after = some u) :
    u.IsPassedOver id run ∧ ∀ record attempt trigger moment,
      .began id record attempt trigger moment ∉ u.journal := by
  refine history_induction (motive := fun _ u => u.IsPassedOver id run ∧
    ∀ record attempt trigger moment, .began id record attempt trigger moment ∉ u.journal) ?_ ?_ h
  · refine ⟨.waits hrun, fun record attempt trigger moment hmem => ?_⟩
    rcases (hs.holds_or_isOver_of_began hmem).2 with hholds | hover
    · rw [mem_holders_of_get? hrun, hphase] at hholds
      cases hholds
    · have hstranded := hover run hrun
      rw [hphase] at hstranded
      cases hstranded
  · rintro before event v v' hv hfire ⟨hover, hnot⟩
    have htransition := transition_of_fire? hfire
    have hvreach : v.Reachable := hs.replay? hv
    have hlt : id < v.nextId := Nat.lt_of_lt_of_le (hs.run_lt hrun)
      (Ledger.Moves.nextId_le (replay?_moves hv))
    have hover' : v'.IsPassedOver id run :=
      htransition.isPassedOver hvreach hphase (hs.isCancelled_of_replay? hv hcancelled) hlt hover
    refine ⟨hover', fun record attempt trigger moment hmem => ?_⟩
    obtain ⟨hholds, -⟩ := htransition.mem_holders_of_began hvreach hmem (hnot _ _ _ _)
    obtain ⟨run', hrun', hholds⟩ := exists_of_mem_holders hholds
    rw [hover'.holdsPermit_eq_false hphase hrun'] at hholds
    cases hholds

/-- Where nothing makes a run break off, a result is put down. -/
theorem IsUntroubled.conclude (h : s.IsUntroubled) (id : Nat) {record : Record H}
    (hrecord : s.records.get? run.record = some record) (result : Except JobError Unit) :
    ∃ now next, s.conclude id run result =
      s.putDown id run result now (record.finished result now next) := by
  obtain ⟨-, now, hreading, hnext⟩ := h
  obtain ⟨next, hnext⟩ := hnext run.record record hrecord
  refine ⟨now, next, ?_⟩
  simp only [State.conclude, hrecord, hreading, Record.recorded, hnext, Except.map]

/-- A run that waits for a permit and is cancelled can find that, and is recorded as cancelled where
nothing makes a run break off. -/
theorem exists_recorded_of_cancelled {token : Token} (hrun : s.runs.get? id = some run)
    (hphase : run.phase = .queued token) (hcancelled : s.isCancelled token = true)
    {record : Record H} (hrecord : s.records.get? run.record = some record) :
    ∃ s', s.step? (.acquire id) = some s' ∧ (s.IsUntroubled → ∃ record' finished,
      s'.records.get? run.record = some record' ∧ s'.runs = s.runs.erase id ∧
      s'.journal = .recorded id run.record (.error .cancelled) finished :: s.journal ∧
      record'.status = .failed ∧ record'.lastError = some "Job cancelled" ∧
      record'.runCount = record.runCount + 1 ∧ record'.failureCount = record.failureCount + 1) := by
  refine ⟨(s.dequeue id).conclude id run (.error .cancelled), ?_, fun huntroubled => ?_⟩
  · simp only [step?, hrun, Option.bind_some, acquire?, hphase, hcancelled, if_true]
  · have hdequeued : (s.dequeue id).IsUntroubled := huntroubled
    obtain ⟨now, next, he⟩ := hdequeued.conclude id hrecord (.error .cancelled)
    have hledger := ledger_putDown (s.dequeue id) id run (.error .cancelled) now
      (record.finished (.error .cancelled) now next)
    rw [he]
    refine ⟨record.finished (.error .cancelled) now next, now, ?_, congrArg Ledger.runs hledger,
      congrArg Ledger.journal hledger, rfl, rfl, rfl, rfl⟩
    rw [show (putDown _ id run _ now _).records = _ from congrArg Ledger.records hledger,
      Table.get?_insert, if_pos rfl]

/-- A run that waits for a permit has passed the guard, and so it is recorded once if at all. -/
theorem Reachable.timesRecorded_of_queued (hs : s.Reachable) {token : Token}
    (hrun : s.runs.get? id = some run) (hphase : run.phase = .queued token)
    (h : s.replay? after = some u) (hrecorded : IsRecorded u.journal id) :
    u.timesRecorded run.record id = 1 := by
  have hin : s.InProgress run.record id := ⟨run, hrun, rfl, by rw [hphase]; rfl⟩
  obtain ⟨⟨trigger, moment, now, hpassed⟩, -⟩ := hs.isOutstanding_iff.2 (.inl hin)
  have hpassed' : HasPassed u.journal run.record id :=
    ⟨trigger, moment, now, (journal_suffix_of_replay? h).subset hpassed⟩
  exact (hs.replay? h).timesRecorded_eq_one hpassed' hrecorded

/-- In every state of a scheduler with a worker pool the free permits and the runs that hold one add
up to the number of permits. Handlers execute with a permit, which a run takes with its first
attempt and gives back once. A run that is cancelled while it waits never gets one: it can find that
it is cancelled, and is then recorded once as failed unless it breaks off, which happens only in
case of trouble. Where nothing can be acquired, no run waits while a permit is free. -/
theorem permits_conserved {options : Options} {now : Instant} {n : Nat}
    (hpool : options.maxConcurrentTasks = some n) (hcreate : create? options now = some start)
    (hreplay : start.replay? events = some s) :
    ∃ pool, s.pool = some pool ∧ pool.free + s.holders.length = max 1 n ∧ s.holders.Nodup ∧
      (∀ id, id ∈ s.holders ↔ ∃ run, s.runs.get? id = some run ∧ run.phase.holdsPermit = true) ∧
      s.runs.values.countP (·.phase.isExecuting) ≤ max 1 n ∧
      (∀ id record attempt trigger moment, .began id record attempt trigger moment ∈ s.journal →
        (∀ ending moment, .ended id record attempt ending moment ∉ s.journal) →
        id ∈ s.holders ∨ s.IsStranded record id) ∧
      (∀ event s', s.fire? event = some s' → ∃ pool', s'.pool = some pool' ∧
        pool'.free + s'.holders.length = max 1 n ∧ s.KeepsPermits s' pool.free pool'.free) ∧
      (∀ id run token, s.runs.get? id = some run → run.phase = .queued token →
        s.isCancelled token = true →
        (∃ record s', s.records.get? run.record = some record ∧ s.step? (.acquire id) = some s' ∧
          (s.IsUntroubled → ∃ record' finished, s'.records.get? run.record = some record' ∧
            s'.runs = s.runs.erase id ∧
            s'.journal = .recorded id run.record (.error .cancelled) finished :: s.journal ∧
            record'.status = .failed ∧ record'.lastError = some "Job cancelled" ∧
            record'.runCount = record.runCount + 1 ∧
            record'.failureCount = record.failureCount + 1)) ∧
        ∀ after u, s.replay? after = some u → u.IsPassedOver id run ∧ id ∉ u.holders ∧
          (∀ record attempt trigger moment,
            .began id record attempt trigger moment ∉ u.journal) ∧
          (IsRecorded u.journal id → u.timesRecorded run.record id = 1) ∧
          (start.StaysUntroubled (events ++ after) → ¬ u.IsStranded run.record id)) ∧
      ((∀ id, s.step? (.acquire id) = none) → ∀ id run token, s.runs.get? id = some run →
        run.phase = .queued token → pool.free = 0) := by
  have hstart : start.Reachable := .of_create? hcreate
  have hs : s.Reachable := hstart.replay? hreplay
  have hpermits : options.permits? = some (max 1 n) := by
    rw [Options.permits?, hpool, Option.map_some]
  obtain ⟨pool, hspool, hfits⟩ := serves_of_replay? hpermits hcreate hreplay
  refine ⟨pool, hspool, hfits.conserved, s.nodup_holders, fun id => ?_, executing_le_of_fits hfits,
    ?_, ?_, ?_, ?_⟩
  · rw [mem_holders_iff, standsIn_eq_true_iff]
  · intro id record attempt trigger moment hbegan hopen
    obtain ⟨run, hrun, hrecord, hphase⟩ := hs.executing_of_began hbegan hopen
    rcases hphase with ⟨token, deadline, hphase⟩ | hstranded
    · exact .inl ((mem_holders_of_get? hrun).2 (by rw [hphase]; rfl))
    · exact .inr ⟨run, hrun, hrecord, hstranded⟩
  · intro event s' hfire
    have htransition := transition_of_fire? hfire
    obtain ⟨pool', hspool', hfits'⟩ := htransition.serves hs ⟨pool, hspool, hfits⟩
    exact ⟨pool', hspool', hfits'.conserved, htransition.keepsPermits hs hfits hfits'⟩
  · intro id run token hrun hphase hcancelled
    obtain ⟨record, hrecord⟩ := hs.record_of_run hrun
    obtain ⟨s', hstep, hrecorded⟩ := exists_recorded_of_cancelled hrun hphase hcancelled hrecord
    refine ⟨⟨record, s', hrecord, hstep, hrecorded⟩, fun after u hlater => ?_⟩
    obtain ⟨hover, hnever⟩ := hs.isPassedOver hrun hphase hcancelled hlater
    refine ⟨hover, fun hholds => ?_, hnever, hs.timesRecorded_of_queued hrun hphase hlater,
      fun huntroubled => ?_⟩
    · obtain ⟨run', hrun', hholds⟩ := exists_of_mem_holders hholds
      rw [hover.holdsPermit_eq_false hphase hrun'] at hholds
      cases hholds
    · exact not_isStranded_of_staysUntroubled hcreate huntroubled
        (replay?_append_iff.2 ⟨s, hreplay, hlater⟩) run.record id
  · intro hstuck id run token hrun hphase
    have hqueued : s.standsIn Phase.isQueued id = true := by
      rw [standsIn_of_get? hrun, hphase]
      rfl
    exact free_eq_zero_of_fits hfits hspool hstuck hqueued

/-- The standard options with one worker. -/
def singleWorker : Options := { Options.standard with maxConcurrentTasks := some 1 }

/-- With one worker, the run of a task executes, the run of another waits for the permit, and a stop
ends their lifetime. -/
def stoppedWhileQueued : List (Event Unit) :=
  [.request (.register (.new "holder" ())), .request (.register (.new "queued" ())),
    .request .start,
    .step (.proceed 2), .step (.proceed 2), .request (.runNow true "holder"), .step (.begin 4),
    .request (.runNow true "queued"), .step (.begin 5), .request .stop, .step (.proceed 6)]

/-- The one permit is held by the first run, and the second never gets it, though its first run may
end at the same moment. -/
theorem permits_conserved_of_stoppedWhileQueued :
    ∃ start s pool, create? singleWorker someMorning = some start ∧
      start.replay? stoppedWhileQueued = some s ∧ s.pool = some pool ∧ pool.free = 0 ∧
      s.holders = [4] ∧ s.step? (.acquire 5) ≠ none ∧
      ∀ after u, s.replay? after = some u → 5 ∉ u.holders ∧
        ∀ record attempt trigger moment, .began 5 record attempt trigger moment ∉ u.journal := by
  have hcreate : create? singleWorker someMorning =
      some (initial singleWorker someMorning : State Unit) := rfl
  obtain ⟨s, hs⟩ : ∃ s, (initial singleWorker someMorning).replay? stoppedWhileQueued = some s :=
    Option.isSome_iff_exists.1 (by decide)
  have hlook : ((initial singleWorker someMorning).replay? stoppedWhileQueued).map (fun s =>
      (s.holders, s.runs.get? 5, s.isCancelled ⟨0, false⟩)) =
      some ([4], some ⟨1, .manual, .dispatched, .queued ⟨0, false⟩⟩, true) := by decide
  rw [hs, Option.map_some, Option.some.injEq, Prod.mk.injEq, Prod.mk.injEq] at hlook
  obtain ⟨hholders, hrun, hcancelled⟩ := hlook
  obtain ⟨pool, hpool, hfree, -, -, -, -, -, hpassed, -⟩ := permits_conserved rfl hcreate hs
  obtain ⟨⟨record, s', -, hstep, -⟩, hlater⟩ := hpassed 5 _ _ hrun rfl hcancelled
  rw [hholders] at hfree
  refine ⟨_, s, pool, hcreate, hs, hpool, Nat.add_right_cancel hfree, hholders, by simp [hstep],
    fun after u hu => ?_⟩
  obtain ⟨-, hnot, hnever, -⟩ := hlater after u hu
  exact ⟨hnot, hnever⟩

/-- A quarter past midnight on the first day of June 1969. -/
def beforeTheEpoch : Instant := .ofNanos (-18488700000000000)

/-- A run that is cancelled while it waits for a permit need not be recorded: where the clock cannot
be read when the run finds that it is cancelled, it breaks off, and its task stays running. -/
theorem not_forall_recorded_of_cancelled :
    ¬ ∀ s : State Unit, s.Reachable → ∀ id run token s', s.runs.get? id = some run →
      run.phase = .queued token → s.isCancelled token = true → s.step? (.acquire id) = some s' →
      IsRecorded s'.journal id := by
  intro hall
  let events : List (Event Unit) := stoppedWhileQueued ++ [.request (.setClock beforeTheEpoch)]
  obtain ⟨s, hs⟩ : ∃ s, (initial singleWorker someMorning).replay? events = some s :=
    Option.isSome_iff_exists.1 (by decide)
  have hreachable : s.Reachable := ⟨singleWorker, someMorning, _, events, rfl, hs⟩
  have hlook : ((initial singleWorker someMorning).replay? events).map (fun s =>
      (s.runs.get? 5, s.isCancelled ⟨0, false⟩, (s.step? (.acquire 5)).map fun s' =>
        s'.runs.get? 5)) =
      some (some ⟨1, .manual, .dispatched, .queued ⟨0, false⟩⟩, true,
        some (some ⟨1, .manual, .dispatched, .stranded⟩)) := by decide
  rw [hs, Option.map_some, Option.some.injEq, Prod.mk.injEq, Prod.mk.injEq] at hlook
  obtain ⟨hrun, hcancelled, hacquire⟩ := hlook
  obtain ⟨s', hstep, hstranded⟩ := Option.map_eq_some_iff.1 hacquire
  have hout : IsOutstanding s'.journal 1 5 :=
    (hreachable.step? hstep).isOutstanding_iff.2 (.inr ⟨_, hstranded, rfl, rfl⟩)
  exact hout.2 (hall s hreachable 5 _ _ s' hrun rfl hcancelled hstep)

end State

end CronDaemon.Scheduler
