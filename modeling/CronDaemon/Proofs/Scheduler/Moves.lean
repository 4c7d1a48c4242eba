import CronDaemon.Proofs.Scheduler.Soundness
import CronDaemon.Proofs.Scheduler.Transition

/-!
# The moves behind a change

Every change of a scheduler moves its ledger by the few moves of a ledger. Runs are stranded only
where something makes a run break off: its deadline lies past the end of the steady clock, the wall
clock cannot be read, the next run of a record cannot be computed, or the caller that waits for the
run hangs up.
-/

namespace CronDaemon.Scheduler

open Job

namespace State

variable {H : Type}

/-- Nothing makes a run break off at this moment: deadlines can be reached, the clock can be read,
and the next run of every record can be computed. -/
def IsUntroubled (s : State H) : Prop :=
  (momentAfter? s.clock s.options.taskTimeout).isSome = true ∧
    ∃ now, s.reading = .ok now ∧ ∀ number record, s.records.get? number = some record →
      ∃ next, nextRun s.options.zone record.schedule (.ok now) = .ok next

/-- Something can make a run break off at an event: a fault, or that the caller of the run hangs
up. -/
def IsTroubledBy (s : State H) (event : Event H) : Prop :=
  ¬ s.IsUntroubled ∨ ∃ call, event = .hangUp call

/-- A deadline that cannot be reached is trouble. -/
theorem not_isUntroubled_of_momentAfter? {s : State H}
    (h : momentAfter? s.clock s.options.taskTimeout = none) : ¬ s.IsUntroubled := by
  rintro ⟨hdeadline, -⟩
  rw [h] at hdeadline
  cases hdeadline

/-- A clock that cannot be read is trouble. -/
theorem not_isUntroubled_of_reading {s : State H} {fault : Fault} (h : s.reading = .error fault) :
    ¬ s.IsUntroubled := by
  rintro ⟨-, now, hnow, -⟩
  rw [h] at hnow
  cases hnow

/-- The next run of every record can be computed at what the clock reads. -/
theorem IsUntroubled.exists_nextRun {s : State H} (h : s.IsUntroubled) {now : Instant}
    (hreading : s.reading = .ok now) (number : Nat) (record : Record H)
    (hrecord : s.records.get? number = some record) :
    ∃ next, nextRun s.options.zone record.schedule (.ok now) = .ok next := by
  obtain ⟨-, now', hnow, hnext⟩ := h
  rw [hreading] at hnow
  cases hnow
  exact hnext number record hrecord

/-- Calls are no part of the ledger. -/
@[simp] theorem ledger_setCall (s : State H) (id : Nat) (call : Call) :
    (s.setCall id call).ledger = s.ledger := rfl

@[simp] theorem ledger_reply (s : State H) (id : Nat) (reply : Reply) :
    (s.reply id reply).ledger = s.ledger := rfl

/-- To wake the waiting stops leaves the ledger. -/
@[simp] theorem ledger_wakeStops (s : State H) : s.wakeStops.ledger = s.ledger := by
  unfold wakeStops
  split <;> rfl

/-- To drop a run that has an outcome takes it out of the ledger. -/
@[simp] theorem ledger_finish (s : State H) (id : Nat) (run : Run) (outcome : RunOutcome) :
    (s.finish id run outcome).ledger = { s.ledger with runs := s.runs.erase id } := by
  unfold finish
  cases run.owner with
  | dispatched => exact ledger_wakeStops _
  | call call => rfl

/-- A result that is put down goes to its record and into the journal, and the run is dropped. -/
@[simp] theorem ledger_putDown (s : State H) (id : Nat) (run : Run) (result : Except JobError Unit)
    (now : Instant) (record : Record H) :
    (s.putDown id run result now record).ledger = { s.ledger with
      records := s.records.insert run.record record
      runs := s.runs.erase id
      journal := .recorded id run.record result now :: s.journal } := by
  simp only [putDown, ledger_finish]
  split <;> rfl

variable {trouble : Prop} {s : State H} {id : Nat} {run : Run}

/-- What is read from the wall clock is what it shows. -/
theorem now_of_reading {now : Instant} (h : s.reading = .ok now) : s.now = now := by
  unfold reading Instant.clockReading at h
  split at h
  · cases h
    simp [State.now, Instant.ofNanos, Instant.folded]
  · cases h

/-- A run that is left goes, or is stranded. -/
theorem moves_abandon (htrouble : trouble) (s : State H) (id : Nat) :
    Ledger.Moves trouble s.ledger (s.abandon id).ledger := by
  unfold abandon
  cases hrun : s.runs.get? id with
  | none => exact .refl
  | some run =>
    obtain ⟨record, trigger, owner, phase⟩ := run
    cases phase with
    | spawned => exact .single (.drop id _ hrun rfl)
    | queued | executing | resting => exact .single (.strand id _ htrouble hrun rfl)
    | stranded => exact .refl

/-- A call leaves those of the given runs that belong to it. -/
def abandonAll (s : State H) (call : Nat) (entries : List (Nat × Run)) : State H :=
  entries.foldl (fun s e => if e.2.owner = .call call then s.abandon e.1 else s) s

/-- To abandon a run changes nothing but the runs and the pool. -/
theorem abandon_eq (s : State H) (id : Nat) : ∃ runs pool,
    s.abandon id = { s with runs := runs, pool := pool } := by
  unfold abandon
  cases s.runs.get? id with
  | none => exact ⟨s.runs, s.pool, rfl⟩
  | some run =>
    obtain ⟨record, trigger, owner, phase⟩ := run
    cases phase <;> exact ⟨_, _, rfl⟩

/-- A call that leaves its runs changes nothing but the runs and the pool. -/
theorem abandonAll_eq (call : Nat) (entries : List (Nat × Run)) (s : State H) : ∃ runs pool,
    s.abandonAll call entries = { s with runs := runs, pool := pool } := by
  unfold abandonAll
  induction entries generalizing s with
  | nil => exact ⟨s.runs, s.pool, rfl⟩
  | cons e entries ih =>
    rw [List.foldl_cons]
    split
    · obtain ⟨runs, pool, he⟩ := s.abandon_eq e.1
      rw [he]
      exact ih { s with runs := runs, pool := pool }
    · exact ih s

/-- A call that breaks off leaves its runs, frees the lock if it holds it, and returns. -/
theorem breakCall_eq (s : State H) (call : Nat) (fault : Fault) :
    s.breakCall call fault = { s with
      runs := (s.abandonAll call s.runs.entries).runs
      pool := (s.abandonAll call s.runs.entries).pool
      lock := if s.lock.holder = some call then s.lock.release else s.lock
      calls := s.calls.insert call (.returned (.refused (.broken fault))) } := by
  obtain ⟨runs, pool, he⟩ := abandonAll_eq call s.runs.entries s
  rw [he]
  unfold abandonAll at he
  unfold breakCall
  rw [he]
  dsimp only
  split <;> rfl

/-- A call that leaves its runs strands those that have passed the guard. -/
theorem moves_abandonAll (htrouble : trouble) (call : Nat) (entries : List (Nat × Run))
    (s : State H) : Ledger.Moves trouble s.ledger (s.abandonAll call entries).ledger := by
  unfold abandonAll
  induction entries generalizing s with
  | nil => exact .refl
  | cons e entries ih =>
    rw [List.foldl_cons]
    split
    · exact (moves_abandon htrouble s e.1).trans (ih _)
    · exact ih s

/-- A call that breaks off strands its runs. -/
theorem moves_breakCall (htrouble : trouble) (s : State H) (call : Nat) (fault : Fault) :
    Ledger.Moves trouble s.ledger (s.breakCall call fault).ledger := by
  unfold breakCall
  refine (moves_abandonAll htrouble call s.runs.entries s).trans ?_
  simp only [ledger_reply]
  split <;> exact .refl

/-- A run that breaks off is stranded, and with it the runs of its call. -/
theorem moves_breakRun (htrouble : trouble) (s : State H) (id : Nat) (run : Run) (fault : Fault) :
    Ledger.Moves trouble s.ledger (s.breakRun id run fault).ledger := by
  unfold breakRun
  cases run.owner with
  | dispatched =>
    rw [ledger_wakeStops]
    exact moves_abandon htrouble s id
  | call call => exact moves_breakCall htrouble s call fault

/-- A result is put down on the record of the run, or the run breaks off, which happens only in case
of trouble. -/
theorem conclude_cases (s : State H) (id : Nat) (run : Run) (result : Except JobError Unit) :
    (s.records.get? run.record = none ∧ s.conclude id run result = s) ∨
      (∃ fault, ¬ s.IsUntroubled ∧ s.conclude id run result = s.breakRun id run fault) ∨
      ∃ record now after, s.records.get? run.record = some record ∧ s.reading = .ok now ∧
        record.recorded s.options.zone now result = .ok after ∧
        s.conclude id run result = s.putDown id run result now after := by
  unfold conclude
  cases hrecord : s.records.get? run.record with
  | none => exact .inl ⟨rfl, rfl⟩
  | some record =>
    cases hreading : s.reading with
    | error fault => exact .inr (.inl ⟨fault, not_isUntroubled_of_reading hreading, rfl⟩)
    | ok now =>
      cases hafter : record.recorded s.options.zone now result with
      | error fault =>
        refine .inr (.inl ⟨fault, fun h => ?_, by simp only [hafter]⟩)
        obtain ⟨next, hnext⟩ := h.exists_nextRun hreading _ record hrecord
        rw [Record.recorded, hnext] at hafter
        cases hafter
      | ok after => exact .inr (.inr ⟨record, now, after, rfl, rfl, hafter, by simp only [hafter]⟩)

/-- A run that ends is recorded, or breaks off in case of trouble. -/
theorem moves_conclude (htrouble : ¬ s.IsUntroubled → trouble)
    (hrun : s.runs.get? id = some run) (hactive : run.phase.isActive = true)
    (result : Except JobError Unit) :
    Ledger.Moves trouble s.ledger (s.conclude id run result).ledger := by
  rcases s.conclude_cases id run result with
    ⟨-, he⟩ | ⟨fault, hnot, he⟩ | ⟨record, now, after, hrecord, -, hafter, he⟩
  · rw [he]
  · rw [he]
    exact moves_breakRun (htrouble hnot) s id run fault
  · rw [he, ledger_putDown]
    exact .single (.record id run result now record after hrun hactive hrecord hafter)

/-- A run that enters an attempt by one move has its handler called. -/
theorem moves_attempt {l : Ledger H} {token : Token} {deadline : Moment} {number : Nat}
    (henter : Ledger.Move trouble l { s.ledger with
      runs :=
        s.runs.modify id fun run => { run with phase := .executing token deadline number } }) :
    Ledger.Moves trouble l (s.attempt id run token deadline number).ledger :=
  .tail (.tail (.single henter) (.edit run.record _ fun _ => .called)) (.remark _ rfl)

/-- A run that enters a phase behind the guard by one move is launched, or breaks off if its
deadline cannot be reached. -/
theorem moves_launch {l : Ledger H} (token : Token)
    (htrouble : momentAfter? s.clock s.options.taskTimeout = none → trouble)
    (henter : ∀ phase : Phase, phase.isActive = true → Ledger.Move trouble l { s.ledger with
      runs := s.runs.modify id fun run => { run with phase := phase } }) :
    Ledger.Moves trouble l (s.launch id run token).ledger := by
  unfold launch
  cases hdeadline : momentAfter? s.clock s.options.taskTimeout with
  | some deadline => exact moves_attempt (s := s.takePermit) (henter _ rfl)
  | none =>
    exact .head (henter (.queued token) rfl)
      (moves_breakRun (htrouble hdeadline) (s.setPhase id (.queued token)) id run _)

/-- An attempt that ends is told, and its run rests or ends. -/
theorem moves_endAttempt (htrouble : ¬ s.IsUntroubled → trouble)
    (hrun : s.runs.get? id = some run) (hactive : run.phase.isActive = true) (token : Token)
    (deadline : Moment) (number : Nat) (ending : Ending) :
    Ledger.Moves trouble s.ledger (s.endAttempt id run token deadline number ending).ledger := by
  simp only [endAttempt]
  refine .head (.remark (.ended id run.record number ending s.clock) rfl) ?_
  cases ending.result s.options.taskTimeout (deadline ≤ s.clock) with
  | ok => exact moves_conclude (s := s.note _) htrouble hrun hactive _
  | error e =>
    cases hretry : retryDelay? ((s.records.get? run.record).bind (·.retry)) number e with
    | some delay =>
      simp only [hretry]
      exact .single (.advance id run _ hrun hactive rfl)
    | none =>
      simp only [hretry]
      exact moves_conclude (s := s.note _) htrouble hrun hactive _

/-- A run that is accepted passes the guard of a record that does not say that its task is
running. -/
theorem moves_accept (htrouble : ¬ s.IsUntroubled → trouble) {record : Record H}
    (hrun : s.runs.get? id = some run) (hspawned : run.phase = .spawned)
    (hrecord : s.records.get? run.record = some record) (hfree : record.status ≠ .running) :
    Ledger.Moves trouble s.ledger (s.accept id run).ledger := by
  have hpass : ∀ phase : Phase, phase.isActive = true → Ledger.Move trouble s.ledger _ :=
    fun phase h => .pass id run record phase s.clock s.now hrun hspawned hrecord hfree h
  simp only [accept]
  split
  · exact moves_launch _ (fun h => htrouble (not_isUntroubled_of_momentAfter? h)) hpass
  · exact .single (hpass (.queued _) rfl)

/-- A run that is looked at for the first time is refused or accepted. -/
theorem moves_begin (htrouble : ¬ s.IsUntroubled → trouble)
    (hrun : s.runs.get? id = some run) (hspawned : run.phase = .spawned) :
    Ledger.Moves trouble s.ledger (s.begin id run).ledger := by
  unfold begin
  cases hrecord : s.records.get? run.record with
  | none => exact .refl
  | some record =>
    simp only
    split
    · rw [ledger_finish]
      exact .head (.remark (.refused id run.record) rfl) (.single (.drop id run hrun hspawned))
    · next hfree => exact moves_accept htrouble hrun hspawned hrecord hfree

/-- The record of a task is there. -/
theorem contains_of_task? {name : String} {number : Nat} {record : Record H}
    (h : s.task? name = some (number, record)) : s.records.contains number = true := by
  rw [Table.contains, (task?_eq_some_iff.1 h).2]
  rfl

/-- The record of every task is there. -/
theorem contains_of_mem_tasks {number : Nat} {record : Record H} (h : (number, record) ∈ s.tasks) :
    s.records.contains number = true := by
  obtain ⟨k, -, hk⟩ := List.mem_filterMap.1 h
  obtain ⟨record', hrecord, he⟩ := Option.map_eq_some_iff.1 hk
  cases he
  rw [Table.contains, hrecord]
  rfl

/-- To ask for tasks spawns runs on their records. -/
theorem moves_askFor (call : Nat) (names : List String) (s : State H) :
    Ledger.Moves trouble s.ledger (s.askFor call names).1.ledger := by
  induction names generalizing s with
  | nil => exact .refl
  | cons name names ih =>
    unfold askFor
    cases htask : s.task? name with
    | none => exact ih s
    | some task =>
      exact .head (.spawn task.1 .manual (.call call) (contains_of_task? htask))
        (ih (s.spawn task.1 .manual (.call call)))

/-- A trigger spawns runs and does nothing else to the ledger. -/
theorem moves_trigger (s : State H) (names : List String) :
    Ledger.Moves trouble s.ledger (s.trigger names).ledger :=
  .head .skip (moves_askFor s.nextId names { s with nextId := s.nextId + 1 })

/-- To dispatch runs spawns them on their records. -/
theorem moves_dispatchAll {records : List Nat} (s : State H)
    (h : ∀ record ∈ records, s.records.contains record = true) :
    Ledger.Moves trouble s.ledger (s.dispatchAll records).ledger := by
  unfold dispatchAll
  induction records generalizing s with
  | nil => exact .refl
  | cons record records ih =>
    have hfirst := h record List.mem_cons_self
    exact .head (.spawn record .schedule .dispatched hfirst)
      (ih (s.spawn record .schedule .dispatched) fun k hk => h k (List.mem_cons_of_mem _ hk))

/-- A tick is told and spawns runs, unless the loop breaks off. -/
theorem moves_tick (s : State H) (id : Nat) (loop : TickLoop) :
    Ledger.Moves trouble s.ledger (s.tick id loop).ledger := by
  unfold tick
  cases s.reading with
  | error fault => exact .refl
  | ok now =>
    have hdue : ∀ record ∈ s.due, s.records.contains record = true := by
      intro record h
      obtain ⟨task, htask, rfl⟩ := List.mem_map.1 h
      exact contains_of_mem_tasks (List.mem_filter.1 htask).1
    exact .head (.remark (.ticked id s.due s.clock now) rfl)
      (moves_dispatchAll (s.note (.ticked id s.due s.clock now)) hdue)

/-- To compute next runs anew changes their records one by one. -/
theorem moves_refreshEach (now : Instant) (numbers : List Nat) (s : State H) :
    Ledger.Moves trouble s.ledger (s.refreshEach now numbers).1.ledger := by
  induction numbers generalizing s with
  | nil => exact .refl
  | cons number numbers ih =>
    unfold refreshEach
    cases hrecord : s.records.get? number with
    | none => exact ih s
    | some record =>
      cases hafter : record.refreshed s.options.zone now with
      | error fault =>
        simp only [hafter]
        exact .refl
      | ok after =>
        simp only [hafter]
        exact .head (.refresh number record after now hrecord hafter)
          (ih ({ s with records := s.records.insert number after }.note (.refreshed number now)))

/-- A record whose next run can be computed is computed anew, on the same schedule. -/
theorem exists_refreshed {zone : Zone} {now : Instant} {record : Record H} {next : Option Instant}
    (h : nextRun zone record.schedule (.ok now) = .ok next) :
    ∃ after, record.refreshed zone now = .ok after ∧ after.schedule = record.schedule := by
  unfold Record.refreshed
  split
  · exact ⟨record, rfl, rfl⟩
  · rw [h]
    exact ⟨_, rfl, rfl⟩

/-- Records whose next run can be computed are refreshed without a fault. -/
theorem refreshEach_eq_none (now : Instant) (numbers : List Nat) (s : State H)
    (h : ∀ number record, s.records.get? number = some record →
      ∃ next, nextRun s.options.zone record.schedule (.ok now) = .ok next) :
    (s.refreshEach now numbers).2 = none := by
  induction numbers generalizing s with
  | nil => rfl
  | cons number numbers ih =>
    unfold refreshEach
    cases hrecord : s.records.get? number with
    | none => exact ih s h
    | some record =>
      obtain ⟨next, hnext⟩ := h number record hrecord
      obtain ⟨after, hafter, hschedule⟩ := exists_refreshed hnext
      simp only [hafter]
      refine ih _ fun k record' hk => ?_
      rw [note, Table.get?_insert] at hk
      split at hk
      · cases hk
        exact ⟨next, hschedule ▸ hnext⟩
      · exact h k record' hk

/-- The catch-up pass over the given tasks. -/
def catchUpEach (s : State H) (call : Nat) (cutoff : Instant) (tasks : List (Nat × Record H)) :
    State H :=
  tasks.foldl (fun s e => s.catchUpTask call cutoff e.1 e.2) s

/-- The catch-up pass over some tasks spawns runs and passes over tasks. -/
theorem moves_catchUpEach (call : Nat) (cutoff : Instant) {tasks : List (Nat × Record H)}
    (s : State H) (h : ∀ task ∈ tasks, s.records.contains task.1 = true) :
    Ledger.Moves trouble s.ledger (s.catchUpEach call cutoff tasks).ledger := by
  unfold catchUpEach
  induction tasks generalizing s with
  | nil => exact .refl
  | cons task tasks ih =>
    have hfirst := h task List.mem_cons_self
    have hrest : ∀ k ∈ tasks, s.records.contains k.1 = true := by
      intro k hk
      exact h k (List.mem_cons_of_mem _ hk)
    rw [List.foldl_cons]
    unfold catchUpTask
    split
    · exact ih s hrest
    · split
      · refine .head (.edit task.1 _ fun _ => .passedOver)
          (ih { s with records := s.records.modify task.1 Record.passedOver } fun k hk => ?_)
        rw [Table.contains_modify]
        exact hrest k hk
      · exact .head (.spawn task.1 .catchUp (.call call) hfirst)
          (ih (s.spawn task.1 .catchUp (.call call)) hrest)

/-- So does the pass over all of them. -/
theorem moves_catchUp (s : State H) (call : Nat) :
    Ledger.Moves trouble s.ledger (s.catchUp call).ledger := by
  unfold catchUp
  split
  · exact .refl
  · exact moves_catchUpEach call _ s fun task h => contains_of_mem_tasks h

/-- A start breaks off only in case of trouble: before the pass the clock is read and the next run
of every registered task computed. -/
theorem moves_enterStart (htrouble : ¬ s.IsUntroubled → trouble) (call : Nat) :
    Ledger.Moves trouble s.ledger (s.enterStart call).ledger := by
  simp only [enterStart]
  split
  · exact .refl
  · split
    · next fault hreading =>
      exact moves_breakCall (htrouble (not_isUntroubled_of_reading hreading))
        { s with lock := s.lock.take call } call fault
    · next now hreading =>
      have hmoves : Ledger.Moves trouble s.ledger _ :=
        moves_refreshEach now s.registry.values { s with lock := s.lock.take call }
      split
      · next s' fault hrefresh =>
        simp only [refreshAll] at hrefresh
        rw [hrefresh] at hmoves
        refine hmoves.trans (moves_breakCall (htrouble fun h => ?_) s' call fault)
        have hnone := refreshEach_eq_none now s.registry.values { s with lock := s.lock.take call }
          (h.exists_nextRun hreading)
        rw [hrefresh] at hnone
        cases hnone
      · next s' hrefresh =>
        simp only [refreshAll] at hrefresh
        rw [hrefresh] at hmoves
        exact hmoves.trans (moves_catchUp s' call)

/-- A call on which its caller hangs up strands its runs. -/
theorem moves_hangUp (htrouble : trouble) (s : State H) (call : Nat) :
    Ledger.Moves trouble s.ledger (s.hangUp call).ledger :=
  moves_breakCall htrouble { s with lock := { s.lock with waiting := s.lock.waiting.erase call } }
    call .hungUp

/-- A stop that gets the lock leaves the ledger. -/
theorem moves_enterStop (s : State H) (call : Nat) :
    Ledger.Moves trouble s.ledger (s.enterStop call).ledger := by
  simp only [enterStop]
  split <;> exact .refl

/-- A stop whose loop has exited leaves the ledger. -/
theorem moves_drain (s : State H) (call : Nat) :
    Ledger.Moves trouble s.ledger (s.drain call).ledger := by
  simp only [drain, ledger_setCall, ledger_wakeStops]
  exact .refl

/-- Each change of a scheduler moves its ledger, and strands a run only in case of trouble. -/
theorem Transition.moves {event : Event H} {s' : State H} (h : s.Transition event s') :
    Ledger.Moves (s.IsTroubledBy event) s.ledger s'.ledger := by
  have htrouble : ¬ s.IsUntroubled → s.IsTroubledBy event := .inl
  cases h with
  | refuse | remove | setClock | leave | answer | endStop | elapse => exact .refl
  | start | stop | openLoop => exact .single .skip
  | register h => exact .single (.enroll _ _ s.reading s.now h fun _ => now_of_reading)
  | setEnabled enabled => exact .single (.edit _ _ fun _ => .enabled enabled)
  | runNow h => exact .single (.spawn _ .manual .dispatched (contains_of_task? h))
  | trigger names => exact moves_trigger s names
  | begin hrun hphase => exact moves_begin htrouble hrun hphase
  | cancel hrun hphase hcancelled =>
    exact moves_conclude (s := s.dequeue _) htrouble hrun (by rw [hphase]; rfl) _
  | acquire hrun hphase =>
    refine moves_launch (s := s.dequeue _) _
      (fun h => htrouble (not_isUntroubled_of_momentAfter? h)) fun phase h => ?_
    exact .advance _ _ phase hrun (by rw [hphase]; rfl) h
  | endAttempt ending hrun hphase =>
    exact moves_endAttempt htrouble hrun (by rw [hphase]; rfl) _ _ _ ending
  | retry hrun hphase => exact moves_attempt (.advance _ _ _ hrun (by rw [hphase]; rfl) rfl)
  | giveUp hrun hphase => exact moves_conclude htrouble hrun (by rw [hphase]; rfl) _
  | revokeExecuting hrun hphase | revokeResting hrun hphase =>
    exact .single (.advance _ _ _ hrun (by rw [hphase]; rfl) rfl)
  | tick => exact moves_tick s _ _
  | enterStart => exact moves_enterStart htrouble _
  | enterStop => exact moves_enterStop s _
  | drain => exact moves_drain s _
  | hangUp => exact moves_hangUp (.inr ⟨_, rfl⟩) s _

/-- The ledger of every reachable state is sound. -/
theorem Reachable.isSound (h : s.Reachable) : s.ledger.IsSound :=
  h.induction (fun options now => Ledger.isSound_initial options now)
    fun _ _ _ hs htransition => htransition.moves.isSound hs

end State

end CronDaemon.Scheduler
