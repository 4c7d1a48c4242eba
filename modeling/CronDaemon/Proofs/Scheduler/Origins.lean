import CronDaemon.Proofs.Scheduler.Awaiting
import CronDaemon.Proofs.Scheduler.History

/-!
# Where runs come from

Every run was spawned by one event of the history, on a record that was registered then. A scheduled
run was spawned by a tick that could read the clock and found the record due. Whether a run passes
the guard is decided in the step that looks at it for the first time; a run that is refused there is
gone for good.
-/

namespace CronDaemon.Scheduler

open Job

/-- Whether an entry tells what became of a run at the guard. -/
def Entry.isVerdict : Entry → Bool
  | .admitted .. | .refused .. => true
  | .registered .. | .refreshed .. | .ticked .. | .began .. | .ended .. | .recorded .. => false

namespace State

variable {H : Type} {start s s' : State H} {event : Event H} {events : List (Event H)}

/-- The event spawns the run on a registered record; what is scheduled is spawned by a tick that
finds the record due. -/
structure Spawns (s : State H) (event : Event H) (run : Run) : Prop where
  phase : run.phase = .spawned
  registered : s.IsRegistered run.record
  not_register : ∀ spec, event ≠ .request (.register spec)
  /-- Only a start that gets the lock spawns catch-up runs, and they belong to it. -/
  caughtUp : run.trigger = .catchUp → s.lock.holder = none ∧ ∃ call, run.owner = .call call
  scheduled : run.trigger = .schedule → run.owner = .dispatched ∧ run.record ∈ s.due ∧
    ∃ loop now, event = .step (.tick loop) ∧ s.reading = .ok now

/-- Spawn a run on each of the given records. -/
def spawnAll (s : State H) (trigger : Trigger) (owner : Owner) (records : List Nat) : State H :=
  records.foldl (fun s record => s.spawn record trigger owner) s

theorem runs_spawnAll_of_lt (trigger : Trigger) (owner : Owner) (records : List Nat) (s : State H)
    {k : Nat} (hlt : k < s.nextId) :
    (s.spawnAll trigger owner records).runs.get? k = s.runs.get? k := by
  unfold spawnAll
  induction records generalizing s with
  | nil => rfl
  | cons record records ih =>
    rw [List.foldl_cons, ih _ (Nat.lt_succ_of_lt hlt), spawn, Table.get?_insert,
      if_neg (Nat.ne_of_gt hlt)]

/-- One run is spawned on each of the records, in their order. -/
theorem get?_runs_spawnAll_add (trigger : Trigger) (owner : Owner) (records : List Nat)
    (s : State H) (hfresh : ∀ k, s.nextId ≤ k → s.runs.get? k = none) (i : Nat) :
    (s.spawnAll trigger owner records).runs.get? (s.nextId + i) =
      records[i]?.map fun record => ⟨record, trigger, owner, .spawned⟩ := by
  induction records generalizing s i with
  | nil => exact hfresh _ (Nat.le_add_right _ _)
  | cons record records ih =>
    have hrest : s.spawnAll trigger owner (record :: records) =
      (s.spawn record trigger owner).spawnAll trigger owner records := rfl
    have hnext : (s.spawn record trigger owner).nextId = s.nextId + 1 := rfl
    rw [hrest]
    cases i with
    | zero =>
      rw [Nat.add_zero, runs_spawnAll_of_lt _ _ _ _ (by rw [hnext]; exact Nat.lt_succ_self _)]
      simp [spawn]
    | succ i =>
      have hadd : s.nextId + (i + 1) = (s.spawn record trigger owner).nextId + i := by
        rw [hnext]
        omega
      rw [hadd, ih _ fun k hk => ?_, List.getElem?_cons_succ]
      rw [hnext] at hk
      rw [spawn, Table.get?_insert, if_neg (by omega)]
      exact hfresh k (by omega)

/-- No run has an unused number. -/
theorem Reachable.run_eq_none (hs : s.Reachable) {k : Nat} (h : s.nextId ≤ k) :
    s.runs.get? k = none := by
  cases hrun : s.runs.get? k with
  | none => rfl
  | some run => exact absurd (hs.run_lt hrun) (Nat.not_lt.2 h)

theorem runs_tick {now : Instant} (hreading : s.reading = .ok now) (id : Nat) (loop : TickLoop) :
    (s.tick id loop).runs =
      ((s.note (.ticked id s.due s.clock now)).spawnAll .schedule .dispatched s.due).runs := by
  simp only [tick, hreading]
  rfl

/-- What a tick finds due is registered. -/
theorem mem_due_iff {number : Nat} :
    number ∈ s.due ↔ s.IsRegistered number ∧
      ∃ record, s.records.get? number = some record ∧ record.isDue s.now = true := by
  simp only [due, List.mem_map, List.mem_filter]
  constructor
  · rintro ⟨⟨k, record⟩, ⟨hmem, hdue⟩, rfl⟩
    obtain ⟨hregistered, hrecord⟩ := mem_tasks_iff.1 hmem
    exact ⟨hregistered, record, hrecord, hdue⟩
  · rintro ⟨hregistered, record, hrecord, hdue⟩
    exact ⟨(number, record), ⟨mem_tasks_iff.2 ⟨hregistered, hrecord⟩, hdue⟩, rfl⟩

/-- A run that is new after a tick was spawned on a record that the tick found due. -/
theorem spawns_of_tick (hs : s.Reachable) {id k : Nat} {loop : TickLoop} {run : Run}
    (hk : s.nextId ≤ k) (hrun : (s.tick id loop).runs.get? k = some run) :
    s.Spawns (.step (.tick id)) run := by
  cases hreading : s.reading with
  | error fault =>
    simp only [tick, hreading, leave] at hrun
    exact absurd (hs.run_lt hrun) (Nat.not_lt.2 hk)
  | ok now =>
    obtain ⟨i, rfl⟩ := Nat.exists_eq_add_of_le hk
    have hnew := get?_runs_spawnAll_add .schedule .dispatched s.due
      (s.note (.ticked id s.due s.clock now)) (fun k => hs.run_eq_none) i
    rw [runs_tick hreading, show s.nextId = (s.note (.ticked id s.due s.clock now)).nextId from rfl,
      hnew] at hrun
    obtain ⟨record, hrecord, rfl⟩ := Option.map_eq_some_iff.1 hrun
    have hdue : record ∈ s.due := List.mem_of_getElem? hrecord
    exact ⟨rfl,
      (mem_due_iff.1 hdue).1, by simp, by simp, fun _ => ⟨rfl, hdue, id, now, rfl, hreading⟩⟩

/-- A run that is new after a start got the lock is a catch-up run on a registered record. -/
theorem spawns_of_enterStart (hs : s.Reachable) {call k : Nat} {run : Run}
    (hnext : s.lock.isNext call = true) (hk : s.nextId ≤ k)
    (hrun : (s.enterStart call).runs.get? k = some run) (hlt : k < (s.enterStart call).nextId) :
    s.Spawns (.step (.proceed call)) run := by
  rcases s.enterStart_cases call with he | ⟨records, journal, ⟨fault, he⟩ | he⟩
  · rw [he] at hlt
    exact absurd hlt (Nat.not_lt.2 hk)
  · have hframe := frame_breakCall { s with
      lock := s.lock.take call, records := records, journal := journal } call fault
    rw [he,
      show (breakCall _ call fault).nextId = s.nextId from congrArg Frame.nextId hframe] at hlt
    exact absurd hlt (Nat.not_lt.2 hk)
  · have hadds := adds_catchUp { s with
      lock := s.lock.take call, records := records, journal := journal } call
    rw [he] at hrun
    rcases hadds.runs k run hrun with hsame | ⟨hphase, howner, htrigger, hregistered⟩
    · exact absurd (hs.run_lt hsame) (Nat.not_lt.2 hk)
    · refine ⟨hphase, hregistered, nofun, fun _ => ⟨holder_of_isNext hnext, call, howner⟩,
        fun h => ?_⟩
      rw [htrigger] at h
      cases h

/-- A run was there before the event, or is spawned by it. -/
theorem Transition.run_cases (h : s.Transition event s') (hs : s.Reachable) {k : Nat} {run' : Run}
    (hk : s'.runs.get? k = some run') :
    (∃ run, s.runs.get? k = some run ∧ run.Continues run') ∨ s.nextId ≤ k ∧
      s.Spawns event run' := by
  rcases Nat.lt_or_ge k s.nextId with hlt | hge
  · exact .inl (h.moves.run_continues hlt hk)
  have hlt' : k < s'.nextId := (h.moves.isSound hs.isSound).fresh.run_lt (standing?_of_get? hk)
  have hframe : s'.frame.nextId ≠ s.frame.nextId := by
    intro he
    rw [show s'.nextId = s.nextId from he] at hlt'
    exact absurd hlt' (Nat.not_lt.2 hge)
  have hruns : s'.runs ≠ s.runs := by
    intro he
    exact absurd (hs.run_lt (he ▸ hk)) (Nat.not_lt.2 hge)
  refine .inr ⟨hge, ?_⟩
  cases h with
  | refuse | remove | setEnabled | setClock | leave | answer | endStop | elapse | revokeExecuting
  | revokeResting => exact absurd rfl hframe
  | register | start | stop | openLoop => exact absurd rfl hruns
  | retry => exact absurd (by simp) hframe
  | cancel | acquire | endAttempt | giveUp | enterStop | drain | hangUp =>
    exact absurd (by simp) hframe
  | @begin id run hrun =>
    obtain ⟨record, hrecord⟩ := hs.record_of_run hrun
    rcases frame_begin id hrecord with ⟨-, -, he⟩ | ⟨-, he⟩
    · exact absurd (by rw [he]) hframe
    · exact absurd (by rw [he]) hframe
  | @runNow name number record htask =>
    have hadds : Adds (fun _ run => run = ⟨number, .manual, .dispatched, .spawned⟩) s
        (s.spawn number .manual .dispatched) := Adds.spawn rfl
    rcases hadds.runs k run' hk with hold | rfl
    · exact absurd (hs.run_lt hold) (Nat.not_lt.2 hge)
    · exact ⟨rfl, isRegistered_of_task? htask, nofun, nofun, nofun⟩
  | trigger names =>
    rcases (adds_askFor s.nextId names { s with nextId := s.nextId + 1 }).runs k run' hk with
      hold | ⟨hphase, -, htrigger, hregistered, -⟩
    · exact absurd (hs.run_lt hold) (Nat.not_lt.2 hge)
    · refine ⟨hphase, hregistered, nofun, fun h => ?_, fun h => ?_⟩ <;> rw [htrigger] at h
        <;> cases h
  | tick => exact spawns_of_tick hs hge hk
  | enterStart _ hnext => exact spawns_of_enterStart hs hnext hge hk hlt'

/-- Every run goes back to the event of the history that spawned it. -/
theorem exists_spawns (hstart : start.Reachable) (hnone : ∀ k, start.runs.get? k = none)
    (h : start.replay? events = some s) {k : Nat} {run : Run} (hk : s.runs.get? k = some run) :
    ∃ event t t' after first, start.Occurs events event t t' after ∧ t.Spawns event first ∧
      t.runs.get? k = none ∧ t'.runs.get? k = some first ∧ first.Continues run := by
  refine history_induction (motive := fun events s => ∀ k run, s.runs.get? k = some run →
    ∃ event t t' after first, start.Occurs events event t t' after ∧ t.Spawns event first ∧
      t.runs.get? k = none ∧ t'.runs.get? k = some first ∧ first.Continues run) ?_ ?_ h k run hk
  · intro k run hk
    rw [hnone] at hk
    cases hk
  · intro before event t t' ht hfire ih k run hk
    have hreach : t.Reachable := hstart.replay? ht
    rcases (transition_of_fire? hfire).run_cases hreach hk with
      ⟨run₀, hrun₀, hcontinues⟩ | ⟨hge, hspawns⟩
    · obtain ⟨event₀, u, u', after, first, hoccurs, hspawns, habsent, hfirst, hrest⟩ :=
        ih k run₀ hrun₀
      exact ⟨event₀, u, u', after ++ [event], first, hoccurs.snoc event, hspawns, habsent, hfirst,
        hrest.trans hcontinues⟩
    · exact ⟨event, t, t', [], run, Occurs.last ht hfire, hspawns, hreach.run_eq_none hge, hk,
        .refl run⟩

theorem mem_marks_iff {entry : Entry} (h : entry.isMark = true) :
    entry ∈ s.frame.marks ↔ entry ∈ s.journal := by
  simp only [frame, List.mem_filter, h, and_true]

/-- Whether a run passes the guard or is refused is told by the step that looks at it for the first
time. -/
theorem Transition.verdict_cases (h : s.Transition event s') (hs : s.Reachable) {entry : Entry}
    (hverdict : entry.isVerdict = true) (hmem : entry ∈ s'.journal) :
    entry ∈ s.journal ∨ ∃ id run record, event = .step (.begin id) ∧ s.runs.get? id = some run ∧
      run.phase = .spawned ∧ s.records.get? run.record = some record ∧
      ((record.status = .running ∧ s'.runs = s.runs.erase id ∧ entry = .refused id run.record) ∨
        (record.status ≠ .running ∧
          entry = .admitted id run.record run.trigger s.clock s.now)) := by
  have hmark : entry.isMark = true := by cases entry <;> first | rfl | cases hverdict
  rw [← mem_marks_iff hmark] at hmem ⊢
  rcases h.change.marks with he | ⟨id, rfl⟩ | ⟨loop, due, now, he⟩
  · exact .inl (he ▸ hmem)
  · cases h with
    | @begin id run hrun hphase =>
      obtain ⟨record, hrecord⟩ := hs.record_of_run hrun
      rcases frame_begin id hrecord with ⟨hrunning, hruns, he⟩ | ⟨hfree, he⟩
      · rw [he, List.mem_cons] at hmem
        rcases hmem with rfl | hmem
        · exact .inr ⟨id, run, record, rfl, hrun, hphase, hrecord, .inl ⟨hrunning, hruns, rfl⟩⟩
        · exact .inl hmem
      · rw [he, List.mem_cons] at hmem
        rcases hmem with rfl | hmem
        · exact .inr ⟨id, run, record, rfl, hrun, hphase, hrecord, .inr ⟨hfree, rfl⟩⟩
        · exact .inl hmem
  · rw [he, List.mem_cons] at hmem
    rcases hmem with rfl | hmem
    · cases hverdict
    · exact .inl hmem

/-- A run passes the guard in the step that looks at it for the first time, if its task is not
running. -/
theorem Transition.admitted_cases (h : s.Transition event s') (hs : s.Reachable) {id number : Nat}
    {trigger : Trigger} {moment : Moment} {now : Instant}
    (hmem : .admitted id number trigger moment now ∈ s'.journal) :
    .admitted id number trigger moment now ∈ s.journal ∨
      event = .step (.begin id) ∧ ∃ run record, s.runs.get? id = some run ∧ run.phase = .spawned ∧
        run.record = number ∧ run.trigger = trigger ∧ s.records.get? number = some record ∧
        record.status ≠ .running ∧ s.clock = moment ∧ s.now = now := by
  refine (h.verdict_cases hs rfl hmem).imp_right ?_
  rintro ⟨k, run, record, rfl, hrun, hphase, hrecord, ⟨-, -, he⟩ | ⟨hfree, he⟩⟩
  · cases he
  · cases he
    exact ⟨rfl, run, record, hrun, hphase, rfl, rfl, hrecord, hfree, rfl, rfl⟩

/-- A run is refused and dropped in the step that looks at it for the first time, if its task is
running. -/
theorem Transition.refused_cases (h : s.Transition event s') (hs : s.Reachable) {id number : Nat}
    (hmem : .refused id number ∈ s'.journal) :
    .refused id number ∈ s.journal ∨
      event = .step (.begin id) ∧ s'.runs = s.runs.erase id ∧ ∃ run record,
        s.runs.get? id = some run ∧ run.phase = .spawned ∧ run.record = number ∧
        s.records.get? number = some record ∧ record.status = .running := by
  refine (h.verdict_cases hs rfl hmem).imp_right ?_
  rintro ⟨k, run, record, rfl, hrun, hphase, hrecord, ⟨hrunning, hruns, he⟩ | ⟨-, he⟩⟩
  · cases he
    exact ⟨rfl, hruns, run, record, hrun, hphase, rfl, hrecord, hrunning⟩
  · cases he

/-- A run that is gone does not come back. -/
theorem Transition.run_eq_none (h : s.Transition event s') {id : Nat} (hlt : id < s.nextId)
    (hnone : s.runs.get? id = none) : s'.runs.get? id = none := by
  cases hrun : s'.runs.get? id with
  | none => rfl
  | some run =>
    obtain ⟨run₀, hrun₀, -⟩ := h.moves.run_continues hlt hrun
    exact absurd (hnone.symm.trans hrun₀) (by simp)

/-- A run that was refused is gone, and has not passed the guard of any record. -/
theorem Reachable.not_hasPassed_of_refused (hs : s.Reachable) {id number : Nat}
    (hmem : .refused id number ∈ s.journal) :
    s.runs.get? id = none ∧ id < s.nextId ∧ ∀ record, ¬ HasPassed s.journal record id := by
  refine hs.step_induction (motive := fun s => .refused id number ∈ s.journal →
    s.runs.get? id = none ∧ id < s.nextId ∧ ∀ record, ¬ HasPassed s.journal record id)
    (fun _ _ hmem => nomatch hmem) (fun s event s' hs h ih hmem => ?_) hmem
  have hnext : s.nextId ≤ s'.nextId := Ledger.Moves.nextId_le h.moves
  rcases h.refused_cases hs hmem with
    hold | ⟨rfl, hruns, run, record, hrun, hphase, rfl, hrecord, hrunning⟩
  · obtain ⟨hnone, hlt, hnot⟩ := ih hold
    refine ⟨h.run_eq_none hlt hnone, Nat.lt_of_lt_of_le hlt hnext, ?_⟩
    rintro r ⟨trigger, moment, now, hpassed⟩
    rcases h.admitted_cases hs hpassed with hbefore | ⟨-, run, -, hrun, -⟩
    · exact hnot r ⟨trigger, moment, now, hbefore⟩
    · exact absurd (hnone.symm.trans hrun) (by simp)
  · refine ⟨by rw [hruns]; simp, Nat.lt_of_lt_of_le (hs.run_lt hrun) hnext, ?_⟩
    have hstanding := Ledger.standing?_of_spawned (l := s.ledger) hrun hphase
    rintro r ⟨trigger, moment, now, hpassed⟩
    rcases h.admitted_cases hs hpassed with
      hbefore | ⟨-, run', record', hrun', -, rfl, -, hrecord', hfree, -⟩
    · exact hs.isSound.kept.not_passed hstanding ⟨trigger, moment, now, hbefore⟩
    · rw [hrun] at hrun'
      cases hrun'
      rw [hrecord] at hrecord'
      cases hrecord'
      exact hfree hrunning

end State

end CronDaemon.Scheduler
