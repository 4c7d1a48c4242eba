import CronDaemon.Proofs.Scheduler.History

/-!
# Runs and results by turns

On each record, passing the guard and recording a result come by turns: the runs that passed the
guard are the runs whose results were recorded, in the same order, and at most one more, the
outstanding run. No run passes the guard twice, and none that of two records.
-/

namespace CronDaemon.Scheduler

open Job

/-- A result that was recorded, with its run and the instant of the record. -/
structure Recording where
  run : Nat
  result : Except JobError Unit
  finished : Instant

/-- The run that passes the guard of the record by an entry. -/
def Entry.admission? (record : Nat) : Entry → Option Nat
  | .admitted run r .. => if r = record then some run else none
  | .registered .. | .refreshed .. | .ticked .. | .refused .. | .began .. | .ended ..
  | .recorded .. => none

/-- The result that an entry records on the record. -/
def Entry.recording? (record : Nat) : Entry → Option Recording
  | .recorded run r result finished => if r = record then some ⟨run, result, finished⟩ else none
  | .registered .. | .refreshed .. | .ticked .. | .admitted .. | .refused .. | .began ..
  | .ended .. => none

/-- The runs that passed the guard of the record, the latest first. -/
def admittedOn (journal : List Entry) (record : Nat) : List Nat :=
  journal.filterMap (Entry.admission? record)

/-- The results that were recorded on the record, the latest first. -/
def recordedOn (journal : List Entry) (record : Nat) : List Recording :=
  journal.filterMap (Entry.recording? record)

theorem admittedOn_cons (entry : Entry) (journal : List Entry) (record : Nat) :
    admittedOn (entry :: journal) record =
      (entry.admission? record).toList ++ admittedOn journal record := by
  rw [admittedOn, List.filterMap_cons]
  cases entry.admission? record <;> rfl

theorem recordedOn_cons (entry : Entry) (journal : List Entry) (record : Nat) :
    recordedOn (entry :: journal) record =
      (entry.recording? record).toList ++ recordedOn journal record := by
  rw [recordedOn, List.filterMap_cons]
  cases entry.recording? record <;> rfl

theorem admittedOn_append (new journal : List Entry) (record : Nat) :
    admittedOn (new ++ journal) record = admittedOn new record ++ admittedOn journal record :=
  List.filterMap_append

theorem mem_admittedOn_iff {journal : List Entry} {record id : Nat} :
    id ∈ admittedOn journal record ↔ HasPassed journal record id := by
  simp only [admittedOn, List.mem_filterMap, HasPassed]
  constructor
  · rintro ⟨entry, hmem, h⟩
    cases entry with
    | admitted run r trigger moment now =>
      simp only [Entry.admission?, Option.ite_none_right_eq_some, Option.some.injEq] at h
      obtain ⟨rfl, rfl⟩ := h
      exact ⟨trigger, moment, now, hmem⟩
    | _ => cases h
  · rintro ⟨trigger, moment, now, hmem⟩
    exact ⟨_, hmem, by simp [Entry.admission?]⟩

theorem mem_recordedOn_iff {journal : List Entry} {record : Nat} {recording : Recording} :
    recording ∈ recordedOn journal record ↔
      .recorded recording.run record recording.result recording.finished ∈ journal := by
  simp only [recordedOn, List.mem_filterMap]
  constructor
  · rintro ⟨entry, hmem, h⟩
    cases entry with
    | recorded run r result finished =>
      simp only [Entry.recording?, Option.ite_none_right_eq_some, Option.some.injEq] at h
      obtain ⟨rfl, rfl⟩ := h
      exact hmem
    | _ => cases h
  · intro hmem
    exact ⟨_, hmem, by simp [Entry.recording?]⟩

/-- On each record, passing the guard and recording a result come by turns. -/
structure IsOrderly (journal : List Entry) : Prop where
  alternates : ∀ record, ∃ outstanding : Option Nat,
    admittedOn journal record = outstanding.toList ++ (recordedOn journal record).map (·.run) ∧
    ∀ id, outstanding = some id ↔ IsOutstanding journal record id
  nodup : ∀ record, (admittedOn journal record).Nodup
  one_record : ∀ {record record' id}, HasPassed journal record id → HasPassed journal record' id →
    record = record'

/-- An entry that tells neither of an admission nor of a result keeps the turns. -/
theorem IsOrderly.cons {journal : List Entry} (h : IsOrderly journal) {entry : Entry}
    (hadmission : ∀ record, entry.admission? record = none)
    (hrecording : ∀ record, entry.recording? record = none)
    (hpassed : ∀ record id, HasPassed (entry :: journal) record id ↔ HasPassed journal record id)
    (hrecorded : ∀ id, IsRecorded (entry :: journal) id ↔ IsRecorded journal id) :
    IsOrderly (entry :: journal) where
  alternates record := by
    obtain ⟨outstanding, hlist, hiff⟩ := h.alternates record
    refine ⟨outstanding, ?_, fun id => ?_⟩
    · simpa [admittedOn_cons, recordedOn_cons, hadmission, hrecording] using hlist
    · rw [hiff, IsOutstanding, IsOutstanding, hpassed, hrecorded]
  nodup record := by
    simpa [admittedOn_cons, hadmission] using h.nodup record
  one_record hfirst hsecond := h.one_record ((hpassed _ _).1 hfirst) ((hpassed _ _).1 hsecond)

theorem IsOrderly.remark {journal : List Entry} (h : IsOrderly journal) {entry : Entry}
    (he : entry.isRemark = true) : IsOrderly (entry :: journal) := by
  refine h.cons (fun record => ?_) (fun record => ?_)
    (fun record id => hasPassed_cons_of_isRemark he) fun id => isRecorded_cons_of_isRemark he
  · cases entry <;> first | rfl | cases he
  · cases entry <;> first | rfl | cases he

/-- A run may pass the guard of a record on which no run is outstanding, if it has not done so
before. -/
theorem IsOrderly.pass {journal : List Entry} (h : IsOrderly journal) {id record : Nat}
    (hfree : ∀ k, ¬ IsOutstanding journal record k) (hnew : ∀ r, ¬ HasPassed journal r id)
    (hunrecorded : ¬ IsRecorded journal id) (trigger : Trigger) (moment : Moment) (now : Instant) :
    IsOrderly (.admitted id record trigger moment now :: journal) := by
  have hpassed : ∀ r k, HasPassed (.admitted id record trigger moment now :: journal) r k ↔
      (k = id ∧ r = record) ∨ HasPassed journal r k := by
    intro r k
    simp [hasPassed_cons, eq_comm]
  have hrecorded : ∀ k, IsRecorded (.admitted id record trigger moment now :: journal) k ↔
      IsRecorded journal k := by
    intro k
    simp [isRecorded_cons]
  refine ⟨fun r => ?_, fun r => ?_, fun {r r' k} hfirst hsecond => ?_⟩
  · obtain ⟨outstanding, hlist, hiff⟩ := h.alternates r
    -- Here the admissions get ahead of the results by one; other records stay as they are.
    by_cases hr : record = r
    · subst hr
      have hnone : outstanding = none := by
        cases outstanding with
        | none => rfl
        | some k => exact absurd ((hiff k).1 rfl) (hfree k)
      subst hnone
      refine ⟨some id, ?_, fun k => ?_⟩
      · simpa [admittedOn_cons, recordedOn_cons, Entry.admission?, Entry.recording?] using hlist
      · rw [Option.some.injEq, IsOutstanding, hpassed, hrecorded]
        constructor
        · rintro rfl
          exact ⟨.inl ⟨rfl, rfl⟩, hunrecorded⟩
        · rintro ⟨⟨rfl, -⟩ | hold, hnot⟩
          · rfl
          · exact absurd ⟨hold, hnot⟩ (hfree k)
    · refine ⟨outstanding, ?_, fun k => ?_⟩
      · simpa [admittedOn_cons, recordedOn_cons, Entry.admission?, Entry.recording?, hr] using hlist
      · rw [hiff, IsOutstanding, IsOutstanding, hpassed, hrecorded]
        simp [Ne.symm hr]
  · by_cases hr : record = r
    · subst hr
      simp only [admittedOn_cons, Entry.admission?, if_true, Option.toList_some,
        List.singleton_append, List.nodup_cons]
      exact ⟨fun hmem => hnew _ (mem_admittedOn_iff.1 hmem), h.nodup _⟩
    · simpa [admittedOn_cons, Entry.admission?, hr] using h.nodup r
  · rcases (hpassed r k).1 hfirst with ⟨rfl, rfl⟩ | hold
    · rcases (hpassed r' k).1 hsecond with ⟨-, rfl⟩ | hold'
      · rfl
      · exact absurd hold' (hnew r')
    · rcases (hpassed r' k).1 hsecond with ⟨rfl, rfl⟩ | hold'
      · exact absurd hold (hnew r)
      · exact h.one_record hold hold'

/-- The outstanding run of a record may be recorded. -/
theorem IsOrderly.record {journal : List Entry} (h : IsOrderly journal) {id record : Nat}
    (hout : IsOutstanding journal record id) (result : Except JobError Unit) (finished : Instant) :
    IsOrderly (.recorded id record result finished :: journal) := by
  have hpassed : ∀ r k, HasPassed (.recorded id record result finished :: journal) r k ↔
      HasPassed journal r k := by
    intro r k
    simp [hasPassed_cons]
  have hrecorded : ∀ k, IsRecorded (.recorded id record result finished :: journal) k ↔
      k = id ∨ IsRecorded journal k := by
    intro k
    simp [isRecorded_cons, eq_comm]
  refine ⟨fun r => ?_, fun r => ?_, fun hfirst hsecond =>
    h.one_record ((hpassed _ _).1 hfirst) ((hpassed _ _).1 hsecond)⟩
  · obtain ⟨outstanding, hlist, hiff⟩ := h.alternates r
    by_cases hr : record = r
    · subst hr
      obtain rfl : outstanding = some id := (hiff id).2 hout
      refine ⟨none, ?_, fun k => ?_⟩
      · simpa [admittedOn_cons, recordedOn_cons, Entry.admission?, Entry.recording?] using hlist
      · rw [IsOutstanding, hpassed, hrecorded]
        simp only [reduceCtorEq, false_iff, not_and, not_not]
        intro hk
        refine Classical.or_iff_not_imp_right.2 fun hnot => ?_
        have hsame := (hiff k).2 ⟨hk, hnot⟩
        exact (Option.some.inj hsame).symm
    · refine ⟨outstanding, ?_, fun k => ?_⟩
      · simpa [admittedOn_cons, recordedOn_cons, Entry.admission?, Entry.recording?, hr] using hlist
      · rw [hiff, IsOutstanding, IsOutstanding, hpassed, hrecorded, not_or]
        refine ⟨fun hk => ⟨hk.1, ?_, hk.2⟩, fun hk => ⟨hk.1, hk.2.2⟩⟩
        rintro rfl
        exact hr (h.one_record hout.1 hk.1)
  · simpa [admittedOn_cons, Entry.admission?] using h.nodup r

namespace Ledger

variable {H : Type} {l l' : Ledger H} {trouble : Prop}

theorem Move.isOrderly (hl : l.IsSound) (h : IsOrderly l.journal) (move : Move trouble l l') :
    IsOrderly l'.journal := by
  cases move with
  | skip | edit | spawn | drop | advance | strand => exact h
  | remark entry he => exact h.remark he
  | enroll | refresh =>
    exact h.cons (fun _ => rfl) (fun _ => rfl) (fun _ _ => by simp [hasPassed_cons])
      fun _ => by simp [isRecorded_cons]
  | pass id run record phase moment now hrun hspawned hrecord hfree hphase =>
    have hnew : ∀ r, ¬ HasPassed l.journal r id := fun r =>
      hl.kept.not_passed (standing?_of_spawned hrun hspawned)
    refine h.pass (fun k hk => ?_) hnew (fun hrecorded => ?_) run.trigger moment now
    · have hrunning : l.isRunning? run.record = some false := by
        simp [isRunning?, hrecord, hfree]
      exact absurd ((hl.guarded.running_iff hrunning).2 ⟨k, hl.kept.outstanding_iff.1 hk⟩) (by simp)
    · obtain ⟨r, hr⟩ := hl.kept.passed_of_recorded hrecorded
      exact hnew r hr
  | record id run result now before after hrun hactive =>
    exact h.record (hl.kept.outstanding_iff.2 (holds_of_active hrun hactive)) result now

theorem Moves.isOrderly (hl : l.IsSound) (h : IsOrderly l.journal) (moves : Moves trouble l l') :
    IsOrderly l'.journal := by
  induction moves with
  | refl => exact h
  | tail moves move ih => exact move.isOrderly (Moves.isSound hl moves) ih

end Ledger

namespace State

variable {H : Type} {s s' : State H}

theorem Reachable.isOrderly (hs : s.Reachable) : IsOrderly s.journal := by
  refine hs.step_induction (motive := fun s => IsOrderly s.journal) ?_ ?_
  · intro options now
    have hnone : ∀ record id, ¬ HasPassed (initial options now : State H).journal record id := by
      rintro record id ⟨trigger, moment, now, hmem⟩
      cases hmem
    exact ⟨fun record => ⟨none, rfl, fun id => ⟨nofun, fun h => absurd h.1 (hnone record id)⟩⟩,
      fun record => List.nodup_nil, fun h => absurd h (hnone _ _)⟩
  · intro s event s' hs h horderly
    exact Ledger.Moves.isOrderly hs.isSound horderly h.moves

/-- A run is recorded on a record whose guard it has passed. -/
theorem Reachable.hasPassed_of_mem_recordedOn (hs : s.Reachable) {number : Nat}
    {recording : Recording}
    (h : recording ∈ recordedOn s.journal number) : HasPassed s.journal number recording.run := by
  obtain ⟨outstanding, hlist, -⟩ := hs.isOrderly.alternates number
  rw [← mem_admittedOn_iff, hlist]
  exact List.mem_append_right _ (List.mem_map_of_mem h)

end State

end CronDaemon.Scheduler
