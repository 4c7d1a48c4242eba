import CronDaemon.Scheduler.Event
import Mathlib.Logic.Relation

/-!
# The ledger of a scheduler

The records, the runs in progress and the journal make up the ledger of a state. Every change of a
scheduler moves its ledger in a few ways only: a record is enrolled, edited or refreshed, and a run
is spawned, dropped, passes the guard, goes on, is recorded or breaks off. What the ledger says
about the overlap of runs is therefore shown for one move at a time.
-/

namespace CronDaemon.Scheduler

open Job

/-- The run has passed the guard of the record. -/
def HasPassed (journal : List Entry) (record run : Nat) : Prop :=
  ∃ trigger moment now, .admitted run record trigger moment now ∈ journal

/-- The result of the run has been recorded. -/
def IsRecorded (journal : List Entry) (run : Nat) : Prop :=
  ∃ record result finished, .recorded run record result finished ∈ journal

/-- The run has passed the guard of the record, and has not been recorded yet. -/
def IsOutstanding (journal : List Entry) (record run : Nat) : Prop :=
  HasPassed journal record run ∧ ¬ IsRecorded journal run

/-- Whether an entry tells neither of a record nor of the admission or the result of a run. -/
def Entry.isRemark : Entry → Bool
  | .ticked .. | .refused .. | .began .. | .ended .. => true
  | .registered .. | .refreshed .. | .admitted .. | .recorded .. => false

/-- Whether a run in this phase has passed the guard and goes on. -/
def Phase.isActive : Phase → Bool
  | .queued _ | .executing .. | .resting .. => true
  | .spawned | .stranded => false

/-- A change of a record that belongs neither to the guard nor to a result. -/
inductive Record.Edit {H : Type} (record : Record H) : Record H → Prop
  | enabled (enabled : Bool) : Edit record { record with enabled := enabled }
  | passedOver : Edit record record.passedOver
  | called : Edit record { record with calls := record.calls + 1 }

/-- The part of a state that tells about records and runs. -/
structure Ledger (H : Type) where
  /-- The zone in which next runs are computed. -/
  zone : Zone
  records : Table Nat (Record H)
  runs : Table Nat Run
  /-- What happened, the latest first. -/
  journal : List Entry
  /-- The next unused number. -/
  nextId : Nat

/-- The ledger of a state. -/
def State.ledger {H : Type} (s : State H) : Ledger H :=
  ⟨s.options.zone, s.records, s.runs, s.journal, s.nextId⟩

namespace Ledger

variable {H : Type}

/-- One move of a ledger. Runs are stranded only in case of trouble. -/
inductive Move (trouble : Prop) (l : Ledger H) : Ledger H → Prop
  /-- A number is used up. -/
  | skip : Move trouble l { l with nextId := l.nextId + 1 }
  /-- An entry is written that tells neither of a record nor of a result. -/
  | remark (entry : Entry) (h : entry.isRemark = true) :
      Move trouble l { l with journal := entry :: l.journal }
  /-- A fresh record is made, by what is read from the clock if it can be read. -/
  | enroll (record : Record H) (spec : TaskSpec H) (clock : Except Fault Instant) (now : Instant)
      (h : Record.ofSpec l.zone clock spec = .ok record)
      (hclock : ∀ reading, clock = .ok reading → now = reading) :
      Move trouble l { l with
        records := l.records.insert l.nextId record
        journal := .registered l.nextId now :: l.journal
        nextId := l.nextId + 1 }
  /-- A record is edited. -/
  | edit (number : Nat) (change : Record H → Record H)
      (h : ∀ record : Record H, record.Edit (change record)) :
      Move trouble l { l with records := l.records.modify number change }
  /-- The next run of a record is computed anew. -/
  | refresh (number : Nat) (before after : Record H) (now : Instant)
      (hbefore : l.records.get? number = some before)
      (h : before.refreshed l.zone now = .ok after) :
      Move trouble l { l with
        records := l.records.insert number after
        journal := .refreshed number now :: l.journal }
  /-- A run is spawned on a record. -/
  | spawn (record : Nat) (trigger : Trigger) (owner : Owner)
      (h : l.records.contains record = true) :
      Move trouble l { l with
        runs := l.runs.insert l.nextId ⟨record, trigger, owner, .spawned⟩
        nextId := l.nextId + 1 }
  /-- A run that has not passed the guard is dropped. -/
  | drop (id : Nat) (run : Run) (hrun : l.runs.get? id = some run) (h : run.phase = .spawned) :
      Move trouble l { l with runs := l.runs.erase id }
  /-- A run passes the guard. -/
  | pass (id : Nat) (run : Run) (record : Record H) (phase : Phase) (moment : Moment)
      (now : Instant) (hrun : l.runs.get? id = some run) (hspawned : run.phase = .spawned)
      (hrecord : l.records.get? run.record = some record) (hfree : record.status ≠ .running)
      (h : phase.isActive = true) :
      Move trouble l { l with
        records := l.records.modify run.record fun record => { record with status := .running }
        runs := l.runs.modify id fun run => { run with phase := phase }
        journal := .admitted id run.record run.trigger moment now :: l.journal }
  /-- A run that has passed the guard goes on. -/
  | advance (id : Nat) (run : Run) (phase : Phase) (hrun : l.runs.get? id = some run)
      (hactive : run.phase.isActive = true) (h : phase.isActive = true) :
      Move trouble l { l with runs := l.runs.modify id fun run => { run with phase := phase } }
  /-- A run that has passed the guard breaks off. -/
  | strand (id : Nat) (run : Run) (htrouble : trouble) (hrun : l.runs.get? id = some run)
      (hactive : run.phase.isActive = true) :
      Move trouble l { l with runs := l.runs.modify id fun run => { run with phase := .stranded } }
  /-- The result of a run is recorded. -/
  | record (id : Nat) (run : Run) (result : Except JobError Unit) (now : Instant)
      (before after : Record H) (hrun : l.runs.get? id = some run)
      (hactive : run.phase.isActive = true) (hbefore : l.records.get? run.record = some before)
      (h : before.recorded l.zone now result = .ok after) :
      Move trouble l { l with
        records := l.records.insert run.record after
        runs := l.runs.erase id
        journal := .recorded id run.record result now :: l.journal }

/-- Any number of moves of a ledger. -/
abbrev Moves (trouble : Prop) : Ledger H → Ledger H → Prop := Relation.ReflTransGen (Move trouble)

end Ledger

theorem hasPassed_cons {e : Entry} {journal : List Entry} {record run : Nat} :
    HasPassed (e :: journal) record run ↔
      (∃ trigger moment now, e = .admitted run record trigger moment now) ∨
        HasPassed journal record run := by
  simp only [HasPassed, List.mem_cons, exists_or, eq_comm]

theorem isRecorded_cons {e : Entry} {journal : List Entry} {run : Nat} :
    IsRecorded (e :: journal) run ↔
      (∃ record result finished, e = .recorded run record result finished) ∨
        IsRecorded journal run := by
  simp only [IsRecorded, List.mem_cons, exists_or, eq_comm]

theorem hasPassed_cons_of_isRemark {e : Entry} (he : e.isRemark = true) {journal : List Entry}
    {record run : Nat} : HasPassed (e :: journal) record run ↔ HasPassed journal record run := by
  rw [hasPassed_cons]
  cases e <;> simp_all [Entry.isRemark]

theorem isRecorded_cons_of_isRemark {e : Entry} (he : e.isRemark = true) {journal : List Entry}
    {run : Nat} : IsRecorded (e :: journal) run ↔ IsRecorded journal run := by
  rw [isRecorded_cons]
  cases e <;> simp_all [Entry.isRemark]

/-- An edit leaves it as it is whether the task is running. -/
theorem Record.Edit.status_eq_running_iff {H : Type} {before after : Record H}
    (h : before.Edit after) : after.status = .running ↔ before.status = .running := by
  cases h with
  | enabled | called => exact Iff.rfl
  | passedOver =>
    unfold Record.passedOver
    split
    · exact Iff.rfl
    · simp_all

/-- A fresh record is pending. -/
theorem Record.status_ofSpec {H : Type} {zone : Zone} {clock : Except Fault Instant}
    {spec : TaskSpec H} {record : Record H} (h : Record.ofSpec zone clock spec = .ok record) :
    record.status = .pending := by
  unfold Record.ofSpec at h
  grind

theorem Record.status_refreshed {H : Type} {zone : Zone} {now : Instant} {before after : Record H}
    (h : before.refreshed zone now = .ok after) : after.status = before.status := by
  unfold Record.refreshed at h
  split at h
  · cases h
    rfl
  · obtain ⟨next, -, rfl⟩ := map_eq_ok_iff.1 h
    rfl

theorem Record.status_recorded {H : Type} {zone : Zone} {now : Instant} {before after : Record H}
    {result : Except JobError Unit} (h : before.recorded zone now result = .ok after) :
    after.status ≠ .running := by
  unfold Record.recorded at h
  obtain ⟨next, -, rfl⟩ := map_eq_ok_iff.1 h
  cases result <;> simp [Record.finished]

theorem Phase.ne_spawned_of_isActive {phase : Phase} (h : phase.isActive = true) :
    phase ≠ .spawned := by
  rintro rfl
  cases h

end CronDaemon.Scheduler
