import CronDaemon.Proofs.Scheduler.Alternation
import CronDaemon.Proofs.Scheduler.Origins
import CronDaemon.Proofs.Scheduler.OverlapGuard
import Mathlib.Data.List.Nodup

/-!
# What the counters of a record tell

The counters of a record, its last run and its last error are a fold of the results recorded on it,
in every reachable state: whatever else happens to the record leaves them as they are. A run that
passed the guard is recorded once, on the record on which it was started, or is still in progress;
only a run that broke off is never recorded, and a refused run neither passes the guard nor is
recorded.
-/

namespace CronDaemon.Scheduler

open Job

namespace Recording

/-- The error of a run that failed. -/
def error? (recording : Recording) : Option JobError :=
  match recording.result with
  | .ok () => none
  | .error e => some e

/-- Whether the run failed. -/
def isFailure (recording : Recording) : Bool := recording.error?.isSome

end Recording

/-- How many runs failed since the last one that did not. -/
def trailingFailures (recordings : List Recording) : Nat :=
  (recordings.takeWhile (·.isFailure)).length

/-- The record tells of these recordings, the latest first, and of the last run with which it was
registered. The failures in a row are counted up to the width of their counter. -/
structure Record.Tallies {H : Type} (record : Record H) (seeded : Option Instant)
    (recordings : List Recording) : Prop where
  runCount : record.runCount = recordings.length
  failureCount : record.failureCount = recordings.countP (·.isFailure)
  consecutiveFailures : record.consecutiveFailures.toNat = trailingFailures recordings % UInt32.size
  lastError : record.lastError = (recordings.head?.bind (·.error?)).map (·.message)
  lastRun : record.lastRun = (recordings.head?.map (·.finished)).or seeded

namespace Record

variable {H : Type} {before after record : Record H} {seeded : Option Instant}
  {recordings : List Recording}

/-- A fresh record tells of no runs. -/
theorem tallies_ofSpec {zone : Zone} {clock : Except Fault Instant} {spec : TaskSpec H}
    (h : Record.ofSpec zone clock spec = .ok record) : record.Tallies spec.lastRun [] := by
  unfold Record.ofSpec at h
  repeat' split at h
  all_goals cases h
  exact ⟨rfl, rfl, rfl, rfl, rfl⟩

theorem Tallies.edit (h : before.Tallies seeded recordings) (edit : before.Edit after) :
    after.Tallies seeded recordings := by
  cases edit with
  | enabled | called => exact ⟨h.1, h.2, h.3, h.4, h.5⟩
  | passedOver =>
    unfold passedOver
    split
    · exact h
    · exact ⟨h.1, h.2, h.3, h.4, h.5⟩

theorem Tallies.refreshed (h : before.Tallies seeded recordings) {zone : Zone} {now : Instant}
    (hafter : before.refreshed zone now = .ok after) : after.Tallies seeded recordings := by
  unfold Record.refreshed at hafter
  split at hafter
  · cases hafter
    exact h
  · obtain ⟨next, -, rfl⟩ := map_eq_ok_iff.1 hafter
    exact ⟨h.1, h.2, h.3, h.4, h.5⟩

/-- A record that takes in a result tells of it first. -/
theorem Tallies.recorded (h : before.Tallies seeded recordings) {zone : Zone} {now : Instant}
    {result : Except JobError Unit} (hafter : before.recorded zone now result = .ok after)
    (run : Nat) : after.Tallies seeded (⟨run, result, now⟩ :: recordings) := by
  obtain ⟨next, -, rfl⟩ := map_eq_ok_iff.1 hafter
  obtain ⟨hruns, hfailures, hconsecutive, -, -⟩ := h
  cases result with
  | ok =>
    refine ⟨?_, ?_, ?_, rfl, rfl⟩
    · simp [finished, hruns]
    · simp [finished, hfailures, Recording.isFailure, Recording.error?]
    · simp [finished, trailingFailures, Recording.isFailure, Recording.error?]
  | error e =>
    refine ⟨?_, ?_, ?_, rfl, rfl⟩
    · simp [finished, hruns]
    · simp [finished, hfailures, Recording.isFailure, Recording.error?]
    · simp [finished, trailingFailures, UInt32.toNat_add, hconsecutive, Recording.isFailure,
        Recording.error?]

/-- A list begins with a number of elements that satisfy a test exactly if it is that long and they
do. -/
theorem le_length_takeWhile_iff {α : Type} (p : α → Bool) (n : Nat) (l : List α) :
    n ≤ (l.takeWhile p).length ↔ n ≤ l.length ∧ ∀ a ∈ l.take n, p a = true := by
  induction l generalizing n with
  | nil => simp
  | cons a l ih =>
    cases n with
    | zero => simp
    | succ n =>
      rw [List.takeWhile_cons]
      cases hp : p a with
      | false => simp [hp]
      | true => simp [ih, hp]

/-- The health that a record reports is graded by its counter of failures in a row. -/
theorem Tallies.health_eq (h : record.Tallies seeded recordings) :
    record.snapshot.health = .ofFailures (trailingFailures recordings % UInt32.size) := by
  rw [← h.consecutiveFailures]
  rfl

/-- As long as the counter does not run over, the health that a record reports tells how many of the
latest recorded runs failed in a row. -/
theorem Tallies.health_iff (h : record.Tallies seeded recordings)
    (hbound : trailingFailures recordings < UInt32.size) :
    (record.snapshot.health = .unhealthy ↔
      3 ≤ recordings.length ∧ ∀ recording ∈ recordings.take 3, recording.isFailure = true) ∧
    (record.snapshot.health = .healthy ↔ recordings.takeWhile (·.isFailure) = []) ∧
    (record.snapshot.health = .degraded ↔ recordings.takeWhile (·.isFailure) ≠ [] ∧
      ¬ (3 ≤ recordings.length ∧ ∀ recording ∈ recordings.take 3, recording.isFailure = true)) := by
  have hhealth : record.snapshot.health =
      .ofFailures (recordings.takeWhile (·.isFailure)).length := by
    rw [h.health_eq, Nat.mod_eq_of_lt hbound, trailingFailures]
  have hempty : recordings.takeWhile (·.isFailure) = [] ↔
      (recordings.takeWhile (·.isFailure)).length = 0 := List.length_eq_zero_iff.symm
  rw [hhealth, ← le_length_takeWhile_iff, ne_eq, hempty]
  generalize (recordings.takeWhile (·.isFailure)).length = n
  match n with
  | 0 | 1 | 2 => simp [Health.ofFailures]
  | n + 3 => simp [Health.ofFailures]

end Record

namespace Ledger

variable {H : Type} {l l' : Ledger H} {trouble : Prop} {number : Nat} {seeded : Option Instant}

/-- The record with this number tells of all results recorded on it. -/
def IsTallied (l : Ledger H) (number : Nat) (seeded : Option Instant) : Prop :=
  ∃ record, l.records.get? number = some record ∧
    record.Tallies seeded (recordedOn l.journal number)

theorem IsTallied.insert (h : l.IsTallied number seeded) {other : Nat} {after : Record H}
    (hrecords : l'.records = l.records.insert other after)
    (hsame : other ≠ number → recordedOn l'.journal number = recordedOn l.journal number)
    (hafter : ∀ before, other = number → l.records.get? other = some before →
      before.Tallies seeded (recordedOn l.journal other) →
      after.Tallies seeded (recordedOn l'.journal other)) : l'.IsTallied number seeded := by
  obtain ⟨record, hrecord, htallies⟩ := h
  by_cases he : other = number
  · subst he
    exact ⟨after, by simp [hrecords], hafter record rfl hrecord htallies⟩
  · refine ⟨record, by simp [hrecords, he, hrecord], ?_⟩
    rw [hsame he]
    exact htallies

theorem IsTallied.modify (h : l.IsTallied number seeded) {other : Nat}
    (change : Record H → Record H) (hrecords : l'.records = l.records.modify other change)
    (hsame : recordedOn l'.journal number = recordedOn l.journal number)
    (hchange : ∀ record : Record H, record.Tallies seeded (recordedOn l.journal number) →
      (change record).Tallies seeded (recordedOn l.journal number)) :
        l'.IsTallied number seeded := by
  obtain ⟨record, hrecord, htallies⟩ := h
  rw [IsTallied, hsame]
  by_cases he : other = number
  · exact ⟨change record, by simp [hrecords, he, hrecord], hchange record htallies⟩
  · exact ⟨record, by simp [hrecords, he, hrecord], htallies⟩

/-- Of the moves of a ledger only the recording of a result touches what a record tells of its runs,
and it adds that result. -/
theorem Move.isTallied (hlt : number < l.nextId) (h : l.IsTallied number seeded)
    (move : Move trouble l l') : l'.IsTallied number seeded := by
  cases move with
  | skip | spawn | drop | advance | strand => exact h
  | remark entry he =>
    obtain ⟨record, hrecord, htallies⟩ := h
    refine ⟨record, hrecord, ?_⟩
    have hnone : entry.recording? number = none := by cases entry <;> first | rfl | cases he
    rw [recordedOn_cons, hnone]
    exact htallies
  | enroll =>
    exact h.insert rfl (fun _ => rfl) fun _ he _ _ => absurd he (Nat.ne_of_gt hlt)
  | edit other change hedit =>
    exact h.modify change rfl rfl fun record htallies => htallies.edit (hedit record)
  | refresh other before after now hbefore hafter =>
    refine h.insert rfl (fun _ => rfl) fun before' _ hbefore' htallies => ?_
    rw [hbefore] at hbefore'
    cases hbefore'
    exact htallies.refreshed hafter
  | pass id run =>
    exact h.modify (fun record => { record with status := .running }) rfl rfl fun record htallies =>
      ⟨htallies.1, htallies.2, htallies.3, htallies.4, htallies.5⟩
  | record id run result now before after hrun hactive hbefore hafter =>
    refine h.insert rfl (fun hne => ?_) fun before' _ hbefore' htallies => ?_
    · simp [recordedOn_cons, Entry.recording?, hne]
    · rw [hbefore] at hbefore'
      cases hbefore'
      simpa [recordedOn_cons, Entry.recording?] using htallies.recorded hafter id

theorem Moves.isTallied (hlt : number < l.nextId) (h : l.IsTallied number seeded)
    (moves : Moves trouble l l') : l'.IsTallied number seeded := by
  induction moves with
  | refl => exact h
  | tail moves move ih => exact move.isTallied (Nat.lt_of_lt_of_le hlt (Moves.nextId_le moves)) ih

end Ledger

namespace State

variable {H : Type} {start s : State H} {events : List (Event H)}

/-- A run passes the guard of a record that exists. -/
theorem Reachable.record_of_hasPassed (hs : s.Reachable) {number id : Nat}
    (h : HasPassed s.journal number id) : ∃ record, s.records.get? number = some record := by
  refine hs.step_induction (motive := fun s => HasPassed s.journal number id →
    ∃ record, s.records.get? number = some record) ?_ ?_ h
  · rintro options now ⟨_, _, _, hmem⟩
    cases hmem
  · rintro s event s' hs h ih ⟨trigger, moment, now, hmem⟩
    have hold : ∃ record, s.records.get? number = some record := by
      rcases h.admitted_cases hs hmem with hbefore | ⟨-, _, record, -, -, -, -, hrecord, -⟩
      · exact ih ⟨trigger, moment, now, hbefore⟩
      · exact ⟨record, hrecord⟩
    obtain ⟨record, hrecord⟩ := hold
    obtain ⟨record', hrecord', -⟩ := h.record_stays hs hrecord
    exact ⟨record', hrecord'⟩

/-- No result has been recorded on a record that is yet to be made. -/
theorem Reachable.recordedOn_nextId (hs : s.Reachable) : recordedOn s.journal s.nextId = [] := by
  refine List.eq_nil_iff_forall_not_mem.2 fun recording h => ?_
  obtain ⟨record, hrecord⟩ := hs.record_of_hasPassed (hs.hasPassed_of_mem_recordedOn h)
  exact Nat.lt_irrefl _ (hs.record_lt hrecord)

/-- Every record tells of all results recorded on it since its registration. -/
theorem exists_tallies (hstart : start.Reachable)
    (hnone : ∀ number, start.records.get? number = none)
    (hreplay : start.replay? events = some s) {number : Nat} {record : Record H}
    (hrecord : s.records.get? number = some record) :
    ∃ spec t t' after, start.Occurs events (.request (.register spec)) t t' after ∧
      t.register spec = .ok t' ∧ t.nextId = number ∧
      record.Tallies spec.lastRun (recordedOn s.journal number) := by
  obtain ⟨spec, t, t', after, hoccurs, hregister, rfl⟩ := exists_registration hnone hreplay hrecord
  obtain ⟨fresh, hfresh, hrecords, hjournal⟩ := exists_fresh_of_register hregister
  have ht' : t'.Reachable := (hoccurs.reachable hstart).fire? hoccurs.fires
  have hget : t'.records.get? t.nextId = some fresh := by simp [hrecords]
  have hempty : recordedOn t'.journal t.nextId = [] := by
    rw [hjournal, recordedOn_cons, (hoccurs.reachable hstart).recordedOn_nextId]
    rfl
  have htallied : t'.ledger.IsTallied t.nextId spec.lastRun :=
    ⟨fresh, hget, hempty ▸ Record.tallies_ofSpec hfresh⟩
  obtain ⟨record', hrecord', htallies⟩ :=
    Ledger.Moves.isTallied (ht'.record_lt hget) htallied (replay?_moves (hoccurs.replay? hreplay))
  rw [show s.records.get? t.nextId = some record' from hrecord'] at hrecord
  cases hrecord
  exact ⟨spec, t, t', after, hoccurs, hregister, rfl, htallies⟩

/-- How often a run was recorded on a record. -/
def timesRecorded (s : State H) (number id : Nat) : Nat :=
  ((recordedOn s.journal number).map (·.run)).count id

theorem IsRecorded.exists_mem_recordedOn {journal : List Entry} {id : Nat}
    (h : IsRecorded journal id) :
    ∃ number recording, recording ∈ recordedOn journal number ∧ recording.run = id := by
  obtain ⟨number, result, finished, hmem⟩ := h
  exact ⟨number, ⟨id, result, finished⟩, mem_recordedOn_iff.2 hmem, rfl⟩

/-- A run that was recorded was recorded once on the record whose guard it passed. -/
theorem Reachable.timesRecorded_eq_one (hs : s.Reachable) {number id : Nat}
    (h : HasPassed s.journal number id) (hrecorded : IsRecorded s.journal id) :
    s.timesRecorded number id = 1 := by
  obtain ⟨r, recording, hmem, rfl⟩ := IsRecorded.exists_mem_recordedOn hrecorded
  obtain rfl : r = number := hs.isOrderly.one_record (hs.hasPassed_of_mem_recordedOn hmem) h
  obtain ⟨outstanding, hlist, -⟩ := hs.isOrderly.alternates r
  have hnodup := hs.isOrderly.nodup r
  rw [hlist] at hnodup
  exact List.count_eq_one_of_mem hnodup.of_append_right (List.mem_map_of_mem hmem)

/-- A run is not recorded on a record whose guard it has not passed. -/
theorem Reachable.timesRecorded_eq_zero (hs : s.Reachable) {number id : Nat}
    (h : ¬ HasPassed s.journal number id) : s.timesRecorded number id = 0 := by
  refine List.count_eq_zero.2 fun hmem => ?_
  obtain ⟨recording, hrecording, rfl⟩ := List.mem_map.1 hmem
  exact h (hs.hasPassed_of_mem_recordedOn hrecording)

/-- A run that was not recorded was recorded no time. -/
theorem timesRecorded_eq_zero_of_not_isRecorded {number id : Nat} (h : ¬ IsRecorded s.journal id) :
    s.timesRecorded number id = 0 := by
  refine List.count_eq_zero.2 fun hmem => ?_
  obtain ⟨recording, hrecording, rfl⟩ := List.mem_map.1 hmem
  exact h ⟨number, _, _, mem_recordedOn_iff.1 hrecording⟩

/-- A run that passed the guard of a record is recorded once, or it goes on or has broken off. -/
theorem Reachable.recorded_or_outstanding (hs : s.Reachable) {number id : Nat}
    (h : HasPassed s.journal number id) :
    s.timesRecorded number id = 1 ∧ ¬ s.InProgress number id ∧ ¬ s.IsStranded number id ∨
      s.timesRecorded number id = 0 ∧ (s.InProgress number id ∨ s.IsStranded number id) := by
  by_cases hrecorded : IsRecorded s.journal id
  · refine .inl ⟨hs.timesRecorded_eq_one h hrecorded, fun h => ?_, fun h => ?_⟩
    · exact (hs.isOutstanding_iff.2 (.inl h)).2 hrecorded
    · exact (hs.isOutstanding_iff.2 (.inr h)).2 hrecorded
  · exact .inr ⟨timesRecorded_eq_zero_of_not_isRecorded hrecorded,
      hs.isOutstanding_iff.1 ⟨h, hrecorded⟩⟩

/-- The counters, the last run and the last error of every record are the fold of the results
recorded on it, and the health that it reports is read off the latest of them, as long as fewer than
2^32 of them failed in a row. A run that passed the guard of a record is recorded on no other, and
on that one once, unless it is still in progress or has broken off; none breaks off as long as
nothing makes a run break off. A refused run is never recorded. -/
theorem counters_eq_fold_of_recordings {options : Options} {now : Instant}
    (hcreate : create? options now = some start) (hreplay : start.replay? events = some s) :
    (∀ number record, s.records.get? number = some record →
      ∃ spec t t' after, start.Occurs events (.request (.register spec)) t t' after ∧
        t.register spec = .ok t' ∧ t.nextId = number ∧
        record.Tallies spec.lastRun (recordedOn s.journal number) ∧
        record.snapshot.health =
          .ofFailures (trailingFailures (recordedOn s.journal number) % UInt32.size) ∧
        (trailingFailures (recordedOn s.journal number) < UInt32.size →
          (record.snapshot.health = .unhealthy ↔ 3 ≤ (recordedOn s.journal number).length ∧
            ∀ recording ∈ (recordedOn s.journal number).take 3, recording.isFailure = true) ∧
          (record.snapshot.health = .healthy ↔
            (recordedOn s.journal number).takeWhile (·.isFailure) = []) ∧
          (record.snapshot.health = .degraded ↔
            (recordedOn s.journal number).takeWhile (·.isFailure) ≠ [] ∧
            ¬ (3 ≤ (recordedOn s.journal number).length ∧
              ∀ recording ∈ (recordedOn s.journal number).take 3, recording.isFailure = true)))) ∧
    (∀ number id, HasPassed s.journal number id →
      (∀ other, other ≠ number → s.timesRecorded other id = 0) ∧
      (s.timesRecorded number id = 1 ∧ ¬ s.InProgress number id ∧ ¬ s.IsStranded number id ∨
        s.timesRecorded number id = 0 ∧ (s.InProgress number id ∨ s.IsStranded number id))) ∧
    (start.StaysUntroubled events → ∀ number id, ¬ s.IsStranded number id) ∧
    ∀ number id, .refused id number ∈ s.journal → ∀ other,
      ¬ HasPassed s.journal other id ∧ s.timesRecorded other id = 0 := by
  have hstart : start.Reachable := .of_create? hcreate
  have hs : s.Reachable := hstart.replay? hreplay
  have hnone : ∀ number, start.records.get? number = none :=
    eq_initial_of_create? hcreate ▸ fun _ => rfl
  refine ⟨fun number record hrecord => ?_, fun number id hpassed => ?_,
    fun huntroubled => not_isStranded_of_staysUntroubled hcreate huntroubled hreplay,
    fun number id hrefused other => ?_⟩
  · obtain ⟨spec, t, t', after, hoccurs, hregister, hnumber, htallies⟩ :=
      exists_tallies hstart hnone hreplay hrecord
    exact ⟨spec, t, t', after, hoccurs, hregister, hnumber, htallies, htallies.health_eq,
      htallies.health_iff⟩
  · refine ⟨fun other hne => hs.timesRecorded_eq_zero fun h => ?_,
      hs.recorded_or_outstanding hpassed⟩
    exact hne (hs.isOrderly.one_record h hpassed)
  · obtain ⟨-, -, hnot⟩ := hs.not_hasPassed_of_refused hrefused
    exact ⟨hnot other, hs.timesRecorded_eq_zero (hnot other)⟩

/-- A run of a task fails, and another one executes. -/
def failsOnce : List (Event Unit) :=
  [.request (.register (.new "backup" ())), .request (.runNow true "backup"), .step (.begin 1),
    .step (.endAttempt 1 (.failed (.failed "disk full" false))), .request (.runNow true "backup"),
    .step (.begin 2)]

/-- While the second run executes the record tells of the first one, and the task is degraded. -/
theorem counters_eq_fold_of_recordings_of_failsOnce :
    ∃ start s, create? Options.standard someMorning = some start ∧
      start.replay? failsOnce = some s ∧
      ∃ record, s.records.get? 0 = some record ∧ record.status = .running ∧
        record.Tallies none (recordedOn s.journal 0) ∧ record.runCount = 1 ∧
        record.snapshot.health = .degraded ∧ s.timesRecorded 0 1 = 1 ∧ s.timesRecorded 0 2 = 0 ∧
        s.InProgress 0 2 := by
  have hcreate : create? Options.standard someMorning =
      some (initial Options.standard someMorning : State Unit) := rfl
  obtain ⟨s, hs⟩ : ∃ s, (initial Options.standard someMorning).replay? failsOnce = some s :=
    Option.isSome_iff_exists.1 (by decide)
  have hrecord : ((initial Options.standard someMorning).replay? failsOnce).bind (fun s =>
      (s.records.get? 0).map fun record =>
        (record.status, record.runCount, record.snapshot.health)) =
      some (.running, 1, .degraded) := by decide
  have hruns : ((initial Options.standard someMorning).replay? failsOnce).map (fun s =>
      (admittedOn s.journal 0, s.timesRecorded 0 1,
        (s.runs.get? 2).map fun run => (run.record, run.phase.isActive))) =
      some ([2, 1], 1, some (0, true)) := by decide
  rw [hs] at hrecord hruns
  obtain ⟨record, hget, he⟩ := Option.map_eq_some_iff.1 hrecord
  simp only [Prod.mk.injEq] at he
  obtain ⟨hstatus, hcount, hhealth⟩ := he
  simp only [Option.map_some, Option.some.injEq, Prod.mk.injEq] at hruns
  obtain ⟨hadmitted, htimes, hrun⟩ := hruns
  obtain ⟨run, hrun, he⟩ := Option.map_eq_some_iff.1 hrun
  simp only [Prod.mk.injEq] at he
  have hprogress : s.InProgress 0 2 := ⟨run, hrun, he⟩
  obtain ⟨hrecords, hpassed, -, -⟩ := counters_eq_fold_of_recordings hcreate hs
  obtain ⟨spec, t, t', after, hoccurs, -, -, htallies, -⟩ := hrecords 0 record hget
  have hspec : .request (.register spec) ∈ failsOnce := by
    obtain ⟨before, he, -⟩ := hoccurs.split
    rw [he]
    simp
  obtain rfl : spec = .new "backup" () := by simpa [failsOnce] using hspec
  obtain ⟨-, ⟨-, hnot, -⟩ | ⟨hnone, -⟩⟩ :=
    hpassed 0 2 (mem_admittedOn_iff.1 (by rw [hadmitted]; simp))
  · exact absurd hprogress hnot
  · exact ⟨_, s, hcreate, hs, record, hget, hstatus, htallies, hcount, hhealth, htimes, hnone,
      hprogress⟩

/-- A run that passed the guard need neither be recorded nor in progress: one whose deadline lies
past the end of the steady clock breaks off, and nothing is left that could record it. -/
theorem not_forall_recorded_or_inProgress :
    ¬ ∀ s : State Unit, s.Reachable → ∀ number id, HasPassed s.journal number id →
      s.timesRecorded number id = 1 ∨ s.InProgress number id := by
  intro hall
  obtain ⟨s, hs⟩ : ∃ s, (initial boundless someMorning).replay? oneRequest = some s :=
    Option.isSome_iff_exists.1 (by decide)
  have hreachable : s.Reachable := ⟨boundless, someMorning, _, oneRequest, rfl, hs⟩
  have hrun : ((initial boundless someMorning).replay? oneRequest).map (fun s =>
      (admittedOn s.journal 0, s.timesRecorded 0 1, s.runs.get? 1)) =
      some ([1], 0, some ⟨0, .manual, .dispatched, .stranded⟩) := by decide
  rw [hs, Option.map_some, Option.some.injEq, Prod.mk.injEq, Prod.mk.injEq] at hrun
  obtain ⟨hadmitted, htimes, hrun⟩ := hrun
  rcases hall s hreachable 0 1 (mem_admittedOn_iff.1 (by rw [hadmitted]; simp)) with h | h
  · rw [htimes] at h
    cases h
  · exact h.not_isStranded ⟨_, hrun, rfl, rfl⟩

end State

end CronDaemon.Scheduler
