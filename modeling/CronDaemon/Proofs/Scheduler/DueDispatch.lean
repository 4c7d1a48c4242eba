import CronDaemon.Proofs.Scheduler.Alternation
import CronDaemon.Proofs.Scheduler.OverlapGuard
import CronDaemon.Proofs.Scheduler.Registration

/-!
# What a scheduled run finds at the guard

A tick reads from the record whether the task is due, and spawns a run. The run passes the guard
later, if the task is not running then, and does not look at the next run again. What the tick saw
still holds unless the next run was computed anew in between, or the task disabled, or the clock set
back; then no earlier run of the task was recorded after the tick, so that each computed next run
leads to one scheduled run. A task that is running at the tick may finish before its run is looked
at, and is run again at once.
-/

namespace CronDaemon.Scheduler

open Job

/-- Whether an entry tells that the next run of the record was computed. -/
def Entry.recomputes (record : Nat) : Entry → Bool
  | .registered r _ | .refreshed r _ | .recorded _ r .. => r = record
  | .ticked .. | .admitted .. | .refused .. | .began .. | .ended .. => false

theorem Record.isDue_iff {H : Type} {record : Record H} {now : Instant} :
    record.isDue now = true ↔
      record.enabled = true ∧ ∃ next, record.nextRun = some next ∧ next < now := by
  simp [Record.isDue, Option.any_eq_true]

theorem Record.Edit.nextRun_eq {H : Type} {before after : Record H} (h : before.Edit after) :
    after.nextRun = before.nextRun := by
  cases h with
  | enabled | called => rfl
  | passedOver =>
    unfold Record.passedOver
    split <;> rfl

namespace Ledger

variable {H : Type} {l l' : Ledger H} {trouble : Prop} {number : Nat}

/-- What a record says of its next run, if there is such a record. -/
def nextRun? (l : Ledger H) (number : Nat) : Option (Option Instant) :=
  (l.records.get? number).map (·.nextRun)

theorem nextRun?_insert {other : Nat} {record : Record H} (h : other ≠ number)
    (hrecords : l'.records = l.records.insert other record) :
    l'.nextRun? number = l.nextRun? number := by
  rw [nextRun?, hrecords, Table.get?_insert, if_neg h]
  rfl

theorem nextRun?_modify {other : Nat} (change : Record H → Record H)
    (h : ∀ record, (change record).nextRun = record.nextRun)
    (hrecords : l'.records = l.records.modify other change) :
    l'.nextRun? number = l.nextRun? number := by
  rw [nextRun?, hrecords, Table.get?_modify, nextRun?]
  split
  · simp [Option.map_map, Function.comp_def, h]
  · rfl

/-- A next run that is computed anew is told of. -/
theorem Move.nextRun?_eq (hlt : number < l.nextId) (move : Move trouble l l') :
    ∃ new, l'.journal = new ++ l.journal ∧
      ((∀ entry ∈ new, entry.recomputes number = false) →
        l'.nextRun? number = l.nextRun? number) := by
  cases move with
  | skip | spawn | drop | advance | strand => exact ⟨[], rfl, fun _ => rfl⟩
  | remark entry => exact ⟨[entry], rfl, fun _ => rfl⟩
  | enroll record spec clock now =>
    exact ⟨[.registered l.nextId now], rfl, fun _ => nextRun?_insert (Nat.ne_of_gt hlt) rfl⟩
  | edit other change h =>
    exact ⟨[], rfl, fun _ => nextRun?_modify change (fun record => (h record).nextRun_eq) rfl⟩
  | refresh other before after now hbefore h =>
    refine ⟨[.refreshed other now], rfl, fun hquiet => nextRun?_insert ?_ rfl⟩
    simpa [Entry.recomputes] using hquiet
  | pass id run record phase moment now =>
    refine ⟨[.admitted id run.record run.trigger moment now], rfl, fun _ => ?_⟩
    exact nextRun?_modify (fun record => { record with status := .running }) (fun _ => rfl) rfl
  | record id run result now before after hrun hactive hbefore h =>
    refine ⟨[.recorded id run.record result now], rfl, fun hquiet => nextRun?_insert ?_ rfl⟩
    simpa [Entry.recomputes] using hquiet

theorem Moves.nextRun?_eq (hlt : number < l.nextId) (moves : Moves trouble l l') :
    ∃ new, l'.journal = new ++ l.journal ∧
      ((∀ entry ∈ new, entry.recomputes number = false) →
        l'.nextRun? number = l.nextRun? number) := by
  induction moves with
  | refl => exact ⟨[], rfl, fun _ => rfl⟩
  | tail moves move ih =>
    obtain ⟨first, hfirst, hkept⟩ := ih
    obtain ⟨second, hsecond, hkept'⟩ :=
      move.nextRun?_eq (Nat.lt_of_lt_of_le hlt (Moves.nextId_le moves))
    refine ⟨second ++ first, by rw [hsecond, hfirst, List.append_assoc], fun hquiet => ?_⟩
    rw [hkept' fun entry h => hquiet entry (List.mem_append_left _ h)]
    exact hkept fun entry h => hquiet entry (List.mem_append_right _ h)

end Ledger

namespace State

variable {H : Type} {start s s' t : State H} {events : List (Event H)}

/-- The wall clock does not go back as long as nobody sets it. -/
theorem now_le_of_not_setClock (h : t.replay? events = some s)
    (hnot : ∀ now, .request (.setClock now) ∉ events) : t.now ≤ s.now := by
  obtain ⟨hepoch, hle⟩ : s.epoch = t.epoch ∧ t.clock ≤ s.clock := by
    refine history_induction (motive := fun events s => (∀ now, .request (.setClock now) ∉ events) →
      s.epoch = t.epoch ∧ t.clock ≤ s.clock) (fun _ => ⟨rfl, Nat.le_refl _⟩) ?_ h hnot
    intro before event u u' _ hfire ih hnot
    obtain ⟨hepoch, hle⟩ := ih fun now hmem => hnot now (List.mem_append_left _ hmem)
    rcases (transition_of_fire? hfire).change.clock with ⟨now, rfl⟩ | ⟨hepoch', hle'⟩
    · exact absurd (List.mem_append_right _ List.mem_cons_self) (hnot now)
    · exact ⟨hepoch'.trans hepoch, Nat.le_trans hle hle'⟩
  have hnanos : t.now.nanos ≤ s.now.nanos := by
    simp only [now, Instant.ofNanos, hepoch]
    exact Int.add_le_add_left (Int.ofNat_le.2 hle) _
  refine Int.not_lt.1 fun hlt => ?_
  have hlt' : s.now.nanos < t.now.nanos := (Instant.lt_iff_nanos rfl rfl).1 hlt
  omega

/-- A task stays enabled as long as no request disables it. -/
theorem Reachable.enabled_of_not_disabled (ht : t.Reachable) (h : t.replay? events = some s)
    {number : Nat} {seen record : Record H} (hseen : t.records.get? number = some seen)
    (henabled : seen.enabled = true) (hnot : .request (.setEnabled seen.id false) ∉ events)
    (hrecord : s.records.get? number = some record) : record.enabled = true := by
  have hkept : ∃ record, s.records.get? number = some record ∧ record.id = seen.id ∧
      record.enabled = true := by
    refine history_induction (motive := fun events s =>
      .request (.setEnabled seen.id false) ∉ events → ∃ record,
        s.records.get? number = some record ∧
        record.id = seen.id ∧ record.enabled = true)
          (fun _ => ⟨seen, hseen, rfl, henabled⟩) ?_ h hnot
    intro before event u u' hu hfire ih hnot
    obtain ⟨mid, hmid, hid, hon⟩ := ih fun hmem => hnot (List.mem_append_left _ hmem)
    have hreach : u.Reachable := ht.replay? hu
    obtain ⟨profile', hprofile', hcases⟩ :=
      (transition_of_fire? hfire).change.profile (profile_of_get? hmid) (hreach.record_lt hmid)
    obtain ⟨record', hrecord', rfl⟩ := get?_of_profile hprofile'
    refine ⟨record', hrecord', ?_⟩
    show record'.profile.id = seen.id ∧ record'.profile.enabled = true
    rcases hcases with he | ⟨name, enabled, rfl, hname, he⟩
    · rw [he]
      exact ⟨hid, hon⟩
    · -- Only the id under which the record is registered can be used to disable it.
      obtain ⟨mid', hmid', rfl⟩ := hreach.id_of_registry hname
      rw [hmid] at hmid'
      cases hmid'
      rw [he]
      cases enabled with
      | true => exact ⟨hid, rfl⟩
      | false =>
        rw [hid] at hnot
        exact absurd (List.mem_append_right _ List.mem_cons_self) hnot
  obtain ⟨record', hrecord', -, hon⟩ := hkept
  rw [hrecord] at hrecord'
  cases hrecord'
  exact hon

/-- A task that was due is still due unless its next run was computed anew, a request disabled it,
or the clock was set back. -/
theorem Reachable.isDue_of_quiet (ht : t.Reachable) (h : t.replay? events = some s) {number : Nat}
    {seen record : Record H} (hseen : t.records.get? number = some seen)
    (hdue : seen.isDue t.now = true) (hrecord : s.records.get? number = some record)
    {new : List Entry} (hnew : s.journal = new ++ t.journal)
    (hquiet : ∀ entry ∈ new, entry.recomputes number = false)
    (henabled : .request (.setEnabled seen.id false) ∉ events) (hnow : t.now ≤ s.now) :
    record.isDue s.now = true := by
  rw [Record.isDue_iff] at hdue ⊢
  obtain ⟨hon, next, hnext, hlt⟩ := hdue
  refine ⟨ht.enabled_of_not_disabled h hseen hon henabled hrecord, next, ?_,
    Int.lt_of_lt_of_le hlt hnow⟩
  obtain ⟨new', hnew', hkept⟩ := Ledger.Moves.nextRun?_eq (ht.record_lt hseen) (replay?_moves h)
  obtain rfl : new = new' := List.append_cancel_right (hnew.symm.trans hnew')
  have he := hkept hquiet
  simp only [Ledger.nextRun?, show s.ledger.records.get? number = some record from hrecord,
    show t.ledger.records.get? number = some seen from hseen, Option.map_some,
      Option.some.injEq] at he
  exact he.trans hnext

/-- Where a task is not running, every run that passed its guard is recorded. -/
theorem Reachable.isRecorded_of_free (hs : s.Reachable) {number other : Nat} {record : Record H}
    (hrecord : s.records.get? number = some record) (hfree : record.status ≠ .running)
    (h : HasPassed s.journal number other) : IsRecorded s.journal other := by
  refine Classical.not_not.1 fun hnot => hfree ?_
  exact (hs.status_eq_running_iff hrecord).2
    ⟨other, ⟨h, hnot⟩, fun k hk => hs.isOutstanding_unique hk ⟨h, hnot⟩⟩

/-- A run that passes the guard in a step finds its task not running. -/
theorem Reachable.status_of_passing (hs : s.Reachable) {id : Nat} {run : Run} {record : Record H}
    (hrun : s.runs.get? id = some run) (hrecord : s.records.get? run.record = some record)
    (hstep : s.step? (.begin id) = some s') (hpassed : HasPassed s'.journal run.record id) :
    record.status ≠ .running := by
  have htransition := transition_of_step? hstep
  cases htransition with
  | begin hrun' hphase =>
    rw [hrun] at hrun'
    cases hrun'
    obtain ⟨trigger, moment, now, hmem⟩ := hpassed
    rcases (transition_of_step? hstep).admitted_cases hs hmem with
      hold | ⟨-, run', record', hrun', -, -, -, hrecord', hfree, -⟩
    · have hstanding := Ledger.standing?_of_spawned (l := s.ledger) hrun hphase
      exact absurd ⟨trigger, moment, now, hold⟩ (hs.isSound.kept.not_passed hstanding)
    · rw [hrecord] at hrecord'
      cases hrecord'
      exact hfree

/-- A result of an earlier run that is not told of since the tick was recorded before the tick. -/
theorem Reachable.isRecorded_of_quiet (hs : s.Reachable) {number other : Nat}
    {new journal : List Entry} (hnew : s.journal = new ++ journal)
    (hquiet : ∀ entry ∈ new, entry.recomputes number = false)
    (hpassed : HasPassed s.journal number other) (hrecorded : IsRecorded s.journal other) :
    IsRecorded journal other := by
  obtain ⟨r, result, finished, hmem⟩ := hrecorded
  have hrecording : (⟨other, result, finished⟩ : Recording) ∈ recordedOn s.journal r :=
    mem_recordedOn_iff.2 hmem
  obtain rfl : r = number :=
    hs.isOrderly.one_record (hs.hasPassed_of_mem_recordedOn hrecording) hpassed
  rw [hnew] at hmem
  rcases List.mem_append.1 hmem with hmem | hmem
  · have hfalse := hquiet _ hmem
    simp [Entry.recomputes] at hfalse
  · exact ⟨r, result, finished, hmem⟩

/-- A scheduled run that passes the guard was spawned by a tick that found its task registered,
enabled and its next run past. If since then the next run was not computed anew, the task not
disabled and the clock not set back, the task is still due at the guard, and every earlier run of it
was recorded before the tick. In any case every earlier run was recorded, and with it the next run
computed anew. -/
theorem scheduled_run_was_due {options : Options} {now : Instant}
    (hcreate : create? options now = some start) (hreplay : start.replay? events = some s)
    {id : Nat} {run : Run} (hrun : s.runs.get? id = some run) (hscheduled : run.trigger = .schedule)
    (hstep : s.step? (.begin id) = some s') (hpassed : HasPassed s'.journal run.record id) :
    ∃ record, s.records.get? run.record = some record ∧
      (∀ other, HasPassed s.journal run.record other → IsRecorded s.journal other) ∧
      ∃ loop t t' after seen new, start.Occurs events (.step (.tick loop)) t t' after ∧
        (run.record, seen) ∈ t.tasks ∧ seen.isDue t.now = true ∧ s.journal = new ++ t.journal ∧
        ((∀ entry ∈ new, entry.recomputes run.record = false) →
          (∀ other, HasPassed s.journal run.record other → IsRecorded t.journal other) ∧
          (.request (.setEnabled seen.id false) ∉ after → t.now ≤ s.now →
            record.isDue s.now = true)) ∧
        ((∀ instant, .request (.setClock instant) ∉ after) → t.now ≤ s.now) := by
  have hstart : start.Reachable := .of_create? hcreate
  have hs : s.Reachable := hstart.replay? hreplay
  have hnone : ∀ k, start.runs.get? k = none := eq_initial_of_create? hcreate ▸ fun _ => rfl
  obtain ⟨record, hrecord⟩ := hs.record_of_run hrun
  have hfree := hs.status_of_passing hrun hrecord hstep hpassed
  have hrecorded : ∀ other, HasPassed s.journal run.record other → IsRecorded s.journal other :=
    fun other => hs.isRecorded_of_free hrecord hfree
  obtain ⟨event, t, t', after, first, hoccurs, hspawns, -, -, hcontinues⟩ :=
    exists_spawns hstart hnone hreplay hrun
  obtain ⟨-, hdue, loop, now', rfl, -⟩ :=
    hspawns.scheduled (hcontinues.trigger.symm.trans hscheduled)
  obtain ⟨hregistered, seen, hseen, hisDue⟩ := mem_due_iff.1 hdue
  rw [← hcontinues.record] at hregistered hseen
  have ht : t.Reachable := hoccurs.reachable hstart
  -- All that was told since the tick is what the history from the tick on has added.
  have htail : t.replay? (.step (.tick loop) :: after) = some s := by
    rw [replay?_cons, hoccurs.fires]
    exact hoccurs.replay? hreplay
  obtain ⟨new, hnew⟩ := journal_suffix_of_replay? htail
  refine ⟨record, hrecord, hrecorded, loop, t, t', after, seen, new, hoccurs,
    mem_tasks_iff.2 ⟨hregistered, hseen⟩, hisDue, hnew.symm, fun hquiet => ⟨fun other hother => ?_,
      fun henabled hnow => ?_⟩, fun hclock => ?_⟩
  · exact hs.isRecorded_of_quiet hnew.symm hquiet hother (hrecorded other hother)
  · refine ht.isDue_of_quiet htail hseen hisDue hrecord hnew.symm hquiet ?_ hnow
    simpa using henabled
  · exact now_le_of_not_setClock htail (by simpa using hclock)

/-- A task that is to run every second. -/
def everySecond : TaskSpec Unit := { TaskSpec.new "sync" () with schedule := some "@every 1s" }

/-- A task is registered, the scheduler started, and after two seconds a tick finds the task due. -/
def dueOnce : List (Event Unit) :=
  [.request (.register everySecond), .request .start, .step (.proceed 1), .step (.proceed 1),
    .step (.tick 2), .elapse (2 * Duration.second), .step (.tick 2)]

/-- The task runs for a second, comes due again in the midst, and finishes before the second
scheduled run is looked at. -/
def dueTwice : List (Event Unit) :=
  dueOnce ++ [.step (.begin 3), .elapse Duration.second, .step (.tick 2),
    .step (.endAttempt 3 (.completed "done"))]

/-- The run that is spawned by `dueOnce` passes the guard while its task is due. -/
theorem scheduled_run_was_due_once :
    ∃ start s s', create? Options.standard someMorning = some start ∧
      start.replay? dueOnce = some s ∧
      s.runs.get? 3 = some ⟨0, .schedule, .dispatched, .spawned⟩ ∧
      s.step? (.begin 3) = some s' ∧ HasPassed s'.journal 0 3 ∧
      ∃ record, s.records.get? 0 = some record ∧ record.isDue s.now = true ∧
        ∃ loop t t' after seen new, start.Occurs dueOnce (.step (.tick loop)) t t' after ∧
          (0, seen) ∈ t.tasks ∧ seen.isDue t.now = true ∧ s.journal = new ++ t.journal := by
  have hcreate : create? Options.standard someMorning =
      some (initial Options.standard someMorning : State Unit) := rfl
  obtain ⟨s, hs⟩ : ∃ s, (initial Options.standard someMorning).replay? dueOnce = some s :=
    Option.isSome_iff_exists.1 (by decide)
  have hlook : ((initial Options.standard someMorning).replay? dueOnce).map (fun s =>
      (s.runs.get? 3, (s.records.get? 0).map fun record => record.isDue s.now,
        (s.step? (.begin 3)).map fun s' => admittedOn s'.journal 0)) =
      some (some ⟨0, .schedule, .dispatched, .spawned⟩, some true, some [3]) := by decide
  rw [hs, Option.map_some, Option.some.injEq, Prod.mk.injEq, Prod.mk.injEq] at hlook
  obtain ⟨hrun, hisDue, hbegin⟩ := hlook
  obtain ⟨s', hstep, hadmitted⟩ := Option.map_eq_some_iff.1 hbegin
  have hpassed : HasPassed s'.journal 0 3 := mem_admittedOn_iff.1 (by rw [hadmitted]; simp)
  obtain ⟨record, hrecord, -, loop, t, t', after, seen, new, hoccurs, hmem, hseen, hnew, -⟩ :=
    scheduled_run_was_due hcreate hs hrun rfl hstep hpassed
  rw [hrecord, Option.map_some, Option.some.injEq] at hisDue
  exact ⟨_, s, s', hcreate, hs, hrun, hstep, hpassed, record, hrecord, hisDue, loop, t, t',
    after, seen, new, hoccurs, hmem, hseen, hnew⟩

/-- A scheduled run may pass the guard of a task that is not due: one that was running when the tick
found it due, and has been given a later next run since. -/
theorem not_forall_isDue_of_scheduled :
    ¬ ∀ s : State Unit, s.Reachable → ∀ id run record s', s.runs.get? id = some run →
      run.trigger = .schedule → s.records.get? run.record = some record →
      s.step? (.begin id) = some s' → HasPassed s'.journal run.record id →
      record.isDue s.now = true := by
  intro hall
  obtain ⟨s, hs⟩ : ∃ s, (initial Options.standard someMorning).replay? dueTwice = some s :=
    Option.isSome_iff_exists.1 (by decide +kernel)
  have hreachable : s.Reachable := ⟨Options.standard, someMorning, _, dueTwice, rfl, hs⟩
  have hlook : ((initial Options.standard someMorning).replay? dueTwice).map (fun s =>
      (s.runs.get? 4, (s.records.get? 0).map fun record => record.isDue s.now,
        (s.step? (.begin 4)).map fun s' => admittedOn s'.journal 0)) =
      some (some ⟨0, .schedule, .dispatched, .spawned⟩, some false, some [4, 3]) := by
        decide +kernel
  rw [hs, Option.map_some, Option.some.injEq, Prod.mk.injEq, Prod.mk.injEq] at hlook
  obtain ⟨hrun, hnot, hbegin⟩ := hlook
  obtain ⟨s', hstep, hadmitted⟩ := Option.map_eq_some_iff.1 hbegin
  obtain ⟨record, hrecord, hdue⟩ := Option.map_eq_some_iff.1 hnot
  have hpassed : HasPassed s'.journal 0 4 := mem_admittedOn_iff.1 (by rw [hadmitted]; simp)
  have htrue := hall s hreachable 4 _ record s' hrun rfl hrecord hstep hpassed
  rw [hdue] at htrue
  cases htrue

end State

end CronDaemon.Scheduler
