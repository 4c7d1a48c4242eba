import CronDaemon.Proofs.Scheduler.OverlapGuard
import CronDaemon.Proofs.Scheduler.Registration

/-!
# The guard and the ids of tasks

The guard against overlapping runs belongs to a record. An id that is registered anew while a run of
it is in flight gets a fresh record with a guard of its own, and then two runs of the id may be in
progress at once. That is the only way: as long as no registration of an id finds a run of it in
flight, at most one run of the id is in progress.
-/

namespace CronDaemon.Scheduler

open Job

namespace State

variable {H : Type} {start s : State H} {events : List (Event H)}

/-- The run is in progress on a record with this id. -/
def IsAtWork (s : State H) (name : String) (id : Nat) : Prop :=
  ∃ number record, s.records.get? number = some record ∧ record.id = name ∧ s.InProgress number id

/-- The run was spawned on a record with this id, and has neither ended nor broken off. -/
def IsInFlight (s : State H) (name : String) (id : Nat) : Prop :=
  ∃ run record, s.runs.get? id = some run ∧ run.phase ≠ .stranded ∧
    s.records.get? run.record = some record ∧ record.id = name

/-- The handler of a task with this id executes for the run. -/
def IsExecuting (s : State H) (name : String) (id : Nat) : Prop :=
  ∃ run record token deadline attempt, s.runs.get? id = some run ∧
    run.phase = .executing token deadline attempt ∧ s.records.get? run.record = some record ∧
    record.id = name

/-- No two runs are in progress on one record. -/
theorem Reachable.inProgress_unique (hs : s.Reachable) {number a b : Nat}
    (ha : s.InProgress number a) (hb : s.InProgress number b) : a = b :=
  hs.isOutstanding_unique (hs.isOutstanding_iff.2 (.inl ha)) (hs.isOutstanding_iff.2 (.inl hb))

/-- A run that is in progress when its id has a later record was in flight when that record was
made. -/
theorem isInFlight_at_registration (hstart : start.Reachable)
    (hnone : ∀ number, start.records.get? number = none) (hreplay : start.replay? events = some s)
    {early late id : Nat} {record later : Record H} (hrecord : s.records.get? early = some record)
    (hother : s.records.get? late = some later) (hid : later.id = record.id) (hlt : early < late)
    (hprogress : s.InProgress early id) :
    ∃ spec t t' after, start.Occurs events (.request (.register spec)) t t' after ∧
      t.register spec = .ok t' ∧ spec.id = record.id ∧ t.IsInFlight record.id id := by
  obtain ⟨run, hrun, rfl, hactive⟩ := hprogress
  have hs : s.Reachable := hstart.replay? hreplay
  obtain ⟨spec, t, t', after, hoccurs, hregister, rfl⟩ := exists_registration hnone hreplay hother
  obtain ⟨fresh, hfresh, hrecords, -⟩ := exists_fresh_of_register hregister
  have ht : t.Reachable := hoccurs.reachable hstart
  have htail : t.replay? (.request (.register spec) :: after) = some s := by
    rw [replay?_cons, hoccurs.fires]
    exact hoccurs.replay? hreplay
  -- The later record keeps the id with which it was made.
  have hspec : spec.id = record.id := by
    have hget : t'.records.get? t.nextId = some fresh := by simp [hrecords]
    obtain ⟨later', hlater', he⟩ := (ht.fire? hoccurs.fires).id_eq (hoccurs.replay? hreplay) hget
    rw [hother] at hlater'
    cases hlater'
    rw [← Record.id_ofSpec hfresh, ← he, hid]
  -- The run is older than the later record, so that it was there already.
  have hid_lt : id < t.nextId := hs.run_lt_of_later hrun hrecord hother hid hlt
  obtain ⟨run₀, hrun₀, hcontinues⟩ := (replay?_moves htail).run_continues hid_lt hrun
  obtain ⟨record₀, hrecord₀⟩ := ht.record_of_run hrun₀
  obtain ⟨record', hrecord', he⟩ := ht.id_eq htail hrecord₀
  rw [← hcontinues.record, hrecord] at hrecord'
  cases hrecord'
  refine ⟨spec, t, t', after, hoccurs, hregister, hspec, run₀, record₀, hrun₀, fun hstranded => ?_,
    hrecord₀, he.symm⟩
  rw [hcontinues.stranded hstranded] at hactive
  cases hactive

/-- At most one run is in progress on each record. Two runs of one id are in progress at once only
where the id was registered anew while one of them was in flight; as long as no registration of the
id finds a run of it in flight, at most one run of the id is in progress. -/
theorem registered_anew_of_two_at_work {options : Options} {now : Instant}
    (hcreate : create? options now = some start) (hreplay : start.replay? events = some s)
    (name : String) :
    (∀ number a b, s.InProgress number a → s.InProgress number b → a = b) ∧
    (∀ a b, s.IsAtWork name a → s.IsAtWork name b → a ≠ b →
      ∃ spec t t' after, start.Occurs events (.request (.register spec)) t t' after ∧
        t.register spec = .ok t' ∧ spec.id = name ∧ (t.IsInFlight name a ∨ t.IsInFlight name b)) ∧
    ((∀ spec t t' after, start.Occurs events (.request (.register spec)) t t' after →
        t.register spec = .ok t' → spec.id = name → ∀ id, ¬ t.IsInFlight name id) →
      ∀ a b, s.IsAtWork name a → s.IsAtWork name b → a = b) := by
  have hstart : start.Reachable := .of_create? hcreate
  have hs : s.Reachable := hstart.replay? hreplay
  have hnone : ∀ number, start.records.get? number = none :=
    eq_initial_of_create? hcreate ▸ fun _ => rfl
  have htwo : ∀ a b, s.IsAtWork name a → s.IsAtWork name b → a ≠ b →
      ∃ spec t t' after, start.Occurs events (.request (.register spec)) t t' after ∧
        t.register spec = .ok t' ∧ spec.id = name ∧
          (t.IsInFlight name a ∨ t.IsInFlight name b) := by
    rintro a b ⟨m, first, hfirst, rfl, ha⟩ ⟨n, second, hsecond, hid, hb⟩ hne
    -- Records are numbered in the order of registration: the later record came while the run on the
    -- earlier one was in flight.
    rcases Nat.lt_trichotomy m n with hlt | rfl | hlt
    · obtain ⟨spec, t, t', after, hoccurs, hregister, hspec, hflight⟩ :=
        isInFlight_at_registration hstart hnone hreplay hfirst hsecond hid hlt ha
      exact ⟨spec, t, t', after, hoccurs, hregister, hspec, .inl hflight⟩
    · exact absurd (hs.inProgress_unique ha hb) hne
    · obtain ⟨spec, t, t', after, hoccurs, hregister, hspec, hflight⟩ :=
        isInFlight_at_registration hstart hnone hreplay hsecond hfirst hid.symm hlt hb
      rw [hid] at hspec hflight
      exact ⟨spec, t, t', after, hoccurs, hregister, hspec, .inr hflight⟩
  refine ⟨fun number a b => hs.inProgress_unique, htwo, fun hcalm a b ha hb => ?_⟩
  refine Decidable.byContradiction fun hne => ?_
  obtain ⟨spec, t, t', after, hoccurs, hregister, hspec, hflight | hflight⟩ := htwo a b ha hb hne
  · exact hcalm spec t t' after hoccurs hregister hspec a hflight
  · exact hcalm spec t t' after hoccurs hregister hspec b hflight

/-- A task is run, registered anew while the run executes, and run again. -/
def registeredAnew : List (Event Unit) :=
  [.request (.register (.new "backup" ())), .request (.runNow true "backup"), .step (.begin 1),
    .request (.register (.new "backup" ())), .request (.runNow true "backup"), .step (.begin 3)]

/-- After `registeredAnew` the handler of the task executes twice. -/
theorem exists_registeredAnew :
    ∃ s, (initial Options.standard someMorning).replay? registeredAnew = some s ∧
      s.IsExecuting "backup" 1 ∧ s.IsExecuting "backup" 3 := by
  obtain ⟨s, hs⟩ : ∃ s, (initial Options.standard someMorning).replay? registeredAnew = some s :=
    Option.isSome_iff_exists.1 (by decide)
  have hrun : ∀ id < 4, id % 2 = 1 →
      ((initial Options.standard someMorning).replay? registeredAnew).bind
      (fun s => s.runs.get? id) = some ⟨id - 1, .manual, .dispatched,
        .executing ⟨0, false⟩ (300 * Duration.second) 0⟩ := by decide
  have hrecord : ∀ number < 3, number % 2 = 0 →
      ((initial Options.standard someMorning).replay? registeredAnew).bind
        (fun s => (s.records.get? number).map (·.id)) = some "backup" := by decide
  rw [hs] at hrun hrecord
  have hexecutes : ∀ id < 4, id % 2 = 1 → s.IsExecuting "backup" id := by
    intro id hlt hodd
    obtain ⟨record, hget, hid⟩ := Option.map_eq_some_iff.1 (hrecord (id - 1) (by omega) (by omega))
    exact ⟨_, record, _, _, _, hrun id hlt hodd, rfl, hget, hid⟩
  exact ⟨s, hs, hexecutes 1 (by decide) (by decide), hexecutes 3 (by decide) (by decide)⟩

theorem IsExecuting.isAtWork {name : String} {id : Nat} (h : s.IsExecuting name id) :
    s.IsAtWork name id := by
  obtain ⟨run, record, token, deadline, attempt, hrun, hphase, hrecord, hid⟩ := h
  exact ⟨run.record, record, hrecord, hid, run, hrun, rfl, by rw [hphase]; rfl⟩

/-- Of the two runs at work after `registeredAnew` one was in flight when the task was registered
anew. -/
theorem registered_anew_of_two_at_work_after_registeredAnew :
    ∃ start s, create? Options.standard someMorning = some start ∧
      start.replay? registeredAnew = some s ∧ s.IsAtWork "backup" 1 ∧ s.IsAtWork "backup" 3 ∧
      ∃ spec t t' after, start.Occurs registeredAnew (.request (.register spec)) t t' after ∧
        t.register spec = .ok t' ∧ spec.id = "backup" ∧
        (t.IsInFlight "backup" 1 ∨ t.IsInFlight "backup" 3) := by
  have hcreate : create? Options.standard someMorning =
      some (initial Options.standard someMorning : State Unit) := rfl
  obtain ⟨s, hs, hfirst, hsecond⟩ := exists_registeredAnew
  obtain ⟨-, htwo, -⟩ := registered_anew_of_two_at_work hcreate hs "backup"
  exact ⟨_, s, hcreate, hs, hfirst.isAtWork, hsecond.isAtWork,
    htwo 1 3 hfirst.isAtWork hsecond.isAtWork (by decide)⟩

/-- The handlers of two runs of one id may execute at once. -/
theorem not_forall_isExecuting_unique :
    ¬ ∀ s : State Unit, s.Reachable → ∀ name a b, s.IsExecuting name a → s.IsExecuting name b →
      a = b := by
  intro hall
  obtain ⟨s, hs, hfirst, hsecond⟩ := exists_registeredAnew
  have hreachable : s.Reachable := ⟨Options.standard, someMorning, _, registeredAnew, rfl, hs⟩
  exact absurd (hall s hreachable "backup" 1 3 hfirst hsecond) (by decide)

end State

end CronDaemon.Scheduler
