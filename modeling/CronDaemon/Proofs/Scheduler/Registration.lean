import CronDaemon.Proofs.Scheduler.Origins
import Mathlib.Data.List.Nodup

/-!
# Which record an id stands for

An id stands for the latest record that was registered under it, so that no record is registered
twice and a tick finds each task due once. Runs are spawned on registered records only: a run on a
record was there before any later record with the same id.
-/

namespace CronDaemon.Scheduler

open Job

namespace Frame

variable {H : Type} {f f' : Frame H} {event : Event H}

/-- Each id in the registry stands for the latest record with that id. -/
structure IsIndexed (f : Frame H) : Prop where
  lt : ∀ {number profile}, f.profiles number = some profile → number < f.nextId
  id_eq : ∀ {name number}, f.registry.get? name = some number →
    ∃ profile, f.profiles number = some profile ∧ profile.id = name
  latest : ∀ {name number other profile}, f.registry.get? name = some number →
    f.profiles other = some profile → profile.id = name → other ≤ number

/-- The registry stays in order as long as nothing is registered. -/
theorem IsIndexed.mono (hf : f.IsIndexed) (hnext : f.nextId ≤ f'.nextId)
    (hregistry : ∀ name number, f'.registry.get? name = some number →
      f.registry.get? name = some number)
    (hback : ∀ number profile', f'.profiles number = some profile' →
      ∃ profile, f.profiles number = some profile ∧ profile.id = profile'.id)
    (hforth : ∀ number profile, f.profiles number = some profile →
      ∃ profile', f'.profiles number = some profile' ∧ profile'.id = profile.id) :
        f'.IsIndexed where
  lt h := by
    obtain ⟨profile, hprofile, -⟩ := hback _ _ h
    exact Nat.lt_of_lt_of_le (hf.lt hprofile) hnext
  id_eq h := by
    obtain ⟨profile, hprofile, rfl⟩ := hf.id_eq (hregistry _ _ h)
    exact hforth _ profile hprofile
  latest h hother hid := by
    obtain ⟨profile, hprofile, he⟩ := hback _ _ hother
    exact hf.latest (hregistry _ _ h) hprofile (he.trans hid)

/-- A registration puts the fresh record under its id. -/
theorem IsIndexed.register (hf : f.IsIndexed) {spec : TaskSpec H} {clock : Except Fault Instant}
    {record : Record H} (h : Record.ofSpec f.options.zone clock spec = .ok record) :
    IsIndexed { f with
      registry := f.registry.insert spec.id f.nextId
      profiles := fun k => if f.nextId = k then some record.profile else f.profiles k
      nextId := f.nextId + 1 } := by
  have hid : record.id = spec.id := Record.id_ofSpec h
  have hlt : ∀ {number profile}, (if f.nextId = number then some record.profile
      else f.profiles number) = some profile → number < f.nextId + 1 := by
    intro number profile hprofile
    split at hprofile
    · omega
    · exact Nat.lt_succ_of_lt (hf.lt hprofile)
  refine ⟨hlt, fun {name number} hname => ?_,
    fun {name number other profile} hname hother hsame => ?_⟩
  · rw [Table.get?_insert] at hname
    split at hname
    · next he =>
      cases hname
      exact ⟨record.profile, if_pos rfl, hid.trans he⟩
    · obtain ⟨profile, hprofile, he⟩ := hf.id_eq hname
      exact ⟨profile, by simp [Nat.ne_of_gt (hf.lt hprofile), hprofile], he⟩
  · rw [Table.get?_insert] at hname
    split at hname
    · cases hname
      exact Nat.le_of_lt_succ (hlt hother)
    · next hne =>
      simp only at hother
      split at hother
      · cases hother
        exact absurd (hid.symm.trans hsame) hne
      · exact hf.latest hname hother hsame

theorem Change.isIndexed (h : f.Change event f') (hf : f.IsIndexed) : f'.IsIndexed := by
  cases h with
  | register h => exact hf.register h
  | remove name =>
    refine hf.mono (Nat.le_refl _) (fun other number hother => ?_)
      (fun _ profile h => ⟨profile, h, rfl⟩) fun _ profile h => ⟨profile, h, rfl⟩
    rw [Table.get?_erase] at hother
    split at hother
    · cases hother
    · exact hother
  | @setEnabled name number enabled =>
    refine hf.mono (Nat.le_refl _) (fun _ _ => id) (fun k profile' h => ?_) fun k profile h => ?_
    · dsimp only at h
      split at h
      · obtain ⟨profile, hprofile, rfl⟩ := Option.map_eq_some_iff.1 h
        exact ⟨profile, hprofile, rfl⟩
      · exact ⟨profile', h, rfl⟩
    · by_cases he : number = k
      · exact ⟨{ profile with enabled := enabled }, by simp [he, h], rfl⟩
      · exact ⟨profile, by simp [he, h], rfl⟩
  | keep nextId hnext | tick _ _ nextId _ _ hnext =>
    exact hf.mono hnext (fun _ _ => id) (fun _ profile h => ⟨profile, h, rfl⟩)
      fun _ profile h => ⟨profile, h, rfl⟩
  | openLoop =>
    exact hf.mono (Nat.le_succ _) (fun _ _ => id) (fun _ profile h => ⟨profile, h, rfl⟩)
      fun _ profile h => ⟨profile, h, rfl⟩
  | setClock | pass | refuse | breakLoop | leave | elapse =>
    exact hf.mono (Nat.le_refl _) (fun _ _ => id) (fun _ profile h => ⟨profile, h, rfl⟩)
      fun _ profile h => ⟨profile, h, rfl⟩

end Frame

namespace State

variable {H : Type} {start s s' : State H} {event : Event H} {events : List (Event H)}

theorem Reachable.isIndexed (hs : s.Reachable) : s.frame.IsIndexed :=
  hs.induction (fun _ _ => ⟨nofun, nofun, nofun⟩) fun _ _ _ hs h => h.change.isIndexed hs

/-- A registered record carries the id under which it is registered. -/
theorem Reachable.id_of_registry (hs : s.Reachable) {name : String} {number : Nat}
    (h : s.registry.get? name = some number) :
    ∃ record, s.records.get? number = some record ∧ record.id = name := by
  obtain ⟨profile, hprofile, hid⟩ := hs.isIndexed.id_eq h
  obtain ⟨record, hrecord, rfl⟩ := get?_of_profile hprofile
  exact ⟨record, hrecord, hid⟩

theorem Reachable.record_of_isRegistered (hs : s.Reachable) {number : Nat}
    (h : s.IsRegistered number) : ∃ record, s.records.get? number = some record := by
  obtain ⟨name, hname⟩ := h
  obtain ⟨record, hrecord, -⟩ := hs.id_of_registry hname
  exact ⟨record, hrecord⟩

/-- No record with the id of a registered record is later. -/
theorem Reachable.le_of_isRegistered (hs : s.Reachable) {number other : Nat}
    {record later : Record H}
    (h : s.IsRegistered number) (hrecord : s.records.get? number = some record)
    (hother : s.records.get? other = some later) (hid : later.id = record.id) : other ≤ number := by
  obtain ⟨name, hname⟩ := h
  obtain ⟨record', hrecord', rfl⟩ := hs.id_of_registry hname
  rw [hrecord] at hrecord'
  cases hrecord'
  exact hs.isIndexed.latest hname (profile_of_get? hother) hid

/-- No record is registered under two ids. -/
theorem Reachable.name_unique (hs : s.Reachable) {name other : String} {number : Nat}
    (h : s.registry.get? name = some number) (h' : s.registry.get? other = some number) :
    other = name := by
  obtain ⟨record, hrecord, hid⟩ := hs.id_of_registry h
  obtain ⟨record', hrecord', hid'⟩ := hs.id_of_registry h'
  rw [hrecord] at hrecord'
  cases hrecord'
  exact hid'.symm.trans hid

theorem Reachable.nodup_registry (hs : s.Reachable) : s.registry.values.Nodup := by
  refine List.Nodup.map_on ?_ (List.Nodup.of_map _ s.registry.nodup)
  rintro ⟨name, number⟩ ha ⟨other, number'⟩ hb rfl
  rw [hs.name_unique (Table.mem_entries_iff.1 ha) (Table.mem_entries_iff.1 hb)]

/-- No record is twice among the tasks. -/
theorem nodup_tasks (h : s.registry.values.Nodup) : (s.tasks.map (·.1)).Nodup := by
  rw [tasks, List.map_filterMap]
  refine h.filterMap fun a a' b ha ha' => ?_
  rw [Option.map_map] at ha ha'
  obtain ⟨record, -, rfl⟩ := Option.map_eq_some_iff.1 ha
  obtain ⟨record', -, he⟩ := Option.map_eq_some_iff.1 ha'
  exact he.symm

/-- A record that is new after an event was made by a registration. -/
theorem Transition.record_cases (h : s.Transition event s') (hs : s.Reachable) {number : Nat}
    {record' : Record H} (hrecord' : s'.records.get? number = some record') :
    (∃ record, s.records.get? number = some record ∧ record'.id = record.id) ∨
      number = s.nextId ∧ ∃ spec, event = .request (.register spec) := by
  cases hold : s.records.get? number with
  | none =>
    obtain ⟨spec, -, -, he, hnumber, -⟩ :=
      h.change.profile_new (profile_of_get? hrecord') (by simp [frame, profilesOf, hold])
    exact .inr ⟨hnumber, spec, he⟩
  | some record =>
    obtain ⟨record'', hrecord'', hid⟩ := h.record_stays hs hold
    rw [hrecord'] at hrecord''
    cases hrecord''
    exact .inl ⟨record, rfl, hid⟩

/-- A run on a record was there before any later record with the same id. -/
theorem Reachable.run_lt_of_later (hs : s.Reachable) {k other : Nat} {run : Run}
    {record later : Record H}
    (hrun : s.runs.get? k = some run) (hrecord : s.records.get? run.record = some record)
    (hother : s.records.get? other = some later) (hid : later.id = record.id)
    (hlater : run.record < other) : k < other := by
  refine hs.step_induction (motive := fun s => ∀ run record later, s.runs.get? k = some run →
    s.records.get? run.record = some record → s.records.get? other = some later →
    later.id = record.id → run.record < other → k < other)
    (fun _ _ _ _ _ hrun => by cases hrun) ?_ run record later hrun hrecord hother hid hlater
  intro s event s' hs h ih run' record' later' hrun' hrecord' hother' hid hlater
  rcases h.run_cases hs hrun' with ⟨run, hrun, hcontinues⟩ | ⟨-, hspawns⟩
  · rw [hcontinues.record] at hrecord' hlater
    obtain ⟨record, hrecord⟩ := hs.record_of_run hrun
    rcases h.record_cases hs hrecord' with ⟨record₀, hrecord₀, hsame⟩ | ⟨hnew, -⟩
    · rcases h.record_cases hs hother' with ⟨later, hother, hsame'⟩ | ⟨rfl, -⟩
      · exact ih run record₀ later hrun hrecord₀ hother (hsame'.symm.trans (hid.trans hsame)) hlater
      · exact hs.run_lt hrun
    · exact absurd (hs.record_lt hrecord) (by omega)
  · have hrest : ∀ {number record'}, s'.records.get? number = some record' →
        ∃ record, s.records.get? number = some record ∧ record'.id = record.id := by
      intro number record' hrecord'
      rcases h.record_cases hs hrecord' with hold | ⟨-, spec, he⟩
      · exact hold
      · exact absurd he (hspawns.not_register spec)
    obtain ⟨record, hrecord, hsame⟩ := hrest hrecord'
    obtain ⟨later, hother, hsame'⟩ := hrest hother'
    have hle := hs.le_of_isRegistered hspawns.registered hrecord hother
      (hsame'.symm.trans (hid.trans hsame))
    exact absurd hlater (Nat.not_lt.2 hle)

end State

end CronDaemon.Scheduler
