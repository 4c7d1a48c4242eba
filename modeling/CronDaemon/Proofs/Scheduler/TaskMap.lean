import CronDaemon.Proofs.Scheduler.Bystanders
import CronDaemon.Proofs.Scheduler.OverlapGuard
import CronDaemon.Proofs.Scheduler.Registration

/-!
# The map of registered tasks

The registry is a finite map from ids to records. A registration puts a fresh record under its id, a
removal takes an id out, and nothing else binds an id: what an id stands for was decided by the last
of the two, and every view of the tasks tells just this map. A run keeps to the record on which it
was started, so that once that record is replaced or removed the run changes no registered one and
never brings an id back.
-/

namespace CronDaemon.Scheduler

open Job

/-- The record is as a registration makes it: it says of the task what the specification says, no
run was recorded yet, and the next one is computed from what the clock reads. -/
structure Record.IsFresh {H : Type} (record : Record H) (zone : Zone) (clock : Except Fault Instant)
    (spec : TaskSpec H) : Prop where
  id : record.id = spec.id
  name : record.name = spec.name
  description : record.description = spec.description
  expression : record.expression = expression? spec
  schedule : (expression? spec).mapM Cron.Schedule.parse = .ok record.schedule
  skippable : record.skippable = spec.skippable
  retry : record.retry = spec.retry
  handler : spec.handler = some record.handler
  enabled : record.enabled = spec.enabled
  status : record.status = .pending
  lastRun : record.lastRun = spec.lastRun
  nextRun : Scheduler.nextRun zone record.schedule clock = .ok record.nextRun
  lastError : record.lastError = none
  runCount : record.runCount = 0
  failureCount : record.failureCount = 0
  consecutiveFailures : record.consecutiveFailures = 0
  calls : record.calls = 0

theorem Record.isFresh_of_ofSpec {H : Type} {zone : Zone} {clock : Except Fault Instant}
    {spec : TaskSpec H} {record : Record H} (h : Record.ofSpec zone clock spec = .ok record) :
    record.IsFresh zone clock spec := by
  unfold Record.ofSpec at h
  split at h
  · cases h
  split at h
  · cases h
  next handler hhandler =>
  split at h
  · cases h
  next schedule hschedule =>
  split at h
  · cases h
  next next hnext =>
  cases h
  exact ⟨rfl, rfl, rfl, rfl, hschedule, rfl, rfl, hhandler, rfl, rfl, rfl, hnext, rfl, rfl, rfl,
    rfl, rfl⟩

/-- Only a registration and a removal change the registry. -/
theorem Frame.Change.registry_cases {H : Type} {f f' : Frame H} {event : Event H}
    (h : f.Change event f') : (∃ spec, event = .request (.register spec)) ∨
      (∃ name, event = .request (.remove name)) ∨ f'.registry = f.registry := by
  cases h with
  | register => exact .inl ⟨_, rfl⟩
  | remove name => exact .inr (.inl ⟨name, rfl⟩)
  | keep | setEnabled | setClock | pass | refuse | tick | breakLoop | leave | openLoop | elapse =>
    exact .inr (.inr rfl)

namespace State

variable {H : Type} {start s s' t u u' : State H} {event : Event H} {events after : List (Event H)}
  {name other : String} {number id : Nat} {record : Record H} {run : Run} {spec : TaskSpec H}

/-- What an id stands for stays as long as its binding and the record to which it is bound do. -/
theorem task?_congr (hregistry : s'.registry.get? name = s.registry.get? name)
    (hrecords : ∀ number, s.registry.get? name = some number →
      s'.records.get? number = s.records.get? number) : s'.task? name = s.task? name := by
  cases hname : s.registry.get? name with
  | none => rw [task?_eq_none hname, task?_eq_none (hregistry.trans hname)]
  | some number =>
    simp only [task?, hregistry, hname, Option.bind_eq_bind, Option.bind_some,
      hrecords number hname]

/-- Each registered id stands for a record that carries it. -/
theorem Reachable.exists_task (hs : s.Reachable) (h : s.registry.get? name = some number) :
    ∃ record, s.task? name = some (number, record) ∧ record.id = name := by
  obtain ⟨record, hrecord, hid⟩ := hs.id_of_registry h
  exact ⟨record, task?_eq_some_iff.2 ⟨h, hrecord⟩, hid⟩

/-- The event decides what an id stands for: a registration or a removal that succeeds. -/
inductive Rebinds (s : State H) (name : String) : Event H → Prop
  | register {spec : TaskSpec H} {s' : State H} (h : s.register spec = .ok s')
      (hid : spec.id = name) : Rebinds s name (.request (.register spec))
  | remove {s' : State H} (h : s.remove name = .ok s') : Rebinds s name (.request (.remove name))

/-- What an event does to the registry. -/
theorem Transition.registry_cases (h : s.Transition event s') :
    (∃ spec, event = .request (.register spec) ∧ s.register spec = .ok s') ∨
      (∃ name, event = .request (.remove name) ∧ s.remove name = .ok s') ∨
        s'.registry = s.registry := by
  rcases h.change.registry_cases with ⟨spec, rfl⟩ | ⟨name, rfl⟩ | hsame
  · cases h with
    | refuse => exact .inr (.inr rfl)
    | register h =>
      refine .inl ⟨spec, rfl, ?_⟩
      simp only [State.register, h]
  · cases h with
    | refuse => exact .inr (.inr rfl)
    | remove h =>
      refine .inr (.inl ⟨name, rfl, ?_⟩)
      simp only [State.remove, h]
  · exact .inr (.inr hsame)

/-- A registration binds its id to the next number, and no other id. -/
theorem registry_of_register (h : s.register spec = .ok s') :
    s'.registry = s.registry.insert spec.id s.nextId := by
  obtain ⟨fresh, -, rfl⟩ := eq_of_register h
  rfl

/-- A removal takes out a registered id, and no other, and leaves everything else. -/
theorem eq_of_remove (h : s.remove name = .ok s') : ∃ number, s.registry.get? name = some number ∧
    s' = { s with registry := s.registry.erase name } := by
  unfold State.remove at h
  split at h
  · cases h
  · next number hnumber =>
    cases h
    exact ⟨number, hnumber, rfl⟩

/-- An event that does not decide what an id stands for leaves its binding. -/
theorem Transition.get?_registry (h : s.Transition event s') (hnot : ¬ s.Rebinds name event) :
    s'.registry.get? name = s.registry.get? name := by
  rcases h.registry_cases with ⟨spec, rfl, hregister⟩ | ⟨removed, rfl, hremove⟩ | hsame
  · have hne : spec.id ≠ name := fun he => hnot (.register hregister he)
    rw [registry_of_register hregister, Table.get?_insert, if_neg hne]
  · obtain ⟨number, -, rfl⟩ := eq_of_remove hremove
    have hne : removed ≠ name := by
      rintro rfl
      exact hnot (.remove hremove)
    rw [Table.get?_erase, if_neg hne]
  · rw [hsame]

/-- What a successful registration does: its id stands for a fresh record in place of an earlier
one, and all other records and what other ids stand for are left. -/
structure Enrolls (s : State H) (spec : TaskSpec H) (record : Record H) (s' : State H) : Prop where
  fresh : record.IsFresh s.options.zone s.reading spec
  unused : s.records.get? s.nextId = none
  bound : s'.task? spec.id = some (s.nextId, record)
  replaced : ∀ number, s.registry.get? spec.id = some number → ¬ s'.IsRegistered number
  others : ∀ name, name ≠ spec.id → s'.task? name = s.task? name
  records : ∀ number, number ≠ s.nextId → s'.records.get? number = s.records.get? number
  runs : s'.runs = s.runs

theorem Reachable.exists_enrolls (hs : s.Reachable) (h : s.register spec = .ok s') :
    ∃ record, s.Enrolls spec record s' := by
  obtain ⟨record, hfresh, rfl⟩ := eq_of_register h
  have hunused : s.records.get? s.nextId = none := by
    cases hnext : s.records.get? s.nextId with
    | none => rfl
    | some old => exact absurd (hs.record_lt hnext) (Nat.lt_irrefl _)
  have hlt : ∀ {name number}, s.registry.get? name = some number → number < s.nextId := by
    intro name number hname
    obtain ⟨old, hold, -⟩ := hs.id_of_registry hname
    exact hs.record_lt hold
  have hbound : (s.registry.insert spec.id s.nextId).get? spec.id = some s.nextId := by
    rw [Table.get?_insert, if_pos rfl]
  have hbinding : ∀ name, name ≠ spec.id →
      (s.registry.insert spec.id s.nextId).get? name = s.registry.get? name := by
    intro name hne
    rw [Table.get?_insert, if_neg (Ne.symm hne)]
  have hmade : (s.records.insert s.nextId record).get? s.nextId = some record := by
    rw [Table.get?_insert, if_pos rfl]
  have hkept : ∀ number, number ≠ s.nextId →
      (s.records.insert s.nextId record).get? number = s.records.get? number := by
    intro number hne
    rw [Table.get?_insert, if_neg (Ne.symm hne)]
  refine ⟨record, Record.isFresh_of_ofSpec hfresh, hunused, task?_eq_some_iff.2 ⟨hbound, hmade⟩, ?_,
    fun name hne => task?_congr (hbinding name hne) fun number hname =>
      hkept number (Nat.ne_of_lt (hlt hname)), hkept, rfl⟩
  rintro number hold ⟨name, hname⟩
  by_cases he : name = spec.id
  · subst he
    have hsame := hbound.symm.trans hname
    cases hsame
    exact Nat.lt_irrefl _ (hlt hold)
  · exact he (hs.name_unique hold ((hbinding name he).symm.trans hname))

/-- What a successful removal does: its id stands for nothing any more, and all records and what
other ids stand for are left. -/
structure Drops (s : State H) (name : String) (s' : State H) : Prop where
  bound : ∃ task, s.task? name = some task
  gone : s'.task? name = none
  dropped : ∀ number, s.registry.get? name = some number → ¬ s'.IsRegistered number
  others : ∀ other, other ≠ name → s'.task? other = s.task? other
  records : s'.records = s.records
  runs : s'.runs = s.runs

theorem Reachable.drops (hs : s.Reachable) (h : s.remove name = .ok s') : s.Drops name s' := by
  obtain ⟨number, hnumber, rfl⟩ := eq_of_remove h
  obtain ⟨record, htask, -⟩ := hs.exists_task hnumber
  refine ⟨⟨_, htask⟩, task?_eq_none ?_, ?_, fun other hne => task?_congr ?_ fun _ _ => rfl,
    rfl, rfl⟩
  · rw [Table.get?_erase, if_pos rfl]
  · rintro number hold ⟨other, hother⟩
    rw [Table.get?_erase] at hother
    split at hother
    · cases hother
    · next hne => exact hne (hs.name_unique hold hother).symm
  · rw [Table.get?_erase, if_neg (Ne.symm hne)]

/-- Each view tells the registered tasks, each id once. -/
structure ShowsMap (s : State H) : Prop where
  get? : ∀ name, s.get? name = (s.task? name).map fun task => task.2.snapshot
  id : ∀ name number record, s.task? name = some (number, record) → record.id = name
  mem_taskIds_iff : ∀ name, name ∈ s.taskIds ↔ ∃ task, s.task? name = some task
  nodup : s.taskIds.Nodup
  list : s.list.map some = s.taskIds.map s.get?
  listIds : s.list.map (·.id) = s.taskIds
  status : s.status.tasks = s.list

/-- The list shows for each id what is shown for it alone, in the order of the ids. -/
theorem map_some_list (h : ∀ e ∈ s.registry.entries, ∃ record, s.task? e.1 = some (e.2, record)) :
    s.list.map some = s.taskIds.map s.get? := by
  have key : ∀ es : List (String × Nat), (∀ e ∈ es, ∃ record, s.task? e.1 = some (e.2, record)) →
      ((es.map (·.2)).filterMap fun number =>
        (s.records.get? number).map fun record => (number, record)).map
          (fun task => some task.2.snapshot) = es.map fun e => s.get? e.1 := by
    intro es
    induction es with
    | nil => exact fun _ => rfl
    | cons e es ih =>
      intro h
      obtain ⟨record, htask⟩ := h e List.mem_cons_self
      have hrecord := (task?_eq_some_iff.1 htask).2
      have hget : s.get? e.1 = some record.snapshot := by rw [State.get?, htask, Option.map_some]
      simp only [List.map_cons, List.filterMap_cons, hrecord, Option.map_some, hget,
        ih fun e' he' => h e' (List.mem_cons_of_mem e he')]
  rw [list, taskIds, Table.keys, List.map_map, List.map_map]
  exact key s.registry.entries h

theorem Reachable.showsMap (hs : s.Reachable) : s.ShowsMap := by
  have hid : ∀ name number record, s.task? name = some (number, record) → record.id = name := by
    intro name number record htask
    obtain ⟨record', htask', hid⟩ := hs.exists_task (task?_eq_some_iff.1 htask).1
    rw [htask] at htask'
    cases htask'
    exact hid
  have hmem : ∀ name, name ∈ s.taskIds ↔ ∃ task, s.task? name = some task := by
    intro name
    rw [taskIds, Table.mem_keys_iff]
    constructor
    · rintro ⟨number, hname⟩
      obtain ⟨record, htask, -⟩ := hs.exists_task hname
      exact ⟨_, htask⟩
    · rintro ⟨⟨number, record⟩, htask⟩
      exact ⟨number, (task?_eq_some_iff.1 htask).1⟩
  have hlist : s.list.map some = s.taskIds.map s.get? := by
    refine map_some_list fun e he => ?_
    obtain ⟨record, htask, -⟩ :=
      hs.exists_task (Table.mem_entries_iff.1 (show (e.1, e.2) ∈ _ from he))
    exact ⟨record, htask⟩
  refine ⟨fun _ => rfl, hid, hmem, s.registry.nodup, hlist, ?_, rfl⟩
  refine (List.map_inj_right fun _ _ => Option.some.inj).1 ?_
  calc (s.list.map (·.id)).map some
      = (s.list.map some).map (Option.map (·.id)) := by
        simp only [List.map_map, Function.comp_def, Option.map_some]
    _ = s.taskIds.map fun name => (s.get? name).map (·.id) := by rw [hlist, List.map_map]; rfl
    _ = s.taskIds.map some := List.map_congr_left fun name hname => by
        obtain ⟨⟨number, record⟩, htask⟩ := (hmem name).1 hname
        rw [State.get?, htask]
        exact congrArg some (hid name number record htask)

/-- Of the registrations and removals of the id that succeeded in the history, the last one was a
registration, and it took this number. -/
def LastBinds (start : State H) (events : List (Event H)) (name : String) (number : Nat) : Prop :=
  ∃ spec t t' after, start.Occurs events (.request (.register spec)) t t' after ∧
    t.register spec = .ok t' ∧ spec.id = name ∧ t.nextId = number ∧
    ∀ event u u' rest, t'.Occurs after event u u' rest → ¬ u.Rebinds name event

/-- The binding of an id stays until the id is registered or removed. -/
theorem get?_registry_of_not_rebinds (h : t.replay? after = some s)
    (hnot : ∀ event u u' rest, t.Occurs after event u u' rest → ¬ u.Rebinds name event) :
    s.registry.get? name = t.registry.get? name := by
  refine history_induction (motive := fun after s =>
    (∀ event u u' rest, t.Occurs after event u u' rest → ¬ u.Rebinds name event) →
      s.registry.get? name = t.registry.get? name) (fun _ => rfl) ?_ h hnot
  intro before event u u' hu hfire ih hnot
  have hlast : ¬ u.Rebinds name event := hnot event u u' [] (.last hu hfire)
  rw [(transition_of_fire? hfire).get?_registry hlast]
  exact ih fun event' v v' rest hoccurs => hnot event' v v' _ (hoccurs.snoc event)

/-- An id stands for the record of its last registration, unless it was removed since. -/
theorem get?_registry_iff_lastBinds (hnone : ∀ name, start.registry.get? name = none)
    (h : start.replay? events = some s) :
    s.registry.get? name = some number ↔ start.LastBinds events name number := by
  constructor
  · refine history_induction (motive := fun events s => s.registry.get? name = some number →
      start.LastBinds events name number) (fun hname => ?_) ?_ h
    · rw [hnone] at hname
      cases hname
    · intro before event t t' ht hfire ih hname
      have htransition := transition_of_fire? hfire
      -- What the id stands for is settled by the last event about it; other events leave it alone.
      by_cases hrebinds : t.Rebinds name event
      · cases hrebinds with
        | @register spec next hregister hid =>
          have hnext : next = t' := by
            simpa [State.fire?, State.serve, hregister] using hfire
          subst hnext
          rw [registry_of_register hregister, hid, Table.get?_insert, if_pos rfl] at hname
          exact ⟨spec, t, next, [], .last ht hfire, hregister, hid, Option.some.inj hname,
            fun _ _ _ _ hoccurs => absurd hoccurs not_occurs_nil⟩
        | @remove next hremove =>
          have hnext : next = t' := by
            simpa [State.fire?, State.serve, hremove] using hfire
          obtain ⟨-, -, rfl⟩ := eq_of_remove hremove
          rw [← hnext, Table.get?_erase, if_pos rfl] at hname
          cases hname
      · rw [htransition.get?_registry hrebinds] at hname
        obtain ⟨spec, u, u', after, hoccurs, hregister, hid, hnumber, hnot⟩ := ih hname
        refine ⟨spec, u, u', after ++ [event], hoccurs.snoc event, hregister, hid, hnumber, ?_⟩
        intro event' v v' rest hlater
        rcases hlater.snoc_cases (hoccurs.replay? ht) hfire with ⟨rest', hearlier⟩ | ⟨rfl, rfl, -⟩
        · exact hnot event' v v' rest' hearlier
        · exact hrebinds
  · rintro ⟨spec, t, t', after, hoccurs, hregister, rfl, rfl, hnot⟩
    rw [get?_registry_of_not_rebinds (hoccurs.replay? h) hnot, registry_of_register hregister,
      Table.get?_insert, if_pos rfl]

/-- An event registers no record that there was before. -/
theorem Transition.isRegistered (h : s.Transition event s') (hlt : number < s.nextId)
    (hregistered : s'.IsRegistered number) : s.IsRegistered number := by
  obtain ⟨name, hname⟩ := hregistered
  rcases h.registry_cases with ⟨spec, -, hregister⟩ | ⟨removed, -, hremove⟩ | hsame
  · rw [registry_of_register hregister, Table.get?_insert] at hname
    split at hname
    · cases hname
      exact absurd hlt (Nat.lt_irrefl _)
    · exact ⟨name, hname⟩
  · obtain ⟨-, -, rfl⟩ := eq_of_remove hremove
    rw [Table.get?_erase] at hname
    split at hname
    · cases hname
    · exact ⟨name, hname⟩
  · exact ⟨name, hsame ▸ hname⟩

/-- A record that is not registered any more stays so. -/
theorem not_isRegistered_of_replay? (hlt : number < s.nextId) (hnot : ¬ s.IsRegistered number)
    (h : s.replay? after = some u) : ¬ u.IsRegistered number := by
  refine history_induction (motive := fun _ u => ¬ u.IsRegistered number) hnot ?_ h
  intro before event t t' ht hfire ih hregistered
  have hle : s.nextId ≤ t.nextId := Ledger.Moves.nextId_le (replay?_moves ht)
  exact ih ((transition_of_fire? hfire).isRegistered (Nat.lt_of_lt_of_le hlt hle) hregistered)

/-- What an event goes on with is a run. -/
theorem Transition.exists_run (h : s.Transition event s') (hevent : event.run? = some id) :
    ∃ run, s.runs.get? id = some run := by
  cases h with
  | begin hrun | cancel hrun | acquire hrun | endAttempt _ hrun | retry hrun | giveUp hrun
  | revokeExecuting hrun | revokeResting hrun =>
    cases hevent
    exact ⟨_, hrun⟩
  | refuse | register | remove | setEnabled | runNow | trigger | start | stop | setClock | tick
  | leave | answer | enterStart | openLoop | enterStop | drain | endStop | hangUp | elapse =>
    cases hevent

/-- A run on a record that is not registered changes nothing that an id stands for. -/
theorem Transition.task?_of_not_isRegistered (h : s.Transition event s') (hs : s.Reachable)
    (hevent : event.run? = some id) (hrun : s.runs.get? id = some run)
    (hnot : ¬ s.IsRegistered run.record) :
    s'.registry = s.registry ∧ ∀ name, s'.task? name = s.task? name := by
  have hregistry : s'.registry = s.registry := by
    rcases h.change.registry_cases with ⟨spec, rfl⟩ | ⟨name, rfl⟩ | hsame
    · cases hevent
    · cases hevent
    · exact hsame
  refine ⟨hregistry, fun name => task?_congr (by rw [hregistry]) fun number hname => ?_⟩
  obtain ⟨record, hrecord, -⟩ := hs.id_of_registry hname
  refine h.record_of_not_touches (hs.record_lt hrecord) fun htouches => ?_
  cases htouches with
  | run hevent' hrun' _ he =>
    rw [hevent] at hevent'
    cases hevent'
    rw [hrun] at hrun'
    cases hrun'
    exact hnot (he ▸ ⟨name, hname⟩)
  | enabled | start => cases hevent

/-- The registry is a finite map from ids to records, and every view tells it with each id once. It
follows the history: a registration that succeeds puts a fresh record under its id, in place of
whatever stood there and touching no other record; a removal that succeeds takes its id out; no
other event binds an id or frees it. A run on a record that was replaced or removed goes on without
changing what any id stands for, and its record never comes back. -/
theorem taskMap_of_replay? {options : Options} {now : Instant}
    (hcreate : create? options now = some start) (hreplay : start.replay? events = some s) :
    s.ShowsMap ∧
    (∀ name number, s.registry.get? name = some number ↔ start.LastBinds events name number) ∧
    (∀ spec s', s.register spec = .ok s' → ∃ record, s.Enrolls spec record s') ∧
    (∀ name s', s.remove name = .ok s' → s.Drops name s') ∧
    (∀ event s', s.fire? event = some s' → ∀ name, ¬ s.Rebinds name event →
      s'.registry.get? name = s.registry.get? name) ∧
    (∀ id run, s.runs.get? id = some run → ¬ s.IsRegistered run.record →
      ∀ after u, s.replay? after = some u → ¬ u.IsRegistered run.record ∧
        ∀ event u', event.run? = some id → u.fire? event = some u' →
          u'.registry = u.registry ∧ ∀ name, u'.task? name = u.task? name) := by
  have hs : s.Reachable := ⟨options, now, start, events, hcreate, hreplay⟩
  have hnone : ∀ name, start.registry.get? name = none :=
    eq_initial_of_create? hcreate ▸ fun _ => rfl
  refine ⟨hs.showsMap, fun name number => get?_registry_iff_lastBinds hnone hreplay,
    fun spec s' => hs.exists_enrolls, fun name s' => hs.drops,
    fun event s' hfire name => (transition_of_fire? hfire).get?_registry, ?_⟩
  intro id run hrun hnot after u hafter
  obtain ⟨record, hrecord⟩ := hs.record_of_run hrun
  have hstale : ¬ u.IsRegistered run.record :=
    not_isRegistered_of_replay? (hs.record_lt hrecord) hnot hafter
  refine ⟨hstale, fun event u' hevent hfire => ?_⟩
  have htransition := transition_of_fire? hfire
  -- Numbers are not used again, so that the run is still the one that stood on the record.
  obtain ⟨run', hrun'⟩ := htransition.exists_run hevent
  obtain ⟨run₀, hrun₀, hcontinues⟩ := (replay?_moves hafter).run_continues (hs.run_lt hrun) hrun'
  rw [show s.runs.get? id = some run₀ from hrun₀] at hrun
  cases hrun
  exact htransition.task?_of_not_isRegistered (hs.replay? hafter) hevent hrun'
    (hcontinues.record ▸ hstale)

/-- A task is run, and registered anew while the run executes. -/
def replacedWhileExecuting : List (Event Unit) :=
  [.request (.register (.new "backup" ())), .request (.runNow true "backup"), .step (.begin 1),
    .request (.register (.new "backup" ()))]

/-- The run that executes after `replacedWhileExecuting` is recorded on the old record; the id goes
on standing for the new one, of which no run was recorded. -/
theorem taskMap_of_replay?_of_replacedWhileExecuting :
    ∃ start s u, create? Options.standard someMorning = some start ∧
      start.replay? replacedWhileExecuting = some s ∧ ¬ s.IsRegistered 0 ∧
      s.fire? (.step (.endAttempt 1 (.completed "done"))) = some u ∧
      (u.records.get? 0).map (·.runCount) = some 1 ∧ u.registry = s.registry ∧
      u.task? "backup" = s.task? "backup" ∧
      (s.task? "backup").map (fun task => (task.1, task.2.runCount)) = some (2, 0) := by
  have hcreate : create? Options.standard someMorning =
      some (initial Options.standard someMorning : State Unit) := rfl
  obtain ⟨s, hs⟩ : ∃ s, (initial Options.standard someMorning).replay? replacedWhileExecuting =
    some s := Option.isSome_iff_exists.1 (by decide)
  have hfacts : ((initial Options.standard someMorning).replay? replacedWhileExecuting).map
      (fun s =>
      ((s.runs.get? 1).map (·.record), s.registry.values,
        (s.task? "backup").map fun task => (task.1, task.2.runCount),
        (s.fire? (.step (.endAttempt 1 (.completed "done")))).bind fun u =>
          (u.records.get? 0).map (·.runCount))) = some
            (some 0, [2], some (2, 0), some 1) := by decide
  rw [hs, Option.map_some, Option.some.injEq, Prod.mk.injEq, Prod.mk.injEq, Prod.mk.injEq] at hfacts
  obtain ⟨hrun, hregistry, htask, hend⟩ := hfacts
  obtain ⟨run, hget, hrecord⟩ := Option.map_eq_some_iff.1 hrun
  obtain ⟨u, hfire, hcount⟩ := Option.bind_eq_some_iff.1 hend
  have hnot : ¬ s.IsRegistered 0 := by
    rw [isRegistered_iff_mem_values, hregistry]
    decide
  have hnow : s.replay? [] = some s := rfl
  obtain ⟨-, -, -, -, -, hstale⟩ := taskMap_of_replay? hcreate hs
  obtain ⟨-, hkeeps⟩ := hstale 1 run hget (hrecord ▸ hnot) [] s hnow
  obtain ⟨hsame, htasks⟩ := hkeeps _ u rfl hfire
  exact ⟨_, s, u, hcreate, hs, hnot, hfire, hcount, hsame, htasks "backup", htask⟩

end State

end CronDaemon.Scheduler
