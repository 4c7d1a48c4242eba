import CronDaemon.Proofs.Scheduler.Mirroring
import CronDaemon.Proofs.Scheduler.CatchUpPass
import Mathlib.Data.List.Perm.Basic

/-!
# Tasks taken in another order

A tick spawns runs for what is due, and a start refreshes every registered record and spawns its
catch-up runs, each in the order in which the registry lists the tasks. Taken in another order, the
tasks get the same runs under other numbers, so that the states mirror each other again.
-/

namespace CronDaemon

namespace Table

variable {κ α β : Type} [DecidableEq κ] {f : α → β} {t : Table κ α} {t' : Table κ β}

/-- Tables with the same keys, whose values are related, list the same in some order. -/
theorem Renames.perm_entries (h : t.Renames 1 f t') :
    t'.entries.Perm (t.entries.map fun e => (e.1, f e.2)) := by
  have hnodup : (t.entries.map fun e => (e.1, f e.2)).Nodup := by
    refine List.Nodup.of_map (·.1) ?_
    rw [List.map_map]
    exact t.nodup
  refine (List.perm_ext_iff_of_nodup (List.Nodup.of_map (·.1) t'.nodup) hnodup).2 fun e => ?_
  have he : e ∈ t'.entries ↔ t'.get? e.1 = some e.2 := mem_entries_iff
  rw [he, show t'.get? e.1 = (t.get? e.1).map f from h e.1, Option.map_eq_some_iff, List.mem_map]
  constructor
  · rintro ⟨v, hv, hf⟩
    exact ⟨(e.1, v), mem_entries_iff.2 hv, by rw [hf]⟩
  · rintro ⟨⟨k, v⟩, hmem, rfl⟩
    exact ⟨v, mem_entries_iff.1 hmem, rfl⟩

end Table

namespace Scheduler

open Job

namespace State

variable {H : Type} {ρ σ : Equiv.Perm Nat} {s s' t t' : State H} {event : Event H} {number : Nat}
  {record : Record H} {run : Run}

/-- Every number that a state names is used. -/
structure IsNumbered (s : State H) : Prop where
  record_lt : ∀ n record, s.records.get? n = some record → n < s.nextId
  registered_lt : ∀ name n, s.registry.get? name = some n → n < s.nextId
  run_lt : ∀ k run, s.runs.get? k = some run → k < s.nextId ∧ run.record < s.nextId
  part_lt : ∀ c parts k, s.calls.get? c = some (.triggering parts) → .run k ∈ parts → k < s.nextId

section Parts

/-- The runs that triggers wait for have numbers that are used. -/
def HasKnownParts (s : State H) : Prop :=
  ∀ c parts k, s.calls.get? c = some (.triggering parts) → .run k ∈ parts → k < s.nextId

/-- A change that leaves the calls leaves their parts known. -/
theorem HasKnownParts.of_eq (hs : s.HasKnownParts) (hcalls : s'.calls = s.calls)
    (hnext : s.nextId ≤ s'.nextId) : s'.HasKnownParts := by
  intro c parts k hcall hmem
  rw [hcalls] at hcall
  exact Nat.lt_of_lt_of_le (hs c parts k hcall hmem) hnext

/-- A call may enter a phase whose parts are known. -/
theorem HasKnownParts.insert (hs : s.HasKnownParts) {c : Nat} {call : Call}
    (hcalls : s'.calls = s.calls.insert c call) (hnext : s.nextId ≤ s'.nextId)
    (h : ∀ parts k, call = .triggering parts → .run k ∈ parts → k < s'.nextId) :
    s'.HasKnownParts := by
  intro c' parts k hcall hmem
  rw [hcalls, Table.get?_insert] at hcall
  split at hcall
  · exact h parts k (Option.some.inj hcall) hmem
  · exact Nat.lt_of_lt_of_le (hs c' parts k hcall hmem) hnext

/-- What is told to a trigger only settles some of its parts. -/
theorem HasKnownParts.tend {trouble : Prop} {owner : Owner} (hs : s.HasKnownParts)
    (h : Tends trouble s s' owner) (hnext : s.nextId ≤ s'.nextId) : s'.HasKnownParts := by
  intro c parts k hcall hmem
  refine Nat.lt_of_lt_of_le ?_ hnext
  rcases h.calls c with ⟨change, hhears, hsame⟩ | ⟨-, -, fault, hbroken⟩
  · rw [hsame] at hcall
    obtain ⟨call, hbefore, hchange⟩ := Option.map_eq_some_iff.1 hcall
    cases hhears with
    | nothing => exact hs c parts k (hbefore.trans (congrArg some hchange)) hmem
    | woken =>
      cases call with
      | triggering parts' =>
        cases hchange
        exact hs c _ k hbefore hmem
      | _ => cases hchange
    | outcome run outcome =>
      cases call with
      | triggering parts' =>
        cases hchange
        obtain ⟨part, hpart, he⟩ := List.mem_map.1 hmem
        refine hs c parts' k hbefore ?_
        cases part with
        | run id =>
          simp only at he
          split at he <;> cases he
          exact hpart
        | settled result => cases he
      | _ => cases hchange
  · rw [hbroken] at hcall
    cases hcall

/-- The parts of a trigger are runs that were just spawned. -/
theorem part_lt_askFor (call : Nat) (names : List String) (s : State H) {k : Nat}
    (h : .run k ∈ (s.askFor call names).2) :
    k < (s.askFor call names).1.nextId := by
  induction names generalizing s with
  | nil => cases h
  | cons name names ih =>
    unfold askFor at h ⊢
    cases htask : s.task? name with
    | none =>
      simp only [htask, List.mem_cons] at h ⊢
      rcases h with he | h
      · cases he
      · exact ih s h
    | some task =>
      simp only [htask, List.mem_cons] at h ⊢
      have hle := (adds_askFor call names (s.spawn task.1 .manual (.call call))).next
      rcases h with he | h
      · cases he
        exact hle
      · exact ih _ h

/-- A start that gets the lock has no parts. -/
theorem HasKnownParts.enterStart (hs : s.HasKnownParts) (call : Nat)
    (hnext : s.nextId ≤ (s.enterStart call).nextId) : (s.enterStart call).HasKnownParts := by
  rcases s.enterStart_cases call with he | ⟨records, journal, ⟨fault, he⟩ | he⟩
  · rw [he]
    exact hs.insert rfl (Nat.le_refl _) (by simp)
  · rw [he] at hnext ⊢
    have hentered : HasKnownParts { s with
        lock := s.lock.take call, records := records, journal := journal } := hs
    exact hentered.tend (Tends.breakCall trivial _ call fault) hnext
  · rw [he] at hnext ⊢
    have hadds := adds_catchUp { s with
      lock := s.lock.take call, records := records, journal := journal } call
    exact hs.insert
      (congrArg (fun calls : Table Nat Call => calls.insert call .catchingUp) hadds.calls)
      hnext (by simp)

/-- Each event leaves the parts of calls known. -/
theorem Transition.hasKnownParts (h : s.Transition event s') (hs : s.HasKnownParts) :
    s'.HasKnownParts := by
  have hnext : s.nextId ≤ s'.nextId := Ledger.Moves.nextId_le h.moves
  cases h with
  | refuse | register | remove | setEnabled | runNow | setClock | elapse | leave | retry
  | revokeExecuting | revokeResting => exact hs.of_eq rfl hnext
  | trigger names =>
    have hadds := adds_askFor s.nextId names { s with nextId := s.nextId + 1 }
    refine hs.insert
      (congrArg (fun calls : Table Nat Call => calls.insert s.nextId _) hadds.calls) hnext ?_
    intro parts k he hmem
    cases he
    exact part_lt_askFor _ _ _ hmem
  | start | stop | answer | openLoop | endStop => exact hs.insert rfl hnext (by simp)
  | begin => exact hs.tend (Tends.begin id _ _) hnext
  | cancel => exact hs.tend ((Tends.conclude id _ _ _).of_frame rfl rfl) hnext
  | acquire =>
    exact hs.tend ((Tends.launch not_isUntroubled_of_momentAfter? _ _ _).of_frame rfl rfl) hnext
  | endAttempt ending => exact hs.tend (Tends.endAttempt id _ _ _ _ _ ending) hnext
  | giveUp => exact hs.tend (Tends.conclude id _ _ _) hnext
  | tick =>
    refine hs.of_eq ?_ hnext
    simp only [State.tick]
    split
    · rfl
    · obtain ⟨_, _, he⟩ := dispatchAll_eq s.due (s.note (.ticked _ s.due s.clock _))
      rw [he]
      rfl
  | enterStart => exact hs.enterStart _ hnext
  | enterStop =>
    simp only [State.enterStop] at hnext ⊢
    split <;> exact hs.insert rfl (Nat.le_refl _) (by simp)
  | drain =>
    have htends : Tends False s { s with running := false, closed := true }.wakeStops .dispatched :=
      (Tends.wakeStops _).of_frame rfl rfl
    exact (hs.tend htends hnext).insert rfl (Nat.le_refl _) (by simp)
  | hangUp => exact hs.tend (Tends.hangUp trivial s _) hnext

end Parts

/-- Every number that a reachable state names is used. -/
theorem Reachable.isNumbered (hs : s.Reachable) : s.IsNumbered where
  record_lt _ _ hrecord := hs.record_lt hrecord
  registered_lt name n hname := by
    obtain ⟨record, hrecord, -⟩ := hs.id_of_registry hname
    exact hs.record_lt hrecord
  run_lt k run hrun := by
    obtain ⟨record, hrecord⟩ := hs.record_of_run hrun
    exact ⟨hs.run_lt hrun, hs.record_lt hrecord⟩
  part_lt := hs.induction (motive := HasKnownParts) (by rintro _ _ _ _ _ ⟨⟩)
    fun _ _ _ hs h => h.hasKnownParts hs

/-- No run has an unused number. -/
theorem IsNumbered.run_eq_none (hs : s.IsNumbered) {k : Nat} (h : s.nextId ≤ k) :
    s.runs.get? k = none := by
  refine Option.eq_none_iff_forall_ne_some.2 fun run hrun => ?_
  exact absurd (hs.run_lt k run hrun).1 (Nat.not_lt.2 h)

/-- A run that is spawned on a numbered record takes the next number. -/
theorem IsNumbered.spawn (hs : s.IsNumbered) (hlt : number < s.nextId) (trigger : Trigger)
    (owner : Owner) : (s.spawn number trigger owner).IsNumbered where
  record_lt n record h := Nat.lt_succ_of_lt (hs.record_lt n record h)
  registered_lt name n h := Nat.lt_succ_of_lt (hs.registered_lt name n h)
  run_lt k run h := by
    simp only [State.spawn, Table.get?_insert] at h
    split at h
    · next he =>
      cases h
      exact ⟨he ▸ Nat.lt_succ_self _, Nat.lt_succ_of_lt hlt⟩
    · obtain ⟨hk, hr⟩ := hs.run_lt k run h
      exact ⟨Nat.lt_succ_of_lt hk, Nat.lt_succ_of_lt hr⟩
  part_lt c parts k h hmem := Nat.lt_succ_of_lt (hs.part_lt c parts k h hmem)

/-- A renaming of unused numbers renames nothing of a run. -/
theorem IsNumbered.renamed_run (hs : s.IsNumbered) (hσ : ∀ n < s.nextId, σ n = n) {k : Nat}
    (hrun : s.runs.get? k = some run) : run.renamed σ = run := by
  obtain ⟨record, trigger, owner, phase⟩ := run
  simp only [Run.renamed, hσ record (hs.run_lt k _ hrun).2]

/-- A renaming of unused numbers changes no call. -/
theorem IsNumbered.renamed_call (hs : s.IsNumbered) (hσ : ∀ n < s.nextId, σ n = n) {c : Nat}
    {call : Call} (hcall : s.calls.get? c = some call) : call.renamed σ = call := by
  cases call with
  | triggering parts =>
    have hparts : ∀ part ∈ parts, part.renamed σ = part := by
      intro part hmem
      cases part with
      | run k => exact congrArg Part.run (hσ k (hs.part_lt c parts k hcall hmem))
      | settled result => rfl
    rw [Call.renamed, List.map_congr_left hparts, List.map_id']
  | starting | catchingUp | stopping | leaving | draining | returned => rfl

/-- A table whose keys are all used stays as it is when unused numbers are renamed. -/
theorem renames_self {α : Type} {table : Table Nat α} {bound : Nat} {change : α → α}
    (hkeys : ∀ k v, table.get? k = some v → k < bound) (hσ : ∀ n < bound, σ n = n)
    (hchange : ∀ k v, table.get? k = some v → change v = v) : table.Renames σ change table := by
  intro k
  cases hk : table.get? k with
  | some v => rw [hσ k (hkeys k v hk), hk, Option.map_some, hchange k v hk]
  | none =>
    refine Option.eq_none_iff_forall_ne_some.2 fun v hv => ?_
    -- The key of a value is used, so that the renaming leaves it where it is.
    have hfixed : σ (σ k) = σ k := hσ _ (hkeys _ v hv)
    rw [σ.injective hfixed, hk] at hv
    cases hv

section Unused

variable (hs : s.IsNumbered) (hσ : ∀ n < s.nextId, σ n = n)
include hs hσ

/-- A renaming of unused numbers leaves the registry. -/
theorem IsNumbered.renames_registry : s.registry.Renames 1 σ s.registry := by
  intro name
  change s.registry.get? name = (s.registry.get? name).map σ
  cases hname : s.registry.get? name with
  | none => rfl
  | some n => rw [Option.map_some, hσ n (hs.registered_lt name n hname)]

/-- A renaming of unused numbers leaves the runs. -/
theorem IsNumbered.renames_runs : s.runs.Renames σ (Run.renamed σ) s.runs :=
  renames_self (fun k run hrun => (hs.run_lt k run hrun).1) hσ fun _ _ hrun =>
    hs.renamed_run hσ hrun

/-- A renaming of unused numbers leaves the calls. -/
theorem IsNumbered.renames_calls : s.calls.Renames 1 (Call.renamed σ) s.calls := by
  intro c
  change s.calls.get? c = (s.calls.get? c).map (Call.renamed σ)
  cases hc : s.calls.get? c with
  | none => rfl
  | some call => rw [Option.map_some, hs.renamed_call hσ hc]

/-- A renaming of unused numbers leaves the runs of each task. -/
theorem IsNumbered.map_runsOf (name : String) : (s.runsOf name).map σ = s.runsOf name := by
  refine (List.map_congr_left fun k hk => ?_).trans (List.map_id _)
  obtain ⟨run, hrun, -⟩ := mem_runsIn_iff.1 hk
  exact hσ k (hs.run_lt k run hrun).1

end Unused

/-- To swap two numbers leaves the lower ones. -/
theorem swap_of_lt {m n : Nat} (h : n < m) : Equiv.swap m (m + 1) n = n :=
  Equiv.swap_apply_of_ne_of_ne (Nat.ne_of_lt h) (Nat.ne_of_lt (Nat.lt_succ_of_lt h))

/-- To swap two numbers leaves the higher ones. -/
theorem swap_of_le {m n : Nat} (h : m + 2 ≤ n) : Equiv.swap m (m + 1) n = n :=
  Equiv.swap_apply_of_ne_of_ne (by omega) (by omega)

/-- Two values that are put down one after the other may change places and numbers. -/
theorem renames_insert_insert {α : Type} {table : Table Nat α} {m : Nat} {change : α → α} {v w : α}
    (hself : table.Renames (Equiv.swap m (m + 1)) change table) (hv : change v = v)
    (hw : change w = w) :
    ((table.insert m v).insert (m + 1) w).Renames (Equiv.swap m (m + 1)) change
      ((table.insert m w).insert (m + 1) v) := by
  intro k
  have hboth := ((hself.insert m v).insert (m + 1) w) k
  rw [Equiv.swap_apply_left, Equiv.swap_apply_right, hv, hw] at hboth
  rw [← hboth]
  simp only [Table.get?_insert]
  by_cases hk : m = Equiv.swap m (m + 1) k
  · simp [← hk]
  · simp only [if_neg hk]

section Spawning

variable (trigger : Trigger) (owner : Owner)

/-- A run that is spawned comes last among the runs of its task. -/
theorem runsOf_spawn (hs : s.IsNumbered) (number : Nat) (name : String) :
    (s.spawn number trigger owner).runsOf name =
      s.runsOf name ++ if idsOf s.records number = some name then [s.nextId] else [] :=
  runsIn_insert (hs.run_eq_none (Nat.le_refl _)) _ name

/-- Runs of two tasks may be spawned in either order. -/
theorem Mirrors.spawn_comm (hs : s.IsNumbered) {a b : Nat} (ha : a < s.nextId) (hb : b < s.nextId)
    (hne : idsOf s.records a ≠ idsOf s.records b) :
    Mirrors (Equiv.swap s.nextId (s.nextId + 1)) ((s.spawn a trigger owner).spawn b trigger owner)
      ((s.spawn b trigger owner).spawn a trigger owner) := by
  have hfixes : ∀ n < s.nextId, Equiv.swap s.nextId (s.nextId + 1) n = n := fun _ => swap_of_lt
  have hrenamed : ∀ n < s.nextId, Run.renamed (Equiv.swap s.nextId (s.nextId + 1))
      ⟨n, trigger, owner, .spawned⟩ = ⟨n, trigger, owner, .spawned⟩ := by
    intro n hn
    simp only [Run.renamed, hfixes n hn]
  constructor
  case bare => rfl
  case fixed => exact fun _ => swap_of_le
  case records => exact renames_self hs.record_lt hfixes fun _ _ _ => rfl
  case registry => exact hs.renames_registry hfixes
  case runs => exact renames_insert_insert (hs.renames_runs hfixes) (hrenamed a ha) (hrenamed b hb)
  case calls => exact hs.renames_calls hfixes
  case queues =>
    intro name
    rw [runsOf_spawn trigger owner (hs.spawn hb trigger owner), runsOf_spawn trigger owner hs,
      runsOf_spawn trigger owner (hs.spawn ha trigger owner), runsOf_spawn trigger owner hs]
    change (s.runsOf name ++ if idsOf s.records b = some name then [s.nextId] else []) ++
        (if idsOf s.records a = some name then [s.nextId + 1] else []) =
      ((s.runsOf name ++ if idsOf s.records a = some name then [s.nextId] else []) ++
        if idsOf s.records b = some name then [s.nextId + 1] else []).map _
    rw [List.map_append, List.map_append, hs.map_runsOf hfixes]
    by_cases hname : idsOf s.records a = some name
    · have hother : idsOf s.records b ≠ some name := fun h => hne (hname.trans h.symm)
      simp [hname, hother]
    · simp only [if_neg hname, List.append_nil, List.map_nil]
      split <;> simp
  case attempts => exact fun _ => rfl

/-- Runs that are spawned on mirrored records in the same order are mirrored. -/
theorem Mirrors.spawnAll (h : Mirrors ρ s s') (hfresh : ∀ k, s.nextId ≤ k → s.runs.get? k = none)
    (numbers : List Nat) :
    Mirrors ρ (s.spawnAll trigger owner numbers) (s'.spawnAll trigger owner (numbers.map ρ)) := by
  induction numbers generalizing s s' with
  | nil => exact h
  | cons number numbers ih =>
    refine ih (h.spawn (hfresh _ (Nat.le_refl _)) number trigger owner) fun k hk => ?_
    have hlt : s.nextId < k := hk
    change (s.runs.insert s.nextId _).get? k = none
    rw [Table.get?_insert, if_neg (Nat.ne_of_lt hlt), hfresh k (Nat.le_of_lt hlt)]

/-- Runs of different tasks may be spawned in any order. -/
theorem Mirrors.spawnAll_perm (hs : s.IsNumbered) {numbers numbers' : List Nat}
    (hperm : numbers.Perm numbers') (hlt : ∀ n ∈ numbers, n < s.nextId)
    (hdistinct : (numbers.map (idsOf s.records)).Nodup) :
    ∃ σ, Mirrors σ (s.spawnAll trigger owner numbers) (s.spawnAll trigger owner numbers') := by
  induction hperm generalizing s with
  | nil => exact ⟨1, .refl s⟩
  | cons number _ ih =>
    refine ih (hs.spawn (hlt number List.mem_cons_self) trigger owner) (fun n hn => ?_)
      (List.nodup_cons.1 hdistinct).2
    exact Nat.lt_succ_of_lt (hlt n (List.mem_cons_of_mem _ hn))
  | swap b a numbers =>
    have ha := hlt a List.mem_cons_self
    have hb := hlt b (List.mem_cons_of_mem _ List.mem_cons_self)
    have hne : idsOf s.records a ≠ idsOf s.records b := fun he =>
      (List.nodup_cons.1 hdistinct).1 (List.mem_cons.2 (.inl he))
    have hspawned : ((s.spawn a trigger owner).spawn b trigger owner).IsNumbered :=
      (hs.spawn ha trigger owner).spawn (Nat.lt_succ_of_lt hb) trigger owner
    have hrest := (Mirrors.spawn_comm trigger owner hs ha hb hne).spawnAll trigger owner
      (fun k => hspawned.run_eq_none) numbers
    -- The records are older than both runs, so that the new numbers leave them as they are.
    have hsame : numbers.map (Equiv.swap s.nextId (s.nextId + 1)) = numbers := by
      refine (List.map_congr_left fun n hn => ?_).trans (List.map_id _)
      exact swap_of_lt (hlt n (List.mem_cons_of_mem _ (List.mem_cons_of_mem _ hn)))
    rw [hsame] at hrest
    exact ⟨_, hrest⟩
  | trans hfirst hsecond ih ih' =>
    obtain ⟨σ, hσ⟩ := ih hs hlt hdistinct
    obtain ⟨τ, hτ⟩ := ih' hs (fun n hn => hlt n (hfirst.mem_iff.2 hn))
      ((hfirst.map _).nodup_iff.1 hdistinct)
    exact ⟨τ * σ, hσ.trans hτ⟩

/-- Runs that are spawned on mirrored records, in whatever order, are mirrored. -/
theorem Mirrors.spawnAll_of_perm (h : Mirrors ρ s s') (hs : s.IsNumbered)
    {numbers numbers' : List Nat}
    (hperm : numbers'.Perm (numbers.map ρ)) (hlt : ∀ n ∈ numbers, n < s.nextId)
    (hdistinct : (numbers.map (idsOf s.records)).Nodup) :
    ∃ σ, Mirrors σ (s.spawnAll trigger owner numbers) (s'.spawnAll trigger owner numbers') := by
  have hback : numbers.Perm (numbers'.map ρ.symm) := by
    have hmapped := (hperm.map ρ.symm).symm
    rwa [List.map_map, Equiv.symm_comp_self, List.map_id] at hmapped
  obtain ⟨σ, hσ⟩ := Mirrors.spawnAll_perm trigger owner hs hback hlt hdistinct
  have hmirrored := h.spawnAll trigger owner (fun k => hs.run_eq_none) (numbers'.map ρ.symm)
  rw [List.map_map, Equiv.self_comp_symm, List.map_id] at hmirrored
  exact ⟨ρ * σ, hσ.trans hmirrored⟩

end Spawning

section Tasks

/-- The registered records are the same on both sides, renamed and in some order. -/
theorem Mirrors.perm_registry (h : Mirrors ρ s s') :
    s'.registry.values.Perm (s.registry.values.map ρ) := by
  have hvalues := h.registry.perm_entries.map (·.2)
  rw [List.map_map] at hvalues
  rw [Table.values, Table.values, List.map_map]
  exact hvalues

/-- Mirrored states list the same tasks in some order. -/
theorem Mirrors.perm_tasks (h : Mirrors ρ s s') :
    s'.tasks.Perm (s.tasks.map fun e => (ρ e.1, e.2)) := by
  refine (h.perm_registry.filterMap _).trans (.of_eq ?_)
  rw [List.filterMap_map, tasks, List.map_filterMap]
  refine List.filterMap_congr fun n _ => ?_
  rw [Function.comp, h.records n, Option.map_id, Option.map_map]
  rfl

/-- So are the records that are due. -/
theorem Mirrors.perm_due (h : Mirrors ρ s s') : s'.due.Perm (s.due.map ρ) := by
  have hnow : s'.now = s.now := h.same State.now
  have hdue := (h.perm_tasks.filter fun e => e.2.isDue s'.now).map (·.1)
  rw [List.filter_map, List.map_map] at hdue
  rw [due, due, List.map_map, ← hnow]
  exact hdue

/-- The tasks of the registered records are different ones. -/
def HasDistinctTasks (s : State H) : Prop := (s.registry.values.map (idsOf s.records)).Nodup

/-- No record is registered under two ids. -/
theorem Reachable.hasDistinctTasks (hs : s.Reachable) : s.HasDistinctTasks := by
  have hkeys : s.registry.values.map (idsOf s.records) = s.registry.keys.map some := by
    rw [Table.values, Table.keys, List.map_map, List.map_map]
    refine List.map_congr_left fun e he => ?_
    obtain ⟨record, hrecord, hid⟩ := hs.id_of_registry (Table.mem_entries_iff.1 he)
    rw [Function.comp, idsOf, hrecord, Option.map_some, hid]
    rfl
  rw [HasDistinctTasks, hkeys]
  exact s.registry.nodup.map (Option.some_injective _)

/-- The tasks are listed in the order of the registry. -/
theorem map_fst_tasks (s : State H) :
    s.tasks.map (·.1) = s.registry.values.filter fun n => s.records.contains n := by
  rw [tasks, List.map_filterMap, ← List.filterMap_eq_filter]
  refine List.filterMap_congr fun n _ => ?_
  cases hrecord : s.records.get? n <;> simp [Option.guard, Table.contains, hrecord]

/-- No task is listed more often than the registry lists it. -/
theorem sublist_tasks (s : State H) : (s.tasks.map (·.1)).Sublist s.registry.values := by
  rw [map_fst_tasks]
  exact List.filter_sublist

/-- Runs that are spawned on some of the tasks are mirrored, whatever the order of the tasks. -/
theorem Mirrors.spawnTasks (h : Mirrors ρ s s') (hs : s.IsNumbered) (hdistinct : s.HasDistinctTasks)
    (trigger : Trigger) (owner : Owner) {numbers numbers' : List Nat}
    (hperm : numbers'.Perm (numbers.map ρ)) (hsub : numbers.Sublist s.registry.values) :
    ∃ σ, Mirrors σ (s.spawnAll trigger owner numbers) (s'.spawnAll trigger owner numbers') := by
  refine h.spawnAll_of_perm trigger owner hs hperm (fun n hn => ?_) (hdistinct.sublist (hsub.map _))
  obtain ⟨name, hname⟩ := isRegistered_iff_mem_values.2 (hsub.subset hn)
  exact hs.registered_lt name n hname

/-- Entries that tell of no attempt may be noted on both sides. -/
theorem Mirrors.note (h : Mirrors ρ s s') {entry entry' : Entry} (hentry : entry.attempt? = none)
    (hentry' : entry'.attempt? = none) : Mirrors ρ (s.note entry) (s'.note entry') :=
  { h with
    bare := h.bare
    attempts := fun name => (attemptsIn_cons_of_none hentry' name).trans
      ((h.attempts name).trans (attemptsIn_cons_of_none hentry name).symm) }

/-- A loop may be set on both sides. -/
theorem Mirrors.setLoop (h : Mirrors ρ s s') (id : Nat) (loop : TickLoop) :
    Mirrors ρ { s with loops := s.loops.insert id loop }
      { s' with loops := s'.loops.insert id loop } :=
  { h with bare := congrArg (fun b : State H => { b with loops := b.loops.insert id loop }) h.bare }

/-- A loop ticks in mirrored states alike. -/
theorem Mirrors.tick (h : Mirrors ρ s s') (hs : s.Reachable) (id : Nat) (loop : TickLoop) :
    ∃ σ, Mirrors σ (s.tick id loop) (s'.tick id loop) := by
  have hreading : s'.reading = s.reading := h.same State.reading
  have hnext : tickAfter s'.options.tickInterval.nanos (loop.nextTick.getD s'.clock) s'.clock =
      tickAfter s.options.tickInterval.nanos (loop.nextTick.getD s.clock) s.clock :=
    h.same fun b => tickAfter b.options.tickInterval.nanos (loop.nextTick.getD b.clock) b.clock
  unfold State.tick
  rw [hreading]
  cases s.reading with
  | error fault =>
    exact ⟨ρ, { h with
      bare := congrArg (fun b : State H => { b with loops := b.loops.erase id }) h.bare }⟩
  | ok now =>
    have hnoted : Mirrors ρ (s.note (.ticked id s.due s.clock now))
        (s'.note (.ticked id s'.due s'.clock now)) := h.note rfl rfl
    obtain ⟨σ, hσ⟩ := hnoted.spawnTasks
      ⟨hs.isNumbered.record_lt, hs.isNumbered.registered_lt, hs.isNumbered.run_lt,
        hs.isNumbered.part_lt⟩ hs.hasDistinctTasks .schedule .dispatched h.perm_due
      ((List.filter_sublist.map _).trans s.sublist_tasks)
    refine ⟨σ, ?_⟩
    simp only [hnext]
    exact hσ.setLoop id _

end Tasks

section Starting

variable {records records' : Table Nat (Record H)} {journal journal' : List Entry} {now : Instant}

/-- A record that is missing has no id. -/
theorem get?_eq_none_iff_idsOf {n : Nat} : records.get? n = none ↔ idsOf records n = none :=
  Option.map_eq_none_iff.symm

/-- Records may be changed on both sides, as long as their tasks stay and no handler is called. -/
theorem Mirrors.withLedger (h : Mirrors ρ s s') (hrecords : records.Renames ρ id records')
    (hids : idsOf records = idsOf s.records)
    (hjournal : ∀ ids name, attemptsIn ids journal name = attemptsIn ids s.journal name)
    (hjournal' : ∀ ids name, attemptsIn ids journal' name = attemptsIn ids s'.journal name) :
    Mirrors ρ { s with records := records, journal := journal }
      { s' with records := records', journal := journal' } := by
  have hids' : idsOf records' = idsOf s'.records := by
    funext n
    obtain ⟨n, rfl⟩ := ρ.surjective n
    rw [idsOf_renames hrecords, idsOf_renames h.records, hids]
  refine { h with
    bare := h.bare, records := hrecords, queues := fun name => ?_, attempts := fun name => ?_ }
  · simp only [runsOf, hids, hids']
    exact h.queues name
  · simp only [attemptsOf, hids, hids', hjournal, hjournal']
    exact h.attempts name

/-- Records and journal may change as long as the ids stay. -/
theorem IsNumbered.withLedger (hs : s.IsNumbered) (hids : idsOf records = idsOf s.records) :
    IsNumbered { s with records := records, journal := journal } where
  record_lt n record hrecord := by
    refine Nat.lt_of_not_le fun hle => ?_
    have hnone : s.records.get? n = none :=
      Option.eq_none_iff_forall_ne_some.2 fun record hrecord =>
      Nat.not_lt.2 hle (hs.record_lt n record hrecord)
    rw [get?_eq_none_iff_idsOf, ← hids, ← get?_eq_none_iff_idsOf, hrecord] at hnone
    cases hnone
  registered_lt := hs.registered_lt
  run_lt := hs.run_lt
  part_lt := hs.part_lt

/-- To compute next runs anew leaves the tasks of the records alone, and calls no handler. -/
theorem refreshEach_keeps (now : Instant) (numbers : List Nat) (s : State H) :
    idsOf (s.refreshEach now numbers).1.records = idsOf s.records ∧
      ∀ ids name, attemptsIn ids (s.refreshEach now numbers).1.journal name =
        attemptsIn ids s.journal name := by
  induction numbers generalizing s with
  | nil => exact ⟨rfl, fun _ _ => rfl⟩
  | cons number numbers ih =>
    unfold refreshEach
    split
    · exact ih s
    · next record hrecord =>
      split
      · exact ⟨rfl, fun _ _ => rfl⟩
      · next after hafter =>
        have hid : after.id = record.id := by
          have hprofile := congrArg Record.id (Record.profile_refreshed hafter)
          exact hprofile
        obtain ⟨hids, hattempts⟩ :=
          ih ({ s with records := s.records.insert number after }.note (.refreshed number now))
        refine ⟨hids.trans (idsOf_insert_of_eq hrecord hid), fun ids name => ?_⟩
        exact (hattempts ids name).trans (attemptsIn_cons_of_none rfl name)

/-- Without a fault the order in which next runs are computed anew makes no difference. -/
theorem Mirrors.refreshAll (h : Mirrors ρ s s') (hnodup : s.registry.values.Nodup)
    (hknown : ∀ n ∈ s.registry.values, ∃ record, s.records.get? n = some record)
    (hcalm : (s.refreshAll now).2 = none) (hcalm' : (s'.refreshAll now).2 = none) :
    Mirrors ρ (s.refreshAll now).1 (s'.refreshAll now).1 := by
  have hmem : ∀ n, ρ n ∈ s'.registry.values ↔ n ∈ s.registry.values := by
    intro n
    rw [h.perm_registry.mem_iff, List.mem_map_of_injective ρ.injective]
  have hnodup' : s'.registry.values.Nodup := h.perm_registry.nodup_iff.2 (hnodup.map ρ.injective)
  have hzone : s'.options.zone = s.options.zone := h.same fun b => b.options.zone
  have hrecords : (s.refreshAll now).1.records.Renames ρ id (s'.refreshAll now).1.records := by
    intro n
    rw [Option.map_id]
    by_cases hn : n ∈ s.registry.values
    · obtain ⟨record, hrecord⟩ := hknown n hn
      obtain ⟨fresh, hfresh, hget⟩ := get?_refreshEach_of_mem now hnodup s hcalm hn hrecord
      obtain ⟨fresh', hfresh', hget'⟩ := get?_refreshEach_of_mem now hnodup' s' hcalm'
        ((hmem n).2 hn) (h.get?_records hrecord)
      rw [hzone, hfresh] at hfresh'
      cases hfresh'
      exact hget'.trans hget.symm
    · have hkept := get?_refreshEach_of_notMem now s hn
      have hkept' := get?_refreshEach_of_notMem now s' (mt (hmem n).1 hn)
      rw [State.refreshAll, State.refreshAll, hkept, hkept', h.records n, Option.map_id, id]
  obtain ⟨hids, hattempts⟩ := refreshEach_keeps now s.registry.values s
  obtain ⟨-, hattempts'⟩ := refreshEach_keeps now s'.registry.values s'
  obtain ⟨records, journal, he⟩ := refreshEach_eq now s.registry.values s
  obtain ⟨records', journal', he'⟩ := refreshEach_eq now s'.registry.values s'
  simp only [State.refreshAll, he, he'] at hrecords hids hattempts hattempts' ⊢
  exact h.withLedger hrecords hids hattempts hattempts'

/-- The catch-up pass passes over tasks and spawns runs, and these do not get into each other's
way. -/
theorem catchUpEach_eq (s : State H) (call : Nat) (cutoff : Instant)
    (tasks : List (Nat × Record H)) : s.catchUpEach call cutoff tasks =
      { s with records := (s.catchUpEach call cutoff tasks).records }.spawnAll .catchUp (.call call)
        (missed cutoff tasks) := by
  induction tasks generalizing s with
  | nil => rfl
  | cons task tasks ih =>
    have hrest : s.catchUpEach call cutoff (task :: tasks) =
      (s.catchUpTask call cutoff task.1 task.2).catchUpEach call cutoff tasks := rfl
    rw [hrest]
    refine (ih (s.catchUpTask call cutoff task.1 task.2)).trans ?_
    generalize ((s.catchUpTask call cutoff task.1 task.2).catchUpEach call cutoff tasks).records =
      records
    unfold catchUpTask
    simp only [missed, List.filter_cons]
    cases task.2.isStale cutoff with
    | false => rfl
    | true => cases task.2.skippable <;> rfl

/-- The catch-up pass leaves the ids. -/
theorem idsOf_catchUpEach (call : Nat) (cutoff : Instant) (tasks : List (Nat × Record H))
    (s : State H) : idsOf (s.catchUpEach call cutoff tasks).records = idsOf s.records := by
  induction tasks generalizing s with
  | nil => rfl
  | cons task tasks ih =>
    refine (ih (s.catchUpTask call cutoff task.1 task.2)).trans ?_
    rw [records_catchUpTask]
    split
    · exact idsOf_modify fun record =>
        (congrArg Record.id (Record.profile_passedOver record) : record.passedOver.profile.id = _)
    · rfl

/-- The missed records are the same on both sides, renamed and in some order. -/
theorem Mirrors.perm_missed (h : Mirrors ρ s s') (cutoff : Instant) :
    (missed cutoff s'.tasks).Perm ((missed cutoff s.tasks).map ρ) := by
  have hmissed := (h.perm_tasks.filter fun e => e.2.isStale cutoff && !e.2.skippable).map (·.1)
  rw [List.filter_map, List.map_map] at hmissed
  rw [missed, missed, List.map_map]
  exact hmissed

/-- What the catch-up pass makes of a record does not depend on the order of the tasks. -/
theorem Mirrors.records_catchUpEach (h : Mirrors ρ s s') (hnodup : s.registry.values.Nodup)
    (call : Nat) (cutoff : Instant) :
    (s.catchUpEach call cutoff s.tasks).records.Renames ρ id
      (s'.catchUpEach call cutoff s'.tasks).records := by
  have hnodup' : s'.registry.values.Nodup := h.perm_registry.nodup_iff.2 (hnodup.map ρ.injective)
  intro n
  rw [Option.map_id]
  by_cases hmem : ∃ record, (n, record) ∈ s.tasks
  · obtain ⟨record, hmem⟩ := hmem
    have hmem' : (ρ n, record) ∈ s'.tasks :=
      h.perm_tasks.mem_iff.2 (List.mem_map_of_mem (f := fun e => (ρ e.1, e.2)) hmem)
    rw [get?_records_catchUpEach_of_mem call cutoff (nodup_tasks hnodup) s hmem,
      get?_records_catchUpEach_of_mem call cutoff (nodup_tasks hnodup') s' hmem', h.records n,
        Option.map_id]
    rfl
  · have hnot : n ∉ s.tasks.map (·.1) := by
      intro hn
      obtain ⟨e, he, rfl⟩ := List.mem_map.1 hn
      exact hmem ⟨e.2, he⟩
    have hnot' : ρ n ∉ s'.tasks.map (·.1) := by
      rw [(h.perm_tasks.map (·.1)).mem_iff, List.map_map]
      intro hn
      obtain ⟨e, he, hρ⟩ := List.mem_map.1 hn
      exact hnot (List.mem_map.2 ⟨e, he, ρ.injective hρ⟩)
    rw [get?_records_catchUpEach_of_notMem call cutoff s hnot,
      get?_records_catchUpEach_of_notMem call cutoff s' hnot', h.records n, Option.map_id, id]

/-- The catch-up pass makes the same of the tasks in whatever order it takes them. -/
theorem Mirrors.catchUp (h : Mirrors ρ s s') (hs : s.IsNumbered) (hdistinct : s.HasDistinctTasks)
    (call : Nat) : ∃ σ, Mirrors σ (s.catchUp call) (s'.catchUp call) := by
  have hcutoff : s'.now.sub? s'.options.catchUpWindow = s.now.sub? s.options.catchUpWindow :=
    h.same fun b => b.now.sub? b.options.catchUpWindow
  unfold State.catchUp
  rw [hcutoff]
  cases s.now.sub? s.options.catchUpWindow with
  | none => exact ⟨ρ, h⟩
  | some cutoff =>
    have hids := s.idsOf_catchUpEach call cutoff s.tasks
    have hpassed :=
      h.withLedger (h.records_catchUpEach (List.Nodup.of_map _ hdistinct) call cutoff) hids
      (fun _ _ => rfl) (fun _ _ => rfl)
    have hdistinct' : HasDistinctTasks
        { s with records := (s.catchUpEach call cutoff s.tasks).records } := by
      rw [HasDistinctTasks]
      exact hids ▸ hdistinct
    have hspawned := hpassed.spawnTasks (hs.withLedger hids) hdistinct' .catchUp (.call call)
      (h.perm_missed cutoff) ((List.filter_sublist.map _).trans s.sublist_tasks)
    change ∃ σ, Mirrors σ (s.catchUpEach call cutoff s.tasks) (s'.catchUpEach call cutoff s'.tasks)
    rw [s.catchUpEach_eq, s'.catchUpEach_eq]
    exact hspawned

/-- What is untroubled on one side is so on the other. -/
theorem Mirrors.isUntroubled (h : Mirrors ρ s s') (hcalm : s.IsUntroubled) : s'.IsUntroubled := by
  obtain ⟨hdeadline, now, hreading, hnext⟩ := hcalm
  have hzone : s'.options.zone = s.options.zone := h.same fun b => b.options.zone
  refine ⟨(h.same fun b => (momentAfter? b.clock b.options.taskTimeout).isSome).trans hdeadline,
    now, (h.same State.reading).trans hreading, fun n record hrecord => ?_⟩
  obtain ⟨n, rfl⟩ := ρ.surjective n
  rw [h.records n, Option.map_id] at hrecord
  rw [hzone]
  exact hnext n record hrecord

/-- Where nothing makes it break off, a start that finds no loop handle refreshes all tasks and
makes its catch-up pass. -/
theorem enterStart_eq (hcalm : s.IsUntroubled) (hhandle : s.handle = none)
    (hreading : s.reading = .ok now) (call : Nat) : s.enterStart call =
      (({ s with lock := s.lock.take call }.refreshAll now).1.catchUp call).setCall call
        .catchingUp ∧
      ({ s with lock := s.lock.take call }.refreshAll now).2 = none := by
  have hnone := refreshEach_eq_none now s.registry.values { s with lock := s.lock.take call }
    (hcalm.exists_nextRun hreading)
  refine ⟨?_, hnone⟩
  unfold State.enterStart
  split
  · next loop hsome =>
    rw [hhandle] at hsome
    cases hsome
  · dsimp only
    split
    · next fault hfault =>
      have hfault' : s.reading = .error fault := hfault
      rw [hreading] at hfault'
      cases hfault'
    · next now' hnow =>
      have hnow' : s.reading = .ok now' := hnow
      rw [hreading] at hnow'
      cases hnow'
      split
      · next hrefresh =>
        rw [State.refreshAll] at hrefresh
        rw [hrefresh] at hnone
        cases hnone
      · next hrefresh => rw [hrefresh]

/-- A start that finds a loop handle is refused. -/
theorem enterStart_of_handle {loop : Nat} (hhandle : s.handle = some loop) (call : Nat) :
    s.enterStart call =
      { s with lock := (s.lock.take call).release }.reply call (.refused .alreadyRunning) := by
  unfold State.enterStart
  split
  · rfl
  · next hnone =>
    rw [hhandle] at hnone
    cases hnone

/-- The lock may change in the same way on both sides. -/
theorem Mirrors.setLock (h : Mirrors ρ s s') (change : Lock → Lock) :
    Mirrors ρ { s with lock := change s.lock } { s' with lock := change s'.lock } :=
  { h with bare := congrArg (fun b : State H => { b with lock := change b.lock }) h.bare }

/-- A start that gets the lock makes the same of the tasks in whatever order it takes them, as long
as nothing makes it break off. -/
theorem Mirrors.enterStart (h : Mirrors ρ s s') (hs : s.Reachable) (hcalm : s.IsUntroubled)
    (call : Nat) : ∃ σ, Mirrors σ (s.enterStart call) (s'.enterStart call) := by
  have hhandle : s'.handle = s.handle := h.same State.handle
  cases hstored : s.handle with
  | some loop =>
    rw [enterStart_of_handle hstored, enterStart_of_handle (hhandle.trans hstored)]
    exact ⟨ρ, (h.setLock fun lock => (lock.take call).release).setCall call
      (.returned (.refused .alreadyRunning))⟩
  | none =>
    obtain ⟨-, now, hnow, -⟩ := id hcalm
    obtain ⟨he, hnone⟩ := enterStart_eq hcalm hstored hnow call
    obtain ⟨he', hnone'⟩ := enterStart_eq (h.isUntroubled hcalm) (hhandle.trans hstored)
      ((h.same State.reading).trans hnow) call
    have hrefreshed := (h.setLock fun lock => lock.take call).refreshAll hs.nodup_registry
      (fun n hn => hs.record_of_isRegistered (isRegistered_iff_mem_values.2 hn)) hnone hnone'
    obtain ⟨hids, -⟩ := refreshEach_keeps now s.registry.values { s with lock := s.lock.take call }
    obtain ⟨records, journal, hkept⟩ :=
      refreshEach_eq now s.registry.values { s with lock := s.lock.take call }
    rw [State.refreshAll] at hrefreshed he
    rw [hkept] at hrefreshed he hids
    have hnumbered : IsNumbered { s with records := records, journal := journal } :=
      hs.isNumbered.withLedger hids
    obtain ⟨σ, hσ⟩ :=
      hrefreshed.catchUp ⟨hnumbered.record_lt, hnumbered.registered_lt, hnumbered.run_lt,
      hnumbered.part_lt⟩ (by rw [HasDistinctTasks]; exact hids ▸ hs.hasDistinctTasks) call
    rw [he, he']
    exact ⟨σ, hσ.setCall call .catchingUp⟩

end Starting

end State

end Scheduler

end CronDaemon
