import CronDaemon.Proofs.Scheduler.Effects
import Mathlib.Algebra.Group.End
import Mathlib.Logic.Equiv.Basic

/-!
# States apart from their numbers

Two states mirror each other if they differ in the numbers of records and runs alone, and in the
order in which their tables list different tasks: the runs of each task stand in the same order, its
handler was called at the same moments, and everything that belongs to no task is the same. What a
step of a run comes to is the same in both.
-/

namespace CronDaemon

namespace Table

variable {κ α β γ : Type} [DecidableEq κ] {σ τ : Equiv.Perm κ} {f : α → β} {g : β → γ}
  {t : Table κ α} {t' : Table κ β} {t'' : Table κ γ}

/-- The keys of a table are renamed, and its values go over into others. The order of the keys may
be another one. -/
def Renames (σ : Equiv.Perm κ) (f : α → β) (t : Table κ α) (t' : Table κ β) : Prop :=
  ∀ k, t'.get? (σ k) = (t.get? k).map f

/-- Each table is itself renamed by nothing. -/
theorem Renames.refl (t : Table κ α) : t.Renames 1 id t := by
  intro k
  rw [Option.map_id]
  rfl

/-- Renamings in a row are one renaming. -/
theorem Renames.trans (h : t.Renames σ f t') (h' : t'.Renames τ g t'') :
    t.Renames (τ * σ) (g ∘ f) t'' := by
  intro k
  rw [Equiv.Perm.mul_apply, h', h, Option.map_map]

/-- What is put in on one side is put in, renamed, on the other. -/
theorem Renames.insert (h : t.Renames σ f t') (k : κ) (v : α) :
    (t.insert k v).Renames σ f (t'.insert (σ k) (f v)) := by
  intro j
  simp only [get?_insert, σ.injective.eq_iff, h j]
  split <;> rfl

/-- What is taken out on one side is taken out on the other. -/
theorem Renames.erase (h : t.Renames σ f t') (k : κ) :
    (t.erase k).Renames σ f (t'.erase (σ k)) := by
  intro j
  simp only [get?_erase, σ.injective.eq_iff, h j]
  split <;> rfl

/-- What is changed on one side is changed on the other, if the changes fit the renaming. -/
theorem Renames.modify (h : t.Renames σ f t') (k : κ) {change : α → α} {change' : β → β}
    (hchange : ∀ v, change' (f v) = f (change v)) :
    (t.modify k change).Renames σ f (t'.modify (σ k) change') := by
  intro j
  simp only [get?_modify, σ.injective.eq_iff, h j]
  split
  · simp only [Option.map_map, Function.comp_def, hchange]
  · rfl

/-- A new key comes last. -/
theorem entries_insert_of_none {k : κ} (h : t.get? k = none) (v : α) :
    (t.insert k v).entries = t.entries ++ [(k, v)] := by
  have key : ∀ es : List (κ × α), k ∉ es.map (·.1) → put k v es = es ++ [(k, v)] := by
    intro es
    induction es with
    | nil => exact fun _ => rfl
    | cons e es ih =>
      intro hnot
      rw [List.map_cons, List.mem_cons, not_or] at hnot
      rw [put, if_neg (Ne.symm hnot.1), ih hnot.2]
      rfl
  exact key t.entries (lookup_eq_none_iff.1 h)

end Table

namespace Scheduler

open Job

/-- A run under other numbers. -/
def Run.renamed (ρ : Equiv.Perm Nat) (run : Run) : Run := { run with record := ρ run.record }

/-- What a call has got for one id, under other numbers. -/
def Part.renamed (ρ : Equiv.Perm Nat) : Part → Part
  | .run id => .run (ρ id)
  | .settled result => .settled result

/-- A call under other numbers of runs. -/
def Call.renamed (ρ : Equiv.Perm Nat) : Call → Call
  | .triggering parts => .triggering (parts.map (Part.renamed ρ))
  | call => call

variable {H : Type} {ρ τ : Equiv.Perm Nat}

/-- A part that is renamed by nothing stays as it is. -/
@[simp] theorem Part.renamed_one (part : Part) : part.renamed 1 = part := by cases part <;> rfl

/-- To rename a part twice is to rename it once. -/
theorem Part.renamed_renamed (part : Part) : (part.renamed ρ).renamed τ = part.renamed (τ * ρ) := by
  cases part <;> rfl

/-- A call that is renamed by nothing stays as it is. -/
@[simp] theorem Call.renamed_one (call : Call) : call.renamed 1 = call := by
  have hpart : Part.renamed 1 = id := funext Part.renamed_one
  cases call <;> simp only [Call.renamed, hpart, List.map_id]

/-- To rename the parts of a call twice is to rename them once. -/
theorem Call.renamed_renamed (call : Call) : (call.renamed ρ).renamed τ = call.renamed (τ * ρ) := by
  cases call <;> simp only [Call.renamed, List.map_map, Function.comp_def, Part.renamed_renamed]

/-- It does not matter whether a call is renamed before or after it is woken. -/
@[simp] theorem Call.renamed_wake (call : Call) : call.wake.renamed ρ = (call.renamed ρ).wake := by
  cases call <;> rfl

/-- An outcome is told to a renamed call in the place of the renamed run. -/
theorem Call.renamed_deliver (call : Call) (run : Nat) (outcome : RunOutcome) :
    (call.deliver run outcome).renamed ρ = (call.renamed ρ).deliver (ρ run) outcome := by
  cases call with
  | triggering parts =>
    simp only [Call.deliver, Call.renamed, List.map_map]
    congr 1
    refine List.map_congr_left fun part _ => ?_
    cases part with
    | run id =>
      simp only [Function.comp, Part.renamed, ρ.injective.eq_iff]
      by_cases hid : id = run
      · simp only [hid, if_true]
      · simp only [hid, if_false]
    | settled result => rfl
  | starting | catchingUp | stopping | leaving | draining | returned => rfl

/-- The ids of the tasks of the records. -/
def idsOf (records : Table Nat (Record H)) (number : Nat) : Option String :=
  (records.get? number).map (·.id)

/-- The runs of one task, the longest standing first, by the tasks of the records. -/
def runsIn (ids : Nat → Option String) (runs : Table Nat Run) (name : String) : List Nat :=
  (runs.entries.filter fun e => ids e.2.record = some name).map (·.1)

/-- The calls of handlers for one task, the latest first, by the tasks of the records. -/
def attemptsIn (ids : Nat → Option String) (journal : List Entry) (name : Option String) :
    List Attempt :=
  ((journal.filterMap Entry.attempt?).filter fun e => ids e.1 = name).map (·.2)

section Views

variable {records records' : Table Nat (Record H)} {number : Nat} {record : Record H}
  {ids ids' : Nat → Option String} {runs : Table Nat Run} {journal : List Entry} {k : Nat}
  {run : Run}

/-- A record that is put in carries its own id. -/
theorem idsOf_insert (records : Table Nat (Record H)) (number : Nat) (record : Record H) (n : Nat) :
    idsOf (records.insert number record) n = if number = n then some record.id else
      idsOf records n := by
  simp only [idsOf, Table.get?_insert]
  split <;> rfl

/-- A record may be replaced by another one of the same task. -/
theorem idsOf_insert_of_eq {after : Record H} (hrecord : records.get? number = some record)
    (hid : after.id = record.id) : idsOf (records.insert number after) = idsOf records := by
  funext n
  rw [idsOf_insert]
  split
  · next he => rw [idsOf, ← he, hrecord, Option.map_some, hid]
  · rfl

/-- A change of a record that leaves its id leaves all ids. -/
theorem idsOf_modify {change : Record H → Record H} (h : ∀ record, (change record).id = record.id) :
    idsOf (records.modify number change) = idsOf records := by
  funext n
  simp only [idsOf, Table.get?_modify]
  split
  · simp only [Option.map_map, Function.comp_def, h]
  · rfl

/-- A renamed record carries the same id. -/
theorem idsOf_renames (h : records.Renames ρ id records') (n : Nat) :
    idsOf records' (ρ n) = idsOf records n := by
  rw [idsOf, h n, Option.map_id]
  rfl

/-- The runs of a task are those on records that carry its id. -/
theorem mem_runsIn_iff {name : String} : k ∈ runsIn ids runs name ↔
    ∃ run, runs.get? k = some run ∧ ids run.record = some name := by
  simp only [runsIn, List.mem_map, List.mem_filter, decide_eq_true_eq]
  constructor
  · rintro ⟨⟨k, run⟩, ⟨hmem, hid⟩, rfl⟩
    exact ⟨run, Table.mem_entries_iff.1 hmem, hid⟩
  · rintro ⟨run, hrun, hid⟩
    exact ⟨(k, run), ⟨Table.mem_entries_iff.2 hrun, hid⟩, rfl⟩

/-- The tasks of the records on which runs stand are all that matters. -/
theorem runsIn_congr (h : ∀ k run, runs.get? k = some run → ids' run.record = ids run.record)
    (name : String) : runsIn ids' runs name = runsIn ids runs name := by
  unfold runsIn
  congr 1
  refine List.filter_congr fun e he => ?_
  rw [h e.1 e.2 (Table.mem_entries_iff.1 he)]

/-- A new run comes last among the runs of its task. -/
theorem runsIn_insert (h : runs.get? k = none) (run : Run) (name : String) :
    runsIn ids (runs.insert k run) name =
      runsIn ids runs name ++ if ids run.record = some name then [k] else [] := by
  rw [runsIn, Table.entries_insert_of_none h, List.filter_append, List.map_append, runsIn]
  congr 1
  simp only [List.filter_cons, List.filter_nil, decide_eq_true_eq]
  split <;> rfl

/-- A run that goes is missing from the runs of its task, in whose order nothing changes. -/
theorem runsIn_erase (k : Nat) (name : String) :
    runsIn ids (runs.erase k) name = (runsIn ids runs name).filter (· ≠ k) := by
  simp only [runsIn, Table.erase, List.filter_filter, List.filter_map, Function.comp_def,
    Bool.and_comm]

/-- A run that stays on its record keeps its place. -/
theorem runsIn_modify {change : Run → Run} (h : ∀ run, (change run).record = run.record)
    (k : Nat) (name : String) : runsIn ids (runs.modify k change) name = runsIn ids runs name := by
  simp only [runsIn, Table.modify, List.filter_map, List.map_map]
  have hsame : ∀ e : Nat × Run, (if e.1 = k then (e.1, change e.2) else e).2.record =
      e.2.record := by
    intro e
    split
    · exact h e.2
    · rfl
  simp only [Function.comp_def, hsame]
  refine List.map_congr_left fun e _ => ?_
  split <;> rfl

/-- The attempts that a journal tells of are those of its parts, in a row. -/
theorem attemptsIn_append (journal journal' : List Entry) (name : Option String) :
    attemptsIn ids (journal ++ journal') name =
      attemptsIn ids journal name ++ attemptsIn ids journal' name := by
  simp only [attemptsIn, List.filterMap_append, List.filter_append, List.map_append]

/-- Entries that tell of no call of a handler do not matter. -/
theorem attemptsIn_cons_of_none {entry : Entry} (h : entry.attempt? = none) (name : Option String) :
    attemptsIn ids (entry :: journal) name = attemptsIn ids journal name := by
  simp only [attemptsIn, List.filterMap_cons, h]

/-- The entries of an effect tell of its attempts, for the task of its record alone. -/
theorem attemptsIn_entries (effect : Effect H) (id number : Nat) (name : Option String) :
    attemptsIn ids (effect.entries id number) name =
      if ids number = name then effect.attempts else [] := by
  rw [attemptsIn, effect.tells, List.filter_map, List.map_map]
  split
  · next h => simp [Function.comp_def, h]
  · next h => simp [Function.comp_def, h]

/-- The tasks of the records that the journal tells of are all that matters. -/
theorem attemptsIn_congr
    (h : ∀ id n attempt trigger moment, .began id n attempt trigger moment ∈ journal →
      ids' n = ids n)
    (name : Option String) : attemptsIn ids' journal name = attemptsIn ids journal name := by
  unfold attemptsIn
  congr 1
  refine List.filter_congr fun e he => ?_
  obtain ⟨entry, hentry, htells⟩ := List.mem_filterMap.1 he
  cases entry with
  | began id n attempt trigger moment =>
    cases htells
    rw [h _ _ _ _ _ hentry]
  | registered | refreshed | ticked | admitted | refused | ended | recorded => cases htells

end Views

namespace State

variable {s s' s'' : State H}

/-- The runs of a task, the longest standing first. -/
def runsOf (s : State H) (name : String) : List Nat := runsIn (idsOf s.records) s.runs name

/-- The calls of the handlers of a task, the latest first. Without a task, these are the calls on
records that do not exist. -/
def attemptsOf (s : State H) (name : Option String) : List Attempt :=
  attemptsIn (idsOf s.records) s.journal name

/-- Two states differ in the numbers of their records and runs alone, and in the order in which
their tables list what belongs to different tasks. Numbers that are not used yet stay as they
are. -/
structure Mirrors (ρ : Equiv.Perm Nat) (s s' : State H) : Prop where
  bare : s'.bare = s.bare
  fixed : ∀ n, s.nextId ≤ n → ρ n = n
  records : s.records.Renames ρ id s'.records
  registry : s.registry.Renames 1 ρ s'.registry
  runs : s.runs.Renames ρ (Run.renamed ρ) s'.runs
  calls : s.calls.Renames 1 (Call.renamed ρ) s'.calls
  queues : ∀ name, s'.runsOf name = (s.runsOf name).map ρ
  attempts : ∀ name, s'.attemptsOf name = s.attemptsOf name

/-- Each state mirrors itself. -/
theorem Mirrors.refl (s : State H) : Mirrors 1 s s where
  bare := rfl
  fixed _ _ := rfl
  records := .refl _
  registry := .refl _
  runs := .refl _
  calls := by
    have h : Call.renamed 1 = id := funext Call.renamed_one
    rw [h]
    exact .refl _
  queues name := (List.map_id _).symm
  attempts _ := rfl

/-- What belongs to no task is the same in both states. -/
theorem Mirrors.same {α : Type} (h : Mirrors ρ s s') (view : State H → α) :
    view s'.bare = view s.bare :=
  congrArg view h.bare

/-- States that mirror each other have used up the same numbers. -/
theorem Mirrors.nextId (h : Mirrors ρ s s') : s'.nextId = s.nextId := h.same State.nextId

/-- The next number is not renamed. -/
theorem Mirrors.renamed_nextId (h : Mirrors ρ s s') : ρ s.nextId = s'.nextId := by
  rw [h.fixed _ (Nat.le_refl _), h.nextId]

/-- Whatever mirrors a mirrored state mirrors the first one. -/
theorem Mirrors.trans (h : Mirrors ρ s s') (h' : Mirrors τ s' s'') : Mirrors (τ * ρ) s s'' where
  bare := h'.bare.trans h.bare
  fixed n hn := by rw [Equiv.Perm.mul_apply, h.fixed n hn, h'.fixed n (h.nextId ▸ hn)]
  records := h.records.trans h'.records
  registry := h.registry.trans h'.registry
  runs := h.runs.trans h'.runs
  calls := by
    have he : Call.renamed (τ * ρ) = Call.renamed τ ∘ Call.renamed ρ :=
      funext fun call => call.renamed_renamed.symm
    rw [he]
    exact h.calls.trans h'.calls
  queues name := by rw [h'.queues, h.queues, List.map_map]; rfl
  attempts name := (h'.attempts name).trans (h.attempts name)

/-- A record is there under its new number. -/
theorem Mirrors.get?_records (h : Mirrors ρ s s') {number : Nat} {record : Record H}
    (hrecord : s.records.get? number = some record) : s'.records.get? (ρ number) = some record := by
  rw [h.records, hrecord]
  rfl

/-- A run is there under its new number, on the renamed record. -/
theorem Mirrors.get?_runs (h : Mirrors ρ s s') {id : Nat} {run : Run}
    (hrun : s.runs.get? id = some run) : s'.runs.get? (ρ id) = some (run.renamed ρ) := by
  rw [h.runs, hrun]
  rfl

/-- A call may enter the same phase on both sides. -/
theorem Mirrors.setCall (h : Mirrors ρ s s') (c : Nat) (call : Call) :
    Mirrors ρ (s.setCall c call) (s'.setCall c (call.renamed ρ)) :=
  { h with bare := h.bare, calls := h.calls.insert c call }

/-- An effect may be written down on both sides. -/
theorem Mirrors.write (h : Mirrors ρ s s') {number : Nat} {record : Record H}
    (hrecord : s.records.get? number = some record) {effect : Effect H}
    (hid : effect.record.id = record.id) (id : Nat) :
    Mirrors ρ (s.write id number effect) (s'.write (ρ id) (ρ number) effect) := by
  have hids : idsOf (s.records.insert number effect.record) = idsOf s.records :=
    idsOf_insert_of_eq hrecord hid
  have hids' : idsOf (s'.records.insert (ρ number) effect.record) = idsOf s'.records :=
    idsOf_insert_of_eq (h.get?_records hrecord) hid
  refine { h with
    bare := h.bare, records := h.records.insert number effect.record, queues := ?_, attempts := ?_ }
  · intro name
    simp only [runsOf, State.write, hids, hids']
    exact h.queues name
  · intro name
    have hrest : attemptsIn (idsOf s'.records) s'.journal name =
        attemptsIn (idsOf s.records) s.journal name := h.attempts name
    simp only [attemptsOf, State.write, hids, hids', attemptsIn_append, attemptsIn_entries,
      idsOf_renames h.records, hrest]

/-- A run may enter the same phase on both sides. -/
theorem Mirrors.setPhase (h : Mirrors ρ s s') (id : Nat) (phase : Phase) :
    Mirrors ρ (s.setPhase id phase) (s'.setPhase (ρ id) phase) := by
  refine { h with bare := h.bare, runs := h.runs.modify id fun _ => rfl, queues := fun name => ?_ }
  simp only [runsOf, State.setPhase]
  rw [runsIn_modify (by simp), runsIn_modify (by simp)]
  exact h.queues name

/-- The runs for which stops wait are mirrored. -/
theorem Mirrors.mem_dispatched_iff (h : Mirrors ρ s s') (id : Nat) :
    ρ id ∈ s'.dispatched ↔ id ∈ s.dispatched := by
  rw [State.mem_dispatched_iff, State.mem_dispatched_iff, h.runs id]
  cases s.runs.get? id with
  | none => simp
  | some run => simp [Run.renamed]

/-- Dispatched runs are left on both sides or on none. -/
theorem Mirrors.dispatched_eq_nil_iff (h : Mirrors ρ s s') :
    s'.dispatched = [] ↔ s.dispatched = [] := by
  simp only [List.eq_nil_iff_forall_not_mem, ← h.mem_dispatched_iff]
  exact ⟨fun hall id => hall (ρ id), fun hall id => by simpa using hall (ρ.symm id)⟩

/-- So whether stops are to be woken is the same on both sides. -/
theorem Mirrors.isEmpty_dispatched (h : Mirrors ρ s s') :
    s'.dispatched.isEmpty = s.dispatched.isEmpty := by
  rw [Bool.eq_iff_iff, List.isEmpty_iff, List.isEmpty_iff, h.dispatched_eq_nil_iff]

/-- Stops that wait are woken in both states or in none. -/
theorem Mirrors.wakeStops (h : Mirrors ρ s s') : Mirrors ρ s.wakeStops s'.wakeStops := by
  have hclosed : s'.closed = s.closed := h.same State.closed
  have hguard : (s'.closed && s'.dispatched.isEmpty) = (s.closed && s.dispatched.isEmpty) := by
    rw [hclosed, h.isEmpty_dispatched]
  unfold State.wakeStops
  by_cases hwakes : (s.closed && s.dispatched.isEmpty) = true
  · rw [if_pos hwakes, if_pos (hguard.trans hwakes)]
    refine { h with bare := h.bare, calls := fun c => ?_ }
    have hcall := h.calls c
    rw [Table.get?, Table.get?, Table.lookup_map, Table.lookup_map, Option.map_map]
    rw [Table.get?, Table.get?] at hcall
    simp only [hcall, Option.map_map, Function.comp_def, Call.renamed_wake]
  · rw [if_neg hwakes, if_neg (hguard ▸ hwakes)]
    exact h

/-- A run may be dropped with its outcome on both sides. -/
theorem Mirrors.finish (h : Mirrors ρ s s') (id : Nat) (run : Run) (outcome : RunOutcome) :
    Mirrors ρ (s.finish id run outcome) (s'.finish (ρ id) (run.renamed ρ) outcome) := by
  have herased : Mirrors ρ { s with runs := s.runs.erase id }
      { s' with runs := s'.runs.erase (ρ id) } := by
    refine { h with bare := h.bare, runs := h.runs.erase id, queues := fun name => ?_ }
    have hrest : runsIn (idsOf s'.records) s'.runs name = (s.runsOf name).map ρ := h.queues name
    simp only [runsOf, runsIn_erase, hrest, List.filter_map, Function.comp_def, ne_eq,
      ρ.injective.eq_iff]
  obtain ⟨record, trigger, owner, phase⟩ := run
  cases owner with
  | dispatched => exact herased.wakeStops
  | call c =>
    exact { herased with
      bare := h.bare
      calls := h.calls.modify c fun call => (call.renamed_deliver id outcome).symm }

/-- The effect of a step of a run is mirrored. -/
theorem Mirrors.perform (h : Mirrors ρ s s') {id : Nat} {run : Run} {record : Record H}
    (hrecord : s.records.get? run.record = some record) {effect : Effect H}
    (hid : effect.record.id = record.id) :
    Mirrors ρ (s.perform id run effect) (s'.perform (ρ id) (run.renamed ρ) effect) := by
  have hwrite := h.write hrecord hid id
  unfold State.perform
  cases effect.fate with
  | ok phase => exact hwrite.setPhase id phase
  | error outcome => exact hwrite.finish id run outcome

/-- A spawned run is mirrored. -/
theorem Mirrors.spawn (h : Mirrors ρ s s') (hfresh : s.runs.get? s.nextId = none) (number : Nat)
    (trigger : Trigger) (owner : Owner) :
    Mirrors ρ (s.spawn number trigger owner) (s'.spawn (ρ number) trigger owner) := by
  have hfresh' : s'.runs.get? s'.nextId = none := by
    rw [← h.renamed_nextId, h.runs, hfresh]
    rfl
  refine { h with
    bare := congrArg (fun b : State H => { b with nextId := b.nextId + 1 }) h.bare
    fixed := fun n hn => h.fixed n (Nat.le_of_succ_le hn)
    runs := ?_
    queues := fun name => ?_ }
  · have hruns := h.runs.insert s.nextId ⟨number, trigger, owner, .spawned⟩
    rwa [h.renamed_nextId] at hruns
  · have hrest : runsIn (idsOf s'.records) s'.runs name = (s.runsOf name).map ρ := h.queues name
    simp only [runsOf, State.spawn, runsIn_insert hfresh, runsIn_insert hfresh', hrest,
      idsOf_renames h.records, List.map_append]
    congr 1
    split
    · rw [List.map_singleton, h.renamed_nextId]
    · rfl

end State

end Scheduler

end CronDaemon
