import CronDaemon.Settings.Config
import Mathlib.Data.List.Induction

/-!
# Merging layers

A layer is looked at one setting at a time: laying a layer over another gives each setting the value
of the upper layer where it sets one and else that of the lower layer, through the sections and the
overrides of the tasks. So of any number of layers the last one that sets a setting decides it, and
what none of them sets takes its built-in value.
-/

namespace CronDaemon.Settings

/-- A single setting, by the kind of its values. -/
inductive Leaf : Type → Type
  | enabled : Leaf Bool
  | timezone : Leaf String
  | catchUpWindowSecs : Leaf Nat
  | taskTimeoutSecs : Leaf Nat
  | shutdownGraceSecs : Leaf Nat
  | maxConcurrentTasks : Leaf Nat
  | level : Leaf String
  | taskSchedule (id : String) : Leaf String
  | taskEnabled (id : String) : Leaf Bool
  | taskSkippable (id : String) : Leaf Bool

/-- The built-in value of a setting. -/
def Leaf.default? {α : Type} : Leaf α → Option α
  | enabled => some true
  | timezone => some "UTC"
  | catchUpWindowSecs => some 86400
  | taskTimeoutSecs => some 300
  | shutdownGraceSecs => some 30
  | level => some "info"
  | maxConcurrentTasks | taskSchedule _ | taskEnabled _ | taskSkippable _ => none

section

variable {α β : Type}

theorem mergeSections_eq_merge (merge : α → α → α) : mergeSections merge = Option.merge merge := by
  funext lower upper
  cases lower <;> cases upper <;> rfl

/-- The upper of two values where there are both. -/
theorem or_eq_merge (lower upper : Option α) :
    upper.or lower = lower.merge (fun _ upper => upper) upper := by
  cases lower <;> cases upper <;> rfl

/-- Where a part of a section is merged by a rule of its own, so it is through optional sections. -/
theorem bind_mergeSections {merge : α → α → α} {rule : β → β → β} {part : α → Option β}
    (h : ∀ lower upper, part (merge lower upper) = (part lower).merge rule (part upper))
    (lower upper : Option α) : (mergeSections merge lower upper).bind part =
      (lower.bind part).merge rule (upper.bind part) := by
  cases lower with
  | none =>
    rw [Option.bind_none, Option.merge_none_left]
    cases upper <;> rfl
  | some lower =>
    cases upper with
    | none => exact Option.merge_none_right.symm
    | some upper => exact h lower upper

/-- Sections are merged in a row in whatever way, if their settings can be. -/
theorem mergeSections_assoc (merge : α → α → α) [Std.Associative merge] (a b c : Option α) :
    mergeSections merge (mergeSections merge a b) c = mergeSections merge a
      (mergeSections merge b c) := by
  rw [mergeSections_eq_merge]
  exact Std.Associative.assoc a b c

/-- A section that is merged with itself stays the same, if its settings do. -/
theorem mergeSections_self (merge : α → α → α) [Std.IdempotentOp merge] (a : Option α) :
    mergeSections merge a a = a := by
  rw [mergeSections_eq_merge]
  exact Std.IdempotentOp.idempotent a

/-- A merged section is there if one of the two is. -/
theorem isSome_mergeSections (merge : α → α → α) (lower upper : Option α) :
    (mergeSections merge lower upper).isSome = (lower.isSome || upper.isSome) := by
  cases lower <;> cases upper <;> rfl

end

instance : Std.Associative TaskOverride.merge where
  assoc a b c := by simp only [TaskOverride.merge, Option.or_assoc]

instance : Std.IdempotentOp TaskOverride.merge where
  idempotent a := by simp only [TaskOverride.merge, Option.or_self]

instance : Std.Associative (@Table.mergeWith String _ _ TaskOverride.merge) where
  assoc := Table.mergeWith_assoc _

instance : Std.IdempotentOp (@Table.mergeWith String _ _ TaskOverride.merge) where
  idempotent := Table.mergeWith_self _

instance : Std.Associative SchedulerLayer.merge where
  assoc a b c := by simp only [SchedulerLayer.merge, Option.or_assoc, mergeSections_assoc]

instance : Std.IdempotentOp SchedulerLayer.merge where
  idempotent a := by simp only [SchedulerLayer.merge, Option.or_self, mergeSections_self]

instance : Std.Associative LoggingLayer.merge where
  assoc a b c := by simp only [LoggingLayer.merge, Option.or_assoc]

instance : Std.IdempotentOp LoggingLayer.merge where
  idempotent a := by simp only [LoggingLayer.merge, Option.or_self]

namespace Layer

/-- What a layer changes about a task. -/
def override? (layer : Layer) (id : String) : Option TaskOverride :=
  (layer.scheduler.bind (·.tasks)).bind (·.get? id)

/-- The value that a layer gives a setting. -/
def read {α : Type} (layer : Layer) : Leaf α → Option α
  | .enabled => layer.scheduler.bind (·.enabled)
  | .timezone => layer.scheduler.bind (·.timezone)
  | .catchUpWindowSecs => layer.scheduler.bind (·.catchUpWindowSecs)
  | .taskTimeoutSecs => layer.scheduler.bind (·.taskTimeoutSecs)
  | .shutdownGraceSecs => layer.scheduler.bind (·.shutdownGraceSecs)
  | .maxConcurrentTasks => layer.scheduler.bind (·.maxConcurrentTasks)
  | .level => layer.logging.bind (·.level)
  | .taskSchedule id => (layer.override? id).bind (·.schedule)
  | .taskEnabled id => (layer.override? id).bind (·.enabled)
  | .taskSkippable id => (layer.override? id).bind (·.skippable)

/-- Layers are merged in a row in whatever way. -/
theorem merge_assoc (a b c : Layer) : (a.merge b).merge c = a.merge (b.merge c) := by
  simp only [merge, mergeSections_assoc]

/-- A layer that is merged with itself stays the same. -/
theorem merge_self (a : Layer) : a.merge a = a := by
  simp only [merge, mergeSections_self]

/-- Nothing comes of an empty layer below another. -/
theorem empty_merge (a : Layer) : empty.merge a = a := by
  simp only [merge, empty, mergeSections_eq_merge, Option.merge_none_left]

/-- Nor of one above. -/
theorem merge_empty (a : Layer) : a.merge empty = a := by
  simp only [merge, empty, mergeSections_eq_merge, Option.merge_none_right]

/-- The override of a task is merged setting by setting. -/
theorem override?_merge (lower upper : Layer) (id : String) : (lower.merge upper).override? id =
    (lower.override? id).merge TaskOverride.merge (upper.override? id) := by
  have htasks : (lower.merge upper).scheduler.bind (·.tasks) =
      (lower.scheduler.bind (·.tasks)).merge (Table.mergeWith TaskOverride.merge)
        (upper.scheduler.bind (·.tasks)) :=
    bind_mergeSections (fun _ _ => congrFun (congrFun (mergeSections_eq_merge _) _) _) _ _
  rw [override?, htasks, ← mergeSections_eq_merge]
  exact bind_mergeSections (fun _ _ => Table.get?_mergeWith ..) _ _

/-- A setting has the value that the upper layer gives it, or else that of the lower one. -/
theorem read_merge {α : Type} (lower upper : Layer) (leaf : Leaf α) :
    (lower.merge upper).read leaf = (upper.read leaf).or (lower.read leaf) := by
  have hsection : ∀ {σ β : Type} {merge : σ → σ → σ} {part : σ → Option β},
      (∀ a b, part (merge a b) = (part b).or (part a)) → ∀ a b : Option σ,
      (mergeSections merge a b).bind part = (b.bind part).or (a.bind part) := by
    intro σ β merge part h a b
    rw [or_eq_merge]
    exact bind_mergeSections (fun a b => (h a b).trans (or_eq_merge ..)) a b
  cases leaf with
  | enabled | timezone | catchUpWindowSecs | taskTimeoutSecs | shutdownGraceSecs
  | maxConcurrentTasks
  | level => exact hsection (fun _ _ => rfl) _ _
  | taskSchedule | taskEnabled | taskSkippable =>
    rw [read, override?_merge, ← mergeSections_eq_merge]
    exact hsection (fun _ _ => rfl) _ _

/-- A task is overridden in merged layers if it is in one of the two. -/
theorem isSome_override?_merge (lower upper : Layer) (id : String) :
    ((lower.merge upper).override? id).isSome =
      ((lower.override? id).isSome || (upper.override? id).isSome) := by
  rw [override?_merge, ← mergeSections_eq_merge, isSome_mergeSections]

@[simp] theorem mergeAll_nil : mergeAll [] = empty := rfl

/-- A layer at the bottom that sets nothing changes nothing. -/
theorem mergeAll_empty_cons (layers : List Layer) :
    mergeAll (empty :: layers) = mergeAll layers := by
  rw [mergeAll, List.foldl_cons, empty_merge]
  rfl

@[simp] theorem mergeAll_append_singleton (layers : List Layer) (top : Layer) :
    mergeAll (layers ++ [top]) = (mergeAll layers).merge top := by
  rw [mergeAll, List.foldl_append]
  rfl

/-- An empty layer sets nothing. -/
theorem read_empty {α : Type} (leaf : Leaf α) : empty.read leaf = none := by
  cases leaf <;> rfl

/-- Of several layers the last one that sets a setting counts. -/
theorem read_mergeAll {α : Type} (layers : List Layer) (leaf : Leaf α) :
    (mergeAll layers).read leaf = layers.reverse.findSome? (·.read leaf) := by
  induction layers using List.reverseRecOn with
  | nil => exact read_empty leaf
  | append_singleton layers top ih =>
    rw [mergeAll_append_singleton, read_merge, ih, List.reverse_append, List.reverse_singleton,
      List.singleton_append, List.findSome?_cons]
    cases top.read leaf <;> rfl

/-- What is there in a merged layer exactly if it is in one of the two is there in several merged
layers exactly if it is in one of them. -/
theorem isSome_mergeAll {α : Type} (view : Layer → Option α) (hempty : view empty = none)
    (hmerge : ∀ a b, (view (a.merge b)).isSome = ((view a).isSome || (view b).isSome))
    (layers : List Layer) :
    (view (mergeAll layers)).isSome = true ↔ ∃ layer ∈ layers, (view layer).isSome = true := by
  induction layers using List.reverseRecOn with
  | nil => simp [hempty]
  | append_singleton layers top ih =>
    rw [mergeAll_append_singleton, hmerge, Bool.or_eq_true, ih]
    simp only [List.mem_append, List.mem_singleton, or_and_right, exists_or, exists_eq_left]

/-- The value is the one of the last layer that sets the setting. -/
def SetsLast {α : Type} (layers : List Layer) (leaf : Leaf α) (v : α) : Prop :=
  ∃ below layer above, layers = below ++ layer :: above ∧ layer.read leaf = some v ∧
    ∀ other ∈ above, other.read leaf = none

/-- Merged layers set what the last layer sets that sets it at all. -/
theorem read_mergeAll_eq_some_iff {α : Type} {layers : List Layer} {leaf : Leaf α} {v : α} :
    (mergeAll layers).read leaf = some v ↔ SetsLast layers leaf v := by
  rw [read_mergeAll, List.findSome?_eq_some_iff]
  constructor
  · rintro ⟨above, layer, below, hsplit, hread, hrest⟩
    refine ⟨below.reverse, layer, above.reverse, ?_, hread, fun other hother => ?_⟩
    · rw [← List.reverse_reverse layers, hsplit, List.reverse_append, List.reverse_cons,
        List.append_assoc, List.singleton_append]
    · exact hrest other (List.mem_reverse.1 hother)
  · rintro ⟨below, layer, above, rfl, hread, hrest⟩
    refine ⟨above.reverse, layer, below.reverse, ?_, hread, fun other hother => ?_⟩
    · rw [List.reverse_append, List.reverse_cons, List.append_assoc, List.singleton_append]
    · exact hrest other (List.mem_reverse.1 hother)

/-- Merged layers leave what each of them leaves. -/
theorem read_mergeAll_eq_none_iff {α : Type} {layers : List Layer} {leaf : Leaf α} :
    (mergeAll layers).read leaf = none ↔ ∀ layer ∈ layers, layer.read leaf = none := by
  rw [read_mergeAll, List.findSome?_eq_none_iff]
  simp only [List.mem_reverse]

end Layer

/-- The value that resolved settings give a setting. -/
def Config.read {α : Type} (config : Config) : Leaf α → Option α
  | .enabled => some config.scheduler.enabled
  | .timezone => some config.scheduler.timezone
  | .catchUpWindowSecs => some config.scheduler.catchUpWindowSecs
  | .taskTimeoutSecs => some config.scheduler.taskTimeoutSecs
  | .shutdownGraceSecs => some config.scheduler.shutdownGraceSecs
  | .maxConcurrentTasks => config.scheduler.maxConcurrentTasks
  | .level => some config.logging.level
  | .taskSchedule id => (config.scheduler.tasks.get? id).bind (·.schedule)
  | .taskEnabled id => (config.scheduler.tasks.get? id).bind (·.enabled)
  | .taskSkippable id => (config.scheduler.tasks.get? id).bind (·.skippable)

namespace Layer

/-- The overrides of the tasks are taken over as they are. -/
theorem get?_tasks_resolve (layer : Layer) (id : String) :
    layer.resolve.scheduler.tasks.get? id = layer.override? id := by
  cases hscheduler : layer.scheduler with
  | none => simp [resolve, resolveScheduler, SchedulerLayer.resolve, override?, hscheduler]
  | some scheduler =>
    cases htasks : scheduler.tasks <;>
      simp [resolve, resolveScheduler, SchedulerLayer.resolve, override?, hscheduler, htasks]

/-- A part of a section that is left open, be it with the whole section, takes a value of its
own. -/
theorem some_getD_eq_or {σ α : Type} {blank : σ} {part : σ → Option α} (hblank : part blank = none)
    (values : Option σ) (v : α) :
    some ((part (values.getD blank)).getD v) = (values.bind part).or (some v) := by
  cases values with
  | none => rw [Option.getD_none, hblank]; rfl
  | some values =>
    rw [Option.getD_some, Option.bind_some]
    cases part values <;> rfl

/-- A setting that a layer leaves open takes its built-in value. -/
theorem read_resolve {α : Type} (layer : Layer) (leaf : Leaf α) :
    layer.resolve.read leaf = (layer.read leaf).or leaf.default? := by
  cases leaf with
  | taskSchedule | taskEnabled | taskSkippable =>
    rw [Config.read, get?_tasks_resolve]
    exact Option.or_none.symm
  | enabled | timezone | catchUpWindowSecs | taskTimeoutSecs | shutdownGraceSecs | level =>
    exact some_getD_eq_or rfl _ _
  | maxConcurrentTasks =>
    refine Eq.trans ?_ Option.or_none.symm
    cases hscheduler : layer.scheduler <;>
      simp only [Config.read, read, resolve, resolveScheduler, SchedulerLayer.resolve, hscheduler]
        <;> rfl

/-- The value of a setting in the uppermost of the layers that sets it. -/
def uppermost? {α : Type} (layers : List Layer) (leaf : Leaf α) : Option α :=
  layers.reverse.findSome? (·.read leaf)

/-- A resolved setting has the value of the uppermost layer that sets it, or else its built-in
one. -/
theorem read_resolve_mergeAll_eq {α : Type} (layers : List Layer) (leaf : Leaf α) :
    (mergeAll layers).resolve.read leaf = (uppermost? layers leaf).or leaf.default? := by
  rw [read_resolve, read_mergeAll]
  rfl

/-- What the checks let through is the layer with its open settings filled. -/
theorem eq_resolve_of_finalize {zones : Zone.Database} {layer : Layer} {config : Config}
    (h : layer.finalize zones = .ok config) : config = layer.resolve := by
  rw [finalize] at h
  split at h
  · cases h
  · exact (Except.ok.inj h).symm

/-- Of layers that are laid over each other the last one that sets a setting decides its value, and
a setting that none of them sets stays open; a section, and an override of a task, are there exactly
if one of the layers has them. So it makes no difference in which order neighbours are combined, nor
whether a layer is laid over itself, and the layer that sets nothing changes nothing. The built-in
values are taken exactly for the settings that no layer sets. -/
theorem mergeAll_keeps_last (layers : List Layer) :
    (∀ {α : Type} (leaf : Leaf α),
      (∀ v, (mergeAll layers).read leaf = some v ↔ SetsLast layers leaf v) ∧
      ((mergeAll layers).read leaf = none ↔ ∀ layer ∈ layers, layer.read leaf = none) ∧
      ∀ v, (mergeAll layers).resolve.read leaf = some v ↔ SetsLast layers leaf v ∨
        (∀ layer ∈ layers, layer.read leaf = none) ∧ leaf.default? = some v) ∧
    (∀ id, ((mergeAll layers).override? id).isSome = true ↔
      ∃ layer ∈ layers, (layer.override? id).isSome = true) ∧
    (∀ id, (mergeAll layers).resolve.scheduler.tasks.get? id = (mergeAll layers).override? id) ∧
    ((mergeAll layers).scheduler.isSome = true ↔ ∃ layer ∈ layers, layer.scheduler.isSome = true) ∧
    ((mergeAll layers).logging.isSome = true ↔ ∃ layer ∈ layers, layer.logging.isSome = true) ∧
    (∀ zones config, (mergeAll layers).finalize zones = .ok config →
      config = (mergeAll layers).resolve) ∧
    (∀ a b c : Layer, (a.merge b).merge c = a.merge (b.merge c)) ∧
    ∀ a : Layer, empty.merge a = a ∧ a.merge empty = a ∧ a.merge a = a := by
  refine ⟨fun leaf => ⟨fun v => read_mergeAll_eq_some_iff, read_mergeAll_eq_none_iff, fun v => ?_⟩,
    fun id => isSome_mergeAll (·.override? id) rfl
      (fun a b => isSome_override?_merge a b id) layers,
    fun id => get?_tasks_resolve _ id,
    isSome_mergeAll (·.scheduler) rfl (fun a b => isSome_mergeSections ..) layers,
    isSome_mergeAll (·.logging) rfl (fun a b => isSome_mergeSections ..) layers,
    fun zones config => eq_resolve_of_finalize, merge_assoc,
    fun a => ⟨empty_merge a, merge_empty a, merge_self a⟩⟩
  rw [read_resolve, Option.or_eq_some_iff, read_mergeAll_eq_some_iff, read_mergeAll_eq_none_iff]

end Layer

end CronDaemon.Settings
