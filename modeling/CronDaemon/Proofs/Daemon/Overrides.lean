import CronDaemon.Daemon.Startup
import CronDaemon.Proofs.Settings.Merging
import CronDaemon.Zone.Known

/-!
# Overrides of tasks

What layers of settings say about a task is merged setting by setting, and what comes of it is
applied to the specification of the task. It makes no difference whether layers are merged before
they are applied or applied one after the other: either way each of the three settings of a task has
the value of the uppermost layer that sets it, and the value of the specification where none does.
-/

namespace CronDaemon.Daemon

open Job Settings

variable {H : Type}

/-- What the settings change about a task counts, as far as they change it. -/
theorem applyOverride_eq (spec : TaskSpec H) (config : SchedulerConfig) :
    applyOverride spec config = { spec with
      schedule := ((config.tasks.get? spec.id).bind (·.schedule)).or spec.schedule
      enabled := ((config.tasks.get? spec.id).bind (·.enabled)).getD spec.enabled
      skippable := ((config.tasks.get? spec.id).bind (·.skippable)).getD spec.skippable } := by
  rw [applyOverride]
  cases config.tasks.get? spec.id <;> rfl

/-- A layer changes of a specification what it sets about the task. -/
theorem applyOverride_resolveScheduler (spec : TaskSpec H) (layer : Layer) :
    applyOverride spec layer.resolveScheduler = { spec with
      schedule := (layer.read (.taskSchedule spec.id)).or spec.schedule
      enabled := (layer.read (.taskEnabled spec.id)).getD spec.enabled
      skippable := (layer.read (.taskSkippable spec.id)).getD spec.skippable } := by
  have hchange : layer.resolveScheduler.tasks.get? spec.id = layer.override? spec.id :=
    layer.get?_tasks_resolve spec.id
  rw [applyOverride_eq, hchange]
  rfl

/-- Of several layers the uppermost one that sets something about the task counts. -/
theorem applyOverride_mergeAll (spec : TaskSpec H) (layers : List Layer) :
    applyOverride spec (Layer.mergeAll layers).resolveScheduler = { spec with
      schedule := (Layer.uppermost? layers (.taskSchedule spec.id)).or spec.schedule
      enabled := (Layer.uppermost? layers (.taskEnabled spec.id)).getD spec.enabled
      skippable := (Layer.uppermost? layers (.taskSkippable spec.id)).getD spec.skippable } := by
  rw [applyOverride_resolveScheduler, Layer.read_mergeAll, Layer.read_mergeAll, Layer.read_mergeAll]
  rfl

/-- A layer over another is applied after it. -/
theorem applyOverride_merge (spec : TaskSpec H) (lower upper : Layer) :
    applyOverride spec (lower.merge upper).resolveScheduler =
      applyOverride (applyOverride spec lower.resolveScheduler) upper.resolveScheduler := by
  simp only [applyOverride_resolveScheduler, Layer.read_merge, Option.or_assoc, Option.getD_or]

/-- Settings change no more than the schedule and the two flags of a task. -/
theorem applyOverride_eq_self_with (spec : TaskSpec H) (config : SchedulerConfig) :
    applyOverride spec config = { spec with
      schedule := (applyOverride spec config).schedule
      enabled := (applyOverride spec config).enabled
      skippable := (applyOverride spec config).skippable } := by
  rw [applyOverride_eq]

/-- Settings that were applied have nothing left to change. -/
theorem applyOverride_applyOverride (spec : TaskSpec H) (config : SchedulerConfig) :
    applyOverride (applyOverride spec config) config = applyOverride spec config := by
  have hflag : ∀ (change : Option Bool) (flag : Bool), change.getD (change.getD flag) =
      change.getD flag := by
    intro change flag
    cases change <;> rfl
  rw [applyOverride_eq spec, applyOverride_eq]
  simp only [← Option.or_assoc, Option.or_self, hflag]

/-- Applying the merge of layers to a specification comes to the same as applying the layers one
after the other, the lowest first: of each setting of the task the uppermost layer that sets it
decides. The checks of the settings make no difference to it. Whatever the settings, they change no
more than the schedule and the two flags of a task, and applying them again changes nothing. -/
theorem applyOverride_mergeAll_eq_foldl (spec : TaskSpec H) (layers : List Layer) :
    applyOverride spec (Layer.mergeAll layers).resolveScheduler =
      layers.foldl (fun spec layer => applyOverride spec layer.resolveScheduler) spec ∧
    applyOverride spec (Layer.mergeAll layers).resolveScheduler = { spec with
      schedule := (Layer.uppermost? layers (.taskSchedule spec.id)).or spec.schedule
      enabled := (Layer.uppermost? layers (.taskEnabled spec.id)).getD spec.enabled
      skippable := (Layer.uppermost? layers (.taskSkippable spec.id)).getD spec.skippable } ∧
    (∀ (zones : Zone.Database) (layer : Layer) (config : Config),
      layer.finalize zones = .ok config → config.scheduler = layer.resolveScheduler) ∧
    ∀ config : SchedulerConfig,
      applyOverride spec config = { spec with
        schedule := (applyOverride spec config).schedule
        enabled := (applyOverride spec config).enabled
        skippable := (applyOverride spec config).skippable } ∧
      applyOverride (applyOverride spec config) config = applyOverride spec config := by
  refine ⟨?_, applyOverride_mergeAll spec layers,
    fun zones layer config hconfig => congrArg Config.scheduler
      (Layer.eq_resolve_of_finalize hconfig),
    fun config => ⟨applyOverride_eq_self_with spec config, applyOverride_applyOverride spec config⟩⟩
  -- The last layer is applied last, so that the induction goes from the top of the pile down.
  induction layers using List.reverseRecOn with
  | nil => rfl
  | append_singleton layers top ih =>
    rw [Layer.mergeAll_append_singleton, applyOverride_merge, ih, List.foldl_append]
    rfl

/-- Two layers that set the backup: the lower one gives it a schedule and switches it off, the upper
one switches it on and lets it skip missed runs. -/
def backupLayers : List Layer :=
  let about (change : TaskOverride) : Layer :=
    { scheduler := some { tasks := some (Table.empty.insert "backup" change) } }
  [about { schedule := some "@every 5m", enabled := some false },
    about { enabled := some true, skippable := some true }]

/-- The layers merge to settings that pass the checks. Applied to the backup these come to the same
as the layers one after the other. -/
theorem applyOverride_mergeAll_eq_foldl_of_backupLayers :
    ∃ config, (Layer.mergeAll backupLayers).finalize Zone.known = .ok config ∧
      applyOverride (.new "backup" ()) config.scheduler =
        { TaskSpec.new "backup" () with schedule := some "@every 5m", skippable := true } ∧
      applyOverride (.new "backup" ()) config.scheduler =
        backupLayers.foldl (fun spec layer => applyOverride spec layer.resolveScheduler)
          (.new "backup" ()) := by
  obtain ⟨hfold, -, hscheduler, -⟩ := applyOverride_mergeAll_eq_foldl
    (.new "backup" ()) backupLayers
  have hfinal : (Layer.mergeAll backupLayers).finalize Zone.known =
      .ok (Layer.mergeAll backupLayers).resolve := by
    decide
  have hconfig := hscheduler _ _ _ hfinal
  refine ⟨_, hfinal, by decide, ?_⟩
  rw [hconfig, hfold]

end CronDaemon.Daemon
