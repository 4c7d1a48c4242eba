import CronDaemon.Proofs.Daemon.Overrides
import CronDaemon.Proofs.Scheduler.Refusals

/-!
# What the startup comes to

The startup takes each setting from the uppermost layer that sets it. It fails for a zone that is
not known, for a schedule of the status report that cannot be read, and where it breaks off: the
worker pool is too large, or the next run of the report cannot be computed. Otherwise it leaves a
stopped scheduler with the status report as its only task.
-/

namespace CronDaemon

namespace Settings

/-- Whether a setting is about a task other than that of an id. -/
def Leaf.isOfOther {α : Type} (id : String) : Leaf α → Bool
  | taskSchedule other | taskEnabled other | taskSkippable other => other ≠ id
  | enabled | timezone | catchUpWindowSecs | taskTimeoutSecs | shutdownGraceSecs
  | maxConcurrentTasks
  | level => false

end Settings

namespace Daemon

open Job Scheduler Settings

variable {H : Type}

/-- The name of the zone that the layers ask for. -/
def zoneName (layers : List Layer) : String := (Layer.uppermost? layers .timezone).getD "UTC"

/-- The options that the layers give a scheduler in a zone. -/
def optionsFor (zone : Zone) (layers : List Layer) : Options := { Options.standard with
  zone := zone
  catchUpWindow := .ofSecs ((Layer.uppermost? layers .catchUpWindowSecs).getD 86400)
  taskTimeout := .ofSecs ((Layer.uppermost? layers .taskTimeoutSecs).getD 300)
  shutdownGrace := .ofSecs ((Layer.uppermost? layers .shutdownGraceSecs).getD 30)
  maxConcurrentTasks := Layer.uppermost? layers .maxConcurrentTasks }

/-- The status report as the layers have it registered. -/
def reportSpec (report : H) (layers : List Layer) : TaskSpec H := { StatusReport.spec report with
  schedule := some
    ((Layer.uppermost? layers (.taskSchedule StatusReport.id)).getD StatusReport.schedule)
  enabled := (Layer.uppermost? layers (.taskEnabled StatusReport.id)).getD true
  skippable := (Layer.uppermost? layers (.taskSkippable StatusReport.id)).getD true }

/-- A stopped scheduler with the options of the layers, and the status report as its only task. -/
structure IsStartupOf (report : H) (layers : List Layer) (zone : Zone) (now : Instant)
    (s : State H) : Prop where
  options : s.options = optionsFor zone layers
  running : s.running = false
  handle : s.handle = none
  runs : s.runs = Table.empty
  loops : s.loops = Table.empty
  calls : s.calls = Table.empty
  taskIds : s.taskIds = [StatusReport.id]
  task : ∃ number record, s.tasks = [(number, record)] ∧
    record.IsFresh zone now.clockReading (reportSpec report layers)

/-- The resolved settings name the zone that the layers ask for. -/
theorem timezone_mergeAll (layers : List Layer) :
    (Layer.mergeAll layers).resolveScheduler.timezone = zoneName layers := by
  have hread := Layer.read_resolve_mergeAll_eq layers .timezone
  rw [show Leaf.timezone.default? = some "UTC" from rfl, Option.or_some] at hread
  exact Option.some.inj hread

/-- The resolved settings have the options of the layers, if the zone is known. -/
theorem optionsOf_mergeAll (zones : Zone.Database) (layers : List Layer) :
    optionsOf zones (Layer.mergeAll layers).resolveScheduler =
      match zones (zoneName layers) with
      | some zone => .ok (optionsFor zone layers)
      | none => .error (.invalidValue timezoneKey .unknownZone) := by
  have hread : ∀ {α : Type} (leaf : Leaf α) (v : α), leaf.default? = some v →
      (Layer.mergeAll layers).resolve.read leaf = some ((Layer.uppermost? layers leaf).getD v) := by
    intro α leaf v hdefault
    rw [Layer.read_resolve_mergeAll_eq, hdefault, Option.or_some]
  have hwindow : (Layer.mergeAll layers).resolveScheduler.catchUpWindowSecs = _ :=
    Option.some.inj (hread .catchUpWindowSecs _ rfl)
  have htimeout : (Layer.mergeAll layers).resolveScheduler.taskTimeoutSecs = _ :=
    Option.some.inj (hread .taskTimeoutSecs _ rfl)
  have hgrace : (Layer.mergeAll layers).resolveScheduler.shutdownGraceSecs = _ :=
    Option.some.inj (hread .shutdownGraceSecs _ rfl)
  have hpool : (Layer.mergeAll layers).resolveScheduler.maxConcurrentTasks = _ :=
    (Layer.read_resolve_mergeAll_eq layers .maxConcurrentTasks).trans Option.or_none
  rw [optionsOf, SchedulerConfig.zone, timezone_mergeAll, hwindow, htimeout, hgrace, hpool]
  cases zones (zoneName layers) <;> rfl

/-- Settings that pass the checks ask for a known zone. -/
theorem exists_zone_of_finalize {zones : Zone.Database} {layers : List Layer} {config : Config}
    (h : (Layer.mergeAll layers).finalize zones = .ok config) :
    ∃ zone, zones (zoneName layers) = some zone := by
  refine Option.isSome_iff_exists.1 ?_
  by_contra hunknown
  have hnone : (zones (Layer.mergeAll layers).resolveScheduler.timezone).isNone = true := by
    rw [timezone_mergeAll]
    simpa using hunknown
  rw [Layer.finalize, SchedulerConfig.violation?, if_pos hnone] at h
  cases h

/-- The settings override the status report as the layers say. -/
theorem applyOverride_report (report : H) (layers : List Layer) :
    applyOverride (StatusReport.spec report) (Layer.mergeAll layers).resolveScheduler =
      reportSpec report layers := by
  rw [applyOverride_mergeAll, reportSpec, ← Option.or_some]
  rfl

/-- What the startup comes to, by the settings of the layers. -/
theorem build_mergeAll (zones : Zone.Database) (report : H) (layers : List Layer) (now : Instant) :
    build zones report (Layer.mergeAll layers).resolveScheduler now =
      match zones (zoneName layers) with
      | none => .error (.config (.invalidValue timezoneKey .unknownZone))
      | some zone =>
        if (optionsFor zone layers).areFeasible then
          ((State.initial (optionsFor zone layers) now).register
            (reportSpec report layers)).mapError .scheduler
        else .error (.broken .oversizedPool) := by
  rw [build, optionsOf_mergeAll, applyOverride_report]
  cases zones (zoneName layers) with
  | none => rfl
  | some zone =>
    simp only [Except.mapError, bind, Except.bind, State.create?]
    cases (optionsFor zone layers).areFeasible <;> rfl

/-- The built-in schedule can be read. -/
theorem parse_schedule :
    Cron.Schedule.parse StatusReport.schedule = .ok (.every (.ofSecs 300)) := by
  decide

/-- A schedule of the layers that counts is the one of the report. -/
theorem expression?_reportSpec {report : H} {layers : List Layer} {text : String}
    (hset : Layer.uppermost? layers (.taskSchedule StatusReport.id) = some text)
    (hcounts : Text.isBlankText text = false) :
    expression? (reportSpec report layers) = some text := by
  refine expression?_eq_some_iff.2 ⟨?_, hcounts⟩
  show some ((Layer.uppermost? layers (.taskSchedule StatusReport.id)).getD _) = some text
  rw [hset, Option.getD_some]

/-- The registration of the report is refused for a schedule of the layers that counts and cannot be
read, or else because its next run cannot be computed. -/
theorem register_report_eq_error_iff {report : H} {layers : List Layer} {s : State H}
    {error : SchedulerError} : s.register (reportSpec report layers) = .error error ↔
      (∃ text cause, Layer.uppermost? layers (.taskSchedule StatusReport.id) = some text ∧
        Text.isBlankText text = false ∧ Cron.Schedule.parse text = .error cause ∧
        error = .invalidSchedule StatusReport.id cause) ∨
      ∃ schedule fault,
        (expression? (reportSpec report layers)).mapM Cron.Schedule.parse = .ok schedule ∧
        nextRun s.options.zone schedule s.reading = .error fault ∧ error = .broken fault := by
  have hid : Text.isBlankText (reportSpec report layers).id = false := by
    show Text.isBlankText StatusReport.id = false
    decide
  have hrefused : s.register (reportSpec report layers) = .error error ↔
      Record.Defect s.options.zone s.reading (reportSpec report layers) error := by
    rw [← Record.ofSpec_eq_error_iff, State.register]
    cases Record.ofSpec s.options.zone s.reading (reportSpec report layers) <;> simp
  rw [hrefused]
  constructor
  · intro h
    cases h with
    | missingId hblank => cases hid.symm.trans hblank
    | missingHandler _ hhandler => cases hhandler
    | @invalidSchedule text cause _ _ htext hcounts hcause =>
      have htext := Option.some.inj htext
      refine .inl ⟨text, cause, ?_, hcounts, hcause, rfl⟩
      cases hset : Layer.uppermost? layers (.taskSchedule StatusReport.id) with
      | some set => rw [← htext, hset, Option.getD_some]
      | none =>
        rw [hset, Option.getD_none] at htext
        rw [← htext, parse_schedule] at hcause
        cases hcause
    | broken _ _ hschedule hfault => exact .inr ⟨_, _, hschedule, hfault, rfl⟩
  · rintro (⟨text, cause, hset, hcounts, hcause, rfl⟩ | ⟨schedule, fault, hschedule, hfault, rfl⟩)
    · have hreported : expression? (reportSpec report layers) = some text :=
        expression?_reportSpec hset hcounts
      exact .invalidSchedule hid (Option.some_ne_none _)
        (expression?_eq_some_iff.1 hreported).1 hcounts hcause
    · exact .broken hid (Option.some_ne_none _) hschedule hfault

theorem mapError_eq_error_iff {ε δ α : Type} {f : ε → δ} {x : Except ε α} {e : δ} :
    x.mapError f = .error e ↔ ∃ cause, x = .error cause ∧ e = f cause := by
  cases x <;> simp [Except.mapError, eq_comm]

theorem options_initial (zone : Zone) (layers : List Layer) (now : Instant) :
    (State.initial (optionsFor zone layers) now : State H).options = optionsFor zone layers := by
  have htick : (optionsFor zone layers).tickInterval.nanos ≠ 0 := by
    show Options.defaultTick.nanos ≠ 0
    decide
  show (optionsFor zone layers).normalized = optionsFor zone layers
  rw [Options.normalized, if_neg htick]

/-- A scheduler that was just made reads the clock as it was then. -/
theorem reading_initial (options : Options) (now : Instant) :
    (State.initial options now : State H).reading = now.clockReading := by
  simp only [State.reading, State.now, State.initial, Instant.clockReading, Instant.ofNanos,
    Instant.folded, Int.ofNat_zero, Int.add_zero, Bool.false_eq_true, if_false]
  rfl

/-- Registering the report in a scheduler that was just made leaves it the only task. -/
theorem isStartupOf_of_register {report : H} {layers : List Layer} {zone : Zone} {now : Instant}
    {s : State H}
    (h : (State.initial (optionsFor zone layers) now).register (reportSpec report layers) = .ok s) :
    IsStartupOf report layers zone now s := by
  unfold State.register at h
  split at h
  · cases h
  · next record hrecord =>
    cases h
    have hfresh := Record.isFresh_of_ofSpec hrecord
    rw [options_initial, reading_initial] at hfresh
    exact ⟨options_initial (H := H) zone layers now, rfl, rfl, rfl, rfl, rfl, rfl, 0, record,
      rfl, hfresh⟩

/-- The startup fails for the zone exactly if the zone that the layers ask for is not known; then
the checks of the settings fail as well. Where it is known and the worker pool not too large, the
startup fails for a schedule exactly if the layers give the status report one that is not blank and
cannot be read; it fails otherwise only where the next run of the report cannot be computed, and
else leaves a stopped scheduler with the report as its only task. The settings of other tasks make
no difference. -/
theorem startup_of_layers (zones : Zone.Database) (report : H) (layers : List Layer)
    (now : Instant) : (build zones report (Layer.mergeAll layers).resolveScheduler now =
        .error (.config (.invalidValue timezoneKey .unknownZone)) ↔
      zones (zoneName layers) = none) ∧
    (∀ zone, zones (zoneName layers) = some zone → (optionsFor zone layers).areFeasible = true →
      (∀ cause, build zones report (Layer.mergeAll layers).resolveScheduler now =
          .error (.scheduler (.invalidSchedule StatusReport.id cause)) ↔
        ∃ text, Layer.uppermost? layers (.taskSchedule StatusReport.id) = some text ∧
          Text.isBlankText text = false ∧ Cron.Schedule.parse text = .error cause) ∧
      (∀ schedule next,
        (expression? (reportSpec report layers)).mapM Cron.Schedule.parse = .ok schedule →
        nextRun zone schedule now.clockReading = .ok next →
        ∃ s, build zones report (Layer.mergeAll layers).resolveScheduler now = .ok s ∧
          IsStartupOf report layers zone now s) ∧
      ∀ error, build zones report (Layer.mergeAll layers).resolveScheduler now = .error error →
        (∃ cause, error = .scheduler (.invalidSchedule StatusReport.id cause)) ∨
        ∃ schedule fault,
          (expression? (reportSpec report layers)).mapM Cron.Schedule.parse = .ok schedule ∧
          nextRun zone schedule now.clockReading = .error fault ∧
            error = .scheduler (.broken fault)) ∧
    (∀ config, (Layer.mergeAll layers).finalize zones = .ok config →
      config.scheduler = (Layer.mergeAll layers).resolveScheduler ∧
      ∃ zone, zones (zoneName layers) = some zone) ∧
    ∀ others : List Layer,
      (∀ {α : Type} (leaf : Leaf α), leaf.isOfOther StatusReport.id = false →
        Layer.uppermost? others leaf = Layer.uppermost? layers leaf) →
      build zones report (Layer.mergeAll others).resolveScheduler now =
        build zones report (Layer.mergeAll layers).resolveScheduler now := by
  refine ⟨?_, fun zone hzone hfeasible => ?_, fun config hconfig => ?_, fun others hsame => ?_⟩
  · rw [build_mergeAll]
    cases zones (zoneName layers) with
    | none => simp only
    | some zone =>
      refine iff_of_false (fun h => ?_) (Option.some_ne_none zone)
      simp only at h
      split at h
      · obtain ⟨refusal, -, hrefusal⟩ := mapError_eq_error_iff.1 h
        cases hrefusal
      · cases h
  · have hbuild : build zones report (Layer.mergeAll layers).resolveScheduler now =
        ((State.initial (optionsFor zone layers) now).register (reportSpec report layers)).mapError
          .scheduler := by
      rw [build_mergeAll, hzone]
      exact if_pos hfeasible
    have hrefused : ∀ refusal, (State.initial (optionsFor zone layers) now).register
        (reportSpec report layers) = .error refusal ↔ _ := fun _ => register_report_eq_error_iff
    rw [options_initial, reading_initial] at hrefused
    -- What is left is a registration with a scheduler in which nothing has happened yet.
    rw [hbuild]
    refine ⟨fun cause => ?_, fun schedule next hschedule hnext => ?_, fun error herror => ?_⟩
    · rw [mapError_eq_error_iff]
      constructor
      · rintro ⟨refusal, hrefusal, hcause⟩
        rcases (hrefused refusal).1 hrefusal with
          ⟨text, other, hset, hcounts, hparse, rfl⟩ | ⟨_, _, -, -, rfl⟩
        · cases hcause
          exact ⟨text, hset, hcounts, hparse⟩
        · cases hcause
      · rintro ⟨text, hset, hcounts, hparse⟩
        exact ⟨_, (hrefused _).2 (.inl ⟨text, cause, hset, hcounts, hparse, rfl⟩), rfl⟩
    · cases hregister : (State.initial (optionsFor zone layers) now).register
          (reportSpec report layers) with
      | ok s => exact ⟨s, rfl, isStartupOf_of_register hregister⟩
      | error refusal =>
        rcases (hrefused refusal).1 hregister with
          ⟨text, cause, hset, hcounts, hparse, -⟩ | ⟨other, fault, hother, hfault, -⟩
        · rw [expression?_reportSpec hset hcounts, Option.mapM_some, hparse] at hschedule
          cases hschedule
        · cases hschedule.symm.trans hother
          cases hnext.symm.trans hfault
    · obtain ⟨refusal, hrefusal, rfl⟩ := mapError_eq_error_iff.1 herror
      rcases (hrefused refusal).1 hrefusal with
        ⟨text, cause, -, -, -, rfl⟩ | ⟨schedule, fault, hschedule, hfault, rfl⟩
      · exact .inl ⟨cause, rfl⟩
      · exact .inr ⟨schedule, fault, hschedule, hfault, rfl⟩
  · refine ⟨congrArg Config.scheduler (Layer.eq_resolve_of_finalize hconfig), ?_⟩
    exact exists_zone_of_finalize hconfig
  · have hzone : zoneName others = zoneName layers := by
      rw [zoneName, zoneName, hsame .timezone rfl]
    -- Of the layers the build reads the zone, the options and the settings of the report alone.
    have hoptions : ∀ zone, optionsFor zone others = optionsFor zone layers := by
      intro zone
      rw [optionsFor, optionsFor, hsame .catchUpWindowSecs rfl, hsame .taskTimeoutSecs rfl,
        hsame .shutdownGraceSecs rfl, hsame .maxConcurrentTasks rfl]
    have hreport : reportSpec report others = reportSpec report layers := by
      rw [reportSpec, reportSpec, hsame (.taskSchedule StatusReport.id) rfl,
        hsame (.taskEnabled StatusReport.id) rfl, hsame (.taskSkippable StatusReport.id) rfl]
    simp only [build_mergeAll, hzone, hoptions, hreport]

/-- The first layer asks for a zone that is not known and gives the report a schedule that cannot be
read. The second one corrects both, and disables a task that there is not. -/
def correctedLayers : List Layer :=
  [{ scheduler := some {
      timezone := some "Asia/Kyoto"
      tasks := some (.ofList [(StatusReport.id,
        { schedule := some "whenever", skippable := some false })]) } },
   { scheduler := some {
      timezone := some "Asia/Tokyo"
      maxConcurrentTasks := some 4
      tasks := some (.ofList [(StatusReport.id, { schedule := some "30 20 * * *" }),
        ("backup", { enabled := some false })]) } }]

/-- Ten in the morning of 15 June 2024 in universal time, seven in the evening in Tokyo. -/
def eveningInTokyo : Instant := .ofNanos 1718445600000000000

/-- The scheduler starts up with the corrected layers, and the report comes due at half past
eight. -/
theorem startup_of_layers_of_correctedLayers :
    ∃ s,
      build Zone.known () (Layer.mergeAll correctedLayers).resolveScheduler eveningInTokyo = .ok s ∧
      IsStartupOf () correctedLayers (.fixed "Asia/Tokyo" 32400) eveningInTokyo s ∧
      s.taskIds = [StatusReport.id] ∧
      reportSpec () correctedLayers =
        { StatusReport.spec () with schedule := some "30 20 * * *", skippable := false } := by
  have hknown : Zone.known (zoneName correctedLayers) =
      some (.fixed "Asia/Tokyo" 32400) := by decide
  obtain ⟨-, hreport, -⟩ :=
    (startup_of_layers Zone.known () correctedLayers eveningInTokyo).2.1 _ hknown (by decide)
  have hparse : (expression? (reportSpec () correctedLayers)).mapM Cron.Schedule.parse =
      .ok (some (.cron ⟨.ofList [30], .ofList [20], .full .dayOfMonth, .full .month,
        .full .dayOfWeek⟩)) := by
    decide +kernel
  obtain ⟨s, hbuild, hs⟩ := hreport _ (some (.ofNanos 1718451000000000000)) hparse
    (by decide +kernel)
  exact ⟨s, hbuild, hs, hs.taskIds, by decide⟩

/-- The only setting is the number of handlers that may execute at once: one more than a pool can
have. -/
def oversizedLayers :
    List Layer := [{ scheduler := some { maxConcurrentTasks := some 0x2000000000000000 } }]

/-- Settings that pass the checks can fail at the startup without a schedule that cannot be read: a
pool is limited from below only. -/
theorem not_forall_build_isOk_or_invalidSchedule :
    ¬ ∀ (layers : List Layer) (config : Config) (now : Instant),
      (Layer.mergeAll layers).finalize Zone.known = .ok config →
      (∃ s, build Zone.known () config.scheduler now = .ok s) ∨
      ∃ cause, build Zone.known () config.scheduler now =
        .error (.scheduler (.invalidSchedule StatusReport.id cause)) := by
  intro hall
  have hbuild :
      build Zone.known () (Layer.mergeAll oversizedLayers).resolveScheduler eveningInTokyo =
      .error (.broken .oversizedPool) := by
    rfl
  rcases hall oversizedLayers (Layer.mergeAll oversizedLayers).resolve eveningInTokyo
    (by decide) with
    ⟨s, hs⟩ | ⟨cause, hcause⟩
  · cases hbuild.symm.trans hs
  · cases hbuild.symm.trans hcause

end Daemon

end CronDaemon
