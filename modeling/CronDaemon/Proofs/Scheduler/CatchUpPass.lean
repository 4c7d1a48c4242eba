import CronDaemon.Proofs.Scheduler.ReferenceTimes

/-!
# What a start makes of each task

A start that gets the lock reads the clock once. It first computes the next run of every registered
record anew. Then it looks at each of them: one whose last run lies too far back gets a catch-up
run, or is passed over if it may be skipped, and every other one stays as it is. How far back is too
far is told in whole nanoseconds, without bound: a window that leads out of the calendar leaves
nothing behind it.
-/

namespace CronDaemon

namespace Instant

/-- A step that is longer than the longest one leads from any instant of the calendar out of it. -/
theorem holds_sub_of_longestStep_lt {nanos : Int} (hholds : Calendar.holds nanos = true)
    {d : Duration}
    (hlong : Calendar.longestStep < d.nanos) : Calendar.holds (nanos - d.nanos) = false := by
  have hspan : Calendar.endDay * Calendar.dayNanos - Calendar.longestStep ≤
      Calendar.firstDay * Calendar.dayNanos := by decide
  rw [Calendar.holds_iff] at hholds
  refine Bool.eq_false_iff.2 fun h => ?_
  rw [Calendar.holds_iff] at h
  omega

/-- The bound on the steps between two instants plays no part: what lies a duration before an
instant is the exact difference, as long as that is in the calendar. -/
theorem sub?_eq_checked {t : Instant} (hleap : t.leap = false)
    (hholds : Calendar.holds t.nanos = true)
    (d : Duration) : t.sub? d = checked (ofNanos (t.nanos - d.nanos)) := by
  unfold sub?
  split
  · simp [hleap, folded]
  · next hlong =>
    have hleaves := holds_sub_of_longestStep_lt hholds (Nat.lt_of_not_le hlong)
    simp [checked, ofNanos, hleaves]

/-- What is read from a clock is an instant of the calendar, and no leap second. -/
theorem holds_of_clockReading {t now : Instant} (h : t.clockReading = .ok now) :
    now.leap = false ∧ Calendar.holds now.nanos = true := by
  unfold clockReading at h
  split at h
  · next hguard =>
    cases h
    exact ⟨rfl, (Bool.and_eq_true_iff.1 hguard).2⟩
  · cases h

end Instant

namespace Scheduler

open Job

namespace Record

variable {H : Type} {record fresh : Record H} {now cutoff : Instant} {window : Duration}

/-- The task is enabled, and its last run lies before what is left of an instant when a window of
time is taken away from it, which has to be an instant of the calendar. -/
structure IsOverdue (record : Record H) (now : Instant) (window : Duration) : Prop where
  enabled : record.enabled = true
  holds : Calendar.holds (now.nanos - window.nanos) = true
  late : ∃ last, record.lastRun = some last ∧ last < .ofNanos (now.nanos - window.nanos)

theorem isStale_iff : record.isStale cutoff = true ↔
    record.enabled = true ∧ ∃ last, record.lastRun = some last ∧ last < cutoff := by
  simp only [isStale, Bool.and_eq_true, Option.any_eq_true, decide_eq_true_eq]

/-- A task is overdue exactly if it is stale at the instant that lies the window before. -/
theorem isOverdue_iff_isStale (hleap : now.leap = false) (hholds : Calendar.holds now.nanos = true)
    (hcutoff : now.sub? window = some cutoff) :
    record.IsOverdue now window ↔ record.isStale cutoff = true := by
  rw [Instant.sub?_eq_checked hleap hholds] at hcutoff
  obtain ⟨hin, he⟩ := Option.ite_none_right_eq_some.1 hcutoff
  cases he
  rw [isStale_iff]
  exact ⟨fun h => ⟨h.enabled, h.late⟩, fun h => ⟨h.1, hin, h.2⟩⟩

/-- If the window leads out of the calendar, nothing is overdue. -/
theorem not_isOverdue_of_sub? (hleap : now.leap = false) (hholds : Calendar.holds now.nanos = true)
    (hcutoff : now.sub? window = none) : ¬ record.IsOverdue now window := by
  intro h
  have hin : Calendar.holds (Instant.ofNanos (now.nanos - window.nanos)).nanos = true := h.holds
  rw [Instant.sub?_eq_checked hleap hholds, Instant.checked, if_pos hin] at hcutoff
  cases hcutoff

instance : Decidable (record.IsOverdue now window) :=
  decidable_of_iff (record.enabled = true ∧ Calendar.holds (now.nanos - window.nanos) = true ∧
      record.isStale (.ofNanos (now.nanos - window.nanos)) = true)
    ⟨fun h => ⟨h.1, h.2.1, (isStale_iff.1 h.2.2).2⟩,
      fun h => ⟨h.enabled, h.holds, isStale_iff.2 ⟨h.enabled, h.late⟩⟩⟩

/-- The record of a task after a start at an instant has looked at it, with the next run that was
computed anew. A task that is overdue, may be skipped and is not running is skipped; every other one
keeps all the rest. -/
def started (record : Record H) (now : Instant) (window : Duration) (next : Option Instant) :
    Record H :=
  if record.IsOverdue now window ∧ record.skippable = true ∧ record.status ≠ .running then
    { record with nextRun := next, status := .skipped }
  else { record with nextRun := next }

theorem IsPlanned.nextRun_eq_none {zone : Zone} {reference : Instant}
    (h : record.IsPlanned zone reference)
    (hschedule : record.schedule = none) : record.nextRun = none := by
  have hnext := h.next
  rw [hschedule] at hnext
  exact (Except.ok.inj hnext).symm

/-- A record is refreshed in nothing but its next run. -/
theorem exists_nextRun_of_refreshed {zone : Zone} (h : record.refreshed zone now = .ok fresh)
    (hplanned : record.schedule = none → record.nextRun = none) :
    ∃ next, Scheduler.nextRun zone record.schedule (.ok now) = .ok next ∧
      fresh = { record with nextRun := next } := by
  unfold refreshed at h
  split at h
  · next hschedule =>
    cases h
    exact ⟨none, by rw [hschedule]; rfl, by rw [← hplanned hschedule]⟩
  · obtain ⟨next, hnext, rfl⟩ := map_eq_ok_iff.1 h
    exact ⟨next, hnext, rfl⟩

/-- A refreshed record that the pass looks at is the record of a started task. -/
theorem started_eq (record : Record H) (now : Instant) (window : Duration) (next : Option Instant) :
    record.started now window next =
      if record.IsOverdue now window ∧ record.skippable = true
      then ({ record with nextRun := next } : Record H).passedOver else
        { record with nextRun := next } := by
  unfold started passedOver
  grind

theorem isOverdue_withNextRun_iff (next : Option Instant) :
    ({ record with nextRun := next } : Record H).IsOverdue now window ↔
    record.IsOverdue now window :=
  ⟨fun h => ⟨h.enabled, h.holds, h.late⟩, fun h => ⟨h.enabled, h.holds, h.late⟩⟩

end Record

namespace State

variable {H : Type} {s s' t t' : State H} {call number : Nat} {cutoff now : Instant}
  {record : Record H}

theorem get?_refreshEach_of_notMem (now : Instant) {numbers : List Nat} (s : State H)
    (hnot : number ∉ numbers) :
    (s.refreshEach now numbers).1.records.get? number = s.records.get? number := by
  induction numbers generalizing s with
  | nil => rfl
  | cons first numbers ih =>
    rw [List.mem_cons, not_or] at hnot
    unfold refreshEach
    split
    · exact ih s hnot.2
    · split
      · rfl
      · rw [ih _ hnot.2, note, Table.get?_insert, if_neg (Ne.symm hnot.1)]

/-- Without a fault each of the given records is refreshed. -/
theorem get?_refreshEach_of_mem (now : Instant) {numbers : List Nat} (hnodup : numbers.Nodup)
    (s : State H) (hnone : (s.refreshEach now numbers).2 = none) (hmem : number ∈ numbers)
    (hrecord : s.records.get? number = some record) :
    ∃ fresh, record.refreshed s.options.zone now = .ok fresh ∧
      (s.refreshEach now numbers).1.records.get? number = some fresh := by
  induction numbers generalizing s with
  | nil => cases hmem
  | cons first numbers ih =>
    obtain ⟨hfirst, hnodup⟩ := List.nodup_cons.1 hnodup
    unfold refreshEach at hnone ⊢
    cases hget : s.records.get? first with
    | none =>
      simp only [hget] at hnone ⊢
      refine ih hnodup s hnone ((List.mem_cons.1 hmem).resolve_left ?_) hrecord
      rintro rfl
      rw [hrecord] at hget
      cases hget
    | some before =>
      cases hafter : before.refreshed s.options.zone now with
      | error fault => simp [hget, hafter] at hnone
      | ok after =>
        simp only [hget, hafter] at hnone ⊢
        rcases List.mem_cons.1 hmem with rfl | hmem
        · rw [hrecord] at hget
          cases hget
          refine ⟨after, hafter, ?_⟩
          rw [get?_refreshEach_of_notMem now _ hfirst, note, Table.get?_insert, if_pos rfl]
        · have hne : first ≠ number := by
            rintro rfl
            exact hfirst hmem
          have hkept : (s.records.insert first after).get? number = some record := by
            rw [Table.get?_insert, if_neg hne, hrecord]
          exact ih hnodup _ hnone hmem hkept

/-- What the catch-up pass makes of the record of one task. -/
theorem records_catchUpTask (s : State H) (call : Nat) (cutoff : Instant) (number : Nat)
    (record : Record H) :
    (s.catchUpTask call cutoff number record).records =
      if record.isStale cutoff && record.skippable then s.records.modify number Record.passedOver
      else s.records := by
  unfold catchUpTask
  cases record.isStale cutoff <;> cases record.skippable <;> rfl

theorem get?_records_catchUpEach_of_notMem (call : Nat) (cutoff : Instant)
    {tasks : List (Nat × Record H)} (s : State H) (hnot : number ∉ tasks.map (·.1)) :
    (s.catchUpEach call cutoff tasks).records.get? number = s.records.get? number := by
  unfold catchUpEach
  induction tasks generalizing s with
  | nil => rfl
  | cons task tasks ih =>
    rw [List.map_cons, List.mem_cons, not_or] at hnot
    rw [List.foldl_cons, ih _ hnot.2, records_catchUpTask]
    split
    · rw [Table.get?_modify, if_neg (Ne.symm hnot.1)]
    · rfl

/-- The pass looks at each task once. -/
theorem get?_records_catchUpEach_of_mem (call : Nat) (cutoff : Instant)
    {tasks : List (Nat × Record H)} (hnodup : (tasks.map (·.1)).Nodup) (s : State H)
    (hmem : (number, record) ∈ tasks) :
    (s.catchUpEach call cutoff tasks).records.get? number =
      if record.isStale cutoff && record.skippable then
        (s.records.get? number).map Record.passedOver
      else s.records.get? number := by
  induction tasks generalizing s with
  | nil => cases hmem
  | cons task tasks ih =>
    obtain ⟨hfirst, hnodup⟩ := List.nodup_cons.1 hnodup
    have hrest : s.catchUpEach call cutoff (task :: tasks) =
      (s.catchUpTask call cutoff task.1 task.2).catchUpEach call cutoff tasks := rfl
    rw [hrest]
    rcases List.mem_cons.1 hmem with rfl | hmem
    · rw [get?_records_catchUpEach_of_notMem call cutoff _ hfirst, records_catchUpTask]
      split
      · rw [Table.get?_modify, if_pos rfl]
      · rfl
    · have hne : task.1 ≠ number := by
        rintro rfl
        exact hfirst (List.mem_map_of_mem (f := (·.1)) hmem)
      have hsame : (s.catchUpTask call cutoff task.1 task.2).records.get? number =
          s.records.get? number := by
        rw [records_catchUpTask]
        split
        · rw [Table.get?_modify, if_neg hne]
        · rfl
      rw [ih hnodup _ hmem, hsame]

/-- The tasks that the pass runs, by their records. -/
def missed (cutoff : Instant) (tasks : List (Nat × Record H)) : List Nat :=
  (tasks.filter fun e => e.2.isStale cutoff && !e.2.skippable).map (·.1)

/-- The pass spawns a run for each task that it does not let pass, and no other. -/
theorem runs_catchUpEach (call : Nat) (cutoff : Instant) (tasks : List (Nat × Record H))
    (hruns : s.runs = t.runs) (hnext : s.nextId = t.nextId) :
    (s.catchUpEach call cutoff tasks).runs =
      (t.spawnAll .catchUp (.call call) (missed cutoff tasks)).runs := by
  induction tasks generalizing s t with
  | nil => exact hruns
  | cons task tasks ih =>
    have hrest : s.catchUpEach call cutoff (task :: tasks) =
      (s.catchUpTask call cutoff task.1 task.2).catchUpEach call cutoff tasks := rfl
    rw [hrest, catchUpTask, missed, List.filter_cons]
    cases hstale : task.2.isStale cutoff with
    | false => exact ih hruns hnext
    | true =>
      cases hskippable : task.2.skippable with
      | true => exact ih hruns hnext
      | false =>
        refine ih (s := s.spawn task.1 .catchUp (.call call))
          (t := t.spawn task.1 .catchUp (.call call)) ?_ ?_
        · simp only [spawn, hruns, hnext]
        · simp only [spawn, hnext]

/-- What the catch-up pass of a start makes of the record of a task. -/
theorem get?_records_catchUp (hnodup : s.registry.values.Nodup) (hreading : s.reading = .ok now)
    (call : Nat) (hmem : (number, record) ∈ s.tasks) :
    (s.catchUp call).records.get? number =
      some (if record.IsOverdue now s.options.catchUpWindow ∧ record.skippable = true
        then record.passedOver else record) := by
  obtain ⟨hleap, hholds⟩ := Instant.holds_of_clockReading hreading
  have hrecord := (mem_tasks_iff.1 hmem).2
  unfold catchUp
  rw [now_of_reading hreading]
  split
  · next hcutoff =>
    rw [if_neg fun h => Record.not_isOverdue_of_sub? hleap hholds hcutoff h.1]
    exact hrecord
  · next cutoff hcutoff =>
    have heach := get?_records_catchUpEach_of_mem call cutoff (nodup_tasks hnodup) s hmem
    simp only [hrecord, Option.map_some, ← Record.isOverdue_iff_isStale hleap hholds hcutoff,
      Bool.and_eq_true] at heach
    refine heach.trans ?_
    split <;> rfl

theorem get?_records_catchUp_of_not_isRegistered (call : Nat) (hnot : ¬ s.IsRegistered number) :
    (s.catchUp call).records.get? number = s.records.get? number := by
  unfold catchUp
  split
  · rfl
  · refine get?_records_catchUpEach_of_notMem call _ s fun hmem => hnot ?_
    obtain ⟨task, htask, rfl⟩ := List.mem_map.1 hmem
    exact (mem_tasks_iff.1 htask).1

/-- A start at an instant is to catch up on the task. -/
def IsMissed (s : State H) (now : Instant) (number : Nat) : Prop :=
  ∃ record, (number, record) ∈ s.tasks ∧ record.IsOverdue now s.options.catchUpWindow ∧
    record.skippable = false

/-- The catch-up pass of a start spawns one run for each missed task. -/
theorem exists_runs_catchUp (hnodup : s.registry.values.Nodup) (hreading : s.reading = .ok now)
    (call : Nat) :
    ∃ numbers : List Nat, numbers.Nodup ∧ (∀ number, number ∈ numbers ↔ s.IsMissed now number) ∧
      (s.catchUp call).runs = (s.spawnAll .catchUp (.call call) numbers).runs := by
  obtain ⟨hleap, hholds⟩ := Instant.holds_of_clockReading hreading
  unfold catchUp
  rw [now_of_reading hreading]
  split
  · next hcutoff =>
    refine ⟨[], List.nodup_nil, fun number => iff_of_false List.not_mem_nil ?_, rfl⟩
    rintro ⟨record, -, hoverdue, -⟩
    exact Record.not_isOverdue_of_sub? hleap hholds hcutoff hoverdue
  · next cutoff hcutoff =>
    refine ⟨missed cutoff s.tasks, (nodup_tasks hnodup).sublist (List.filter_sublist.map _),
      fun number => ?_, runs_catchUpEach call cutoff s.tasks rfl rfl⟩
    simp [missed, IsMissed, Record.isOverdue_iff_isStale hleap hholds hcutoff]

/-- The next runs of all tasks have been computed anew from what the clock shows in both states, and
the rest of their records, the registry and the runs are as they were. -/
structure IsRefreshed (s s' : State H) (now : Instant) : Prop where
  reading : s.reading = .ok now ∧ s'.reading = .ok now
  options : s'.options = s.options
  registry : s'.registry = s.registry
  runs : s'.runs = s.runs
  nextId : s'.nextId = s.nextId
  task : ∀ number record, (number, record) ∈ s.tasks → ∃ next,
    nextRun s.options.zone record.schedule (.ok now) = .ok next ∧
      s'.records.get? number = some { record with nextRun := next }
  other : ∀ number, ¬ s.IsRegistered number → s'.records.get? number = s.records.get? number

/-- A start that goes on to its catch-up runs has read the clock and refreshed all tasks, and then
made its pass. -/
theorem Reachable.exists_isRefreshed (hs : s.Reachable)
    (hcall : (s.enterStart call).calls.get? call = some .catchingUp) :
    ∃ now refreshed, s.IsRefreshed refreshed now ∧
      s.enterStart call = (refreshed.catchUp call).setCall call .catchingUp := by
  -- All other ways through the start answer the call or break it off.
  unfold enterStart at hcall ⊢
  split at hcall
  · simp [reply, setCall] at hcall
  next hhandle =>
  dsimp only at hcall
  split at hcall
  · simp [calls_breakCall] at hcall
  next now hreading =>
  split at hcall
  · simp [calls_breakCall] at hcall
  next refreshed hrefresh =>
  let taken : State H := { s with lock := s.lock.take call }
  have heach : taken.refreshEach now s.registry.values = (refreshed, none) := hrefresh
  obtain ⟨records, journal, hstate⟩ := refreshEach_eq now s.registry.values taken
  rw [heach] at hstate
  dsimp only at hstate
  refine ⟨now, refreshed,
    ⟨⟨hreading, by rw [hstate]; exact hreading⟩, by rw [hstate], by rw [hstate],
    by rw [hstate], by rw [hstate], fun number record hmem => ?_, fun number hnot => ?_⟩, ?_⟩
  · obtain ⟨hregistered, hrecord⟩ := mem_tasks_iff.1 hmem
    obtain ⟨fresh, hfresh, hget⟩ := get?_refreshEach_of_mem now hs.nodup_registry taken
      (congrArg Prod.snd heach) (isRegistered_iff_mem_values.1 hregistered) hrecord
    obtain ⟨reference, -, hplanned⟩ := hs.isPlanned number record hrecord
    obtain ⟨next, hnext, rfl⟩ := Record.exists_nextRun_of_refreshed hfresh hplanned.nextRun_eq_none
    rw [heach] at hget
    exact ⟨next, hnext, hget⟩
  · have hget := get?_refreshEach_of_notMem now taken
      fun hmem => hnot (isRegistered_iff_mem_values.2 hmem)
    rw [heach] at hget
    exact hget
  · simp only [hhandle] at hreading hrefresh ⊢
    simp only [hreading, hrefresh]

theorem IsRefreshed.isRegistered_iff (h : s.IsRefreshed s' now) :
    s'.IsRegistered number ↔ s.IsRegistered number := by
  rw [IsRegistered, IsRegistered, h.registry]

theorem IsRefreshed.exists_mem_tasks (h : s.IsRefreshed s' now)
    (hmem : (number, record) ∈ s.tasks) :
    ∃ next, nextRun s.options.zone record.schedule (.ok now) = .ok next ∧
      (number, { record with nextRun := next }) ∈ s'.tasks := by
  obtain ⟨next, hnext, hget⟩ := h.task number record hmem
  exact ⟨next, hnext, mem_tasks_iff.2 ⟨h.isRegistered_iff.2 (mem_tasks_iff.1 hmem).1, hget⟩⟩

/-- What is missed does not depend on when tasks are next to run. -/
theorem IsRefreshed.isMissed_iff (h : s.IsRefreshed s' now) (hs : s.Reachable) :
    s'.IsMissed now number ↔ s.IsMissed now number := by
  rw [IsMissed, IsMissed, h.options]
  constructor
  · rintro ⟨fresh, hmem, hoverdue, hrequired⟩
    obtain ⟨hregistered, hget⟩ := mem_tasks_iff.1 hmem
    obtain ⟨record, hrecord⟩ := hs.record_of_isRegistered (h.isRegistered_iff.1 hregistered)
    have hmem' : (number, record) ∈ s.tasks :=
      mem_tasks_iff.2 ⟨h.isRegistered_iff.1 hregistered, hrecord⟩
    obtain ⟨next, -, hget'⟩ := h.task number record hmem'
    rw [hget] at hget'
    cases hget'
    exact ⟨record, hmem', (Record.isOverdue_withNextRun_iff next).1 hoverdue, hrequired⟩
  · rintro ⟨record, hmem, hoverdue, hrequired⟩
    obtain ⟨next, -, hmem'⟩ := h.exists_mem_tasks hmem
    exact ⟨_, hmem', (Record.isOverdue_withNextRun_iff next).2 hoverdue, hrequired⟩

/-- What a start that goes on to its catch-up runs has made of the tasks. -/
structure MakesPass (s s' : State H) (call : Nat) (now : Instant) : Prop where
  reading : s.reading = .ok now
  task : ∀ number record, (number, record) ∈ s.tasks → ∃ next,
    nextRun s.options.zone record.schedule (.ok now) = .ok next ∧
      s'.records.get? number = some (record.started now s.options.catchUpWindow next)
  other : ∀ number, ¬ s.IsRegistered number → s'.records.get? number = s.records.get? number
  /-- One run is spawned for each missed task, and no other. -/
  runs : ∃ numbers : List Nat, numbers.Nodup ∧
    (∀ number, number ∈ numbers ↔ s.IsMissed now number) ∧ ∀ i, s'.runs.get? (s.nextId + i) =
      numbers[i]?.map fun number => ⟨number, .catchUp, .call call, .spawned⟩

theorem MakesPass.exists_run (h : s.MakesPass s' call now) (hmissed : s.IsMissed now number) :
    ∃ id, s.nextId ≤ id ∧ s'.runs.get? id = some ⟨number, .catchUp, .call call, .spawned⟩ := by
  obtain ⟨numbers, -, hmem, hruns⟩ := h.runs
  obtain ⟨i, hi⟩ := List.mem_iff_getElem?.1 ((hmem number).2 hmissed)
  exact ⟨s.nextId + i, Nat.le_add_right _ _, by rw [hruns, hi, Option.map_some]⟩

/-- A run that is new after the pass is the one run of a missed task. -/
theorem MakesPass.run_cases (h : s.MakesPass s' call now) {id : Nat} {run : Run}
    (hnew : s.nextId ≤ id) (hrun : s'.runs.get? id = some run) :
    run = ⟨run.record, .catchUp, .call call, .spawned⟩ ∧ s.IsMissed now run.record ∧
      ∀ id' run', s.nextId ≤ id' → s'.runs.get? id' = some run' → run'.record = run.record →
        id' = id := by
  obtain ⟨numbers, hnodup, hmem, hruns⟩ := h.runs
  obtain ⟨i, rfl⟩ := Nat.exists_eq_add_of_le hnew
  rw [hruns] at hrun
  obtain ⟨number, hi, rfl⟩ := Option.map_eq_some_iff.1 hrun
  refine ⟨rfl, (hmem number).1 (List.mem_of_getElem? hi), fun id' run' hnew' hrun' hrecord => ?_⟩
  obtain ⟨j, rfl⟩ := Nat.exists_eq_add_of_le hnew'
  rw [hruns] at hrun'
  obtain ⟨number', hj, rfl⟩ := Option.map_eq_some_iff.1 hrun'
  have hij : numbers[i]? = numbers[j]? := by rw [hi, hj, show number' = number from hrecord]
  obtain ⟨hlt, -⟩ := List.getElem?_eq_some_iff.1 hi
  rw [(List.getElem?_inj hlt hnodup).1 hij]

theorem Reachable.makesPass (hs : s.Reachable)
    (hcall : (s.enterStart call).calls.get? call = some .catchingUp) :
    ∃ now, s.MakesPass (s.enterStart call) call now := by
  obtain ⟨now, refreshed, hrefreshed, he⟩ := hs.exists_isRefreshed hcall
  have hnodup : refreshed.registry.values.Nodup := hrefreshed.registry ▸ hs.nodup_registry
  obtain ⟨numbers, hdistinct, hmissed, hruns⟩ :=
    exists_runs_catchUp hnodup hrefreshed.reading.2 call
  rw [he]
  refine ⟨now, hrefreshed.reading.1, fun number record hmem => ?_, fun number hnot => ?_,
    numbers, hdistinct, fun number => (hmissed number).trans (hrefreshed.isMissed_iff hs),
      fun i => ?_⟩
  · obtain ⟨next, hnext, hmem'⟩ := hrefreshed.exists_mem_tasks hmem
    refine ⟨next, hnext, (get?_records_catchUp hnodup hrefreshed.reading.2 call hmem').trans ?_⟩
    simp only [Record.started_eq, hrefreshed.options, Record.isOverdue_withNextRun_iff]
  · have hnot' : ¬ refreshed.IsRegistered number := fun h => hnot (hrefreshed.isRegistered_iff.1 h)
    exact (get?_records_catchUp_of_not_isRegistered call hnot').trans (hrefreshed.other number hnot)
  · have hfresh : ∀ k, refreshed.nextId ≤ k → refreshed.runs.get? k = none := by
      rw [hrefreshed.nextId, hrefreshed.runs]
      exact fun k => hs.run_eq_none
    have hspawned := get?_runs_spawnAll_add .catchUp (.call call) numbers refreshed hfresh i
    rw [← hruns, hrefreshed.nextId] at hspawned
    exact hspawned

end State

end Scheduler

end CronDaemon
