import CronDaemon.Proofs.Scheduler.Awaiting
import Mathlib.Logic.ExistsUnique
import Mathlib.Tactic.Common

/-!
# The guard against overlapping runs

A task is running exactly while one run of it is outstanding: past the guard and not recorded. Such
a run is in progress, or it has broken off in the midst; what has broken off is never recorded, and
its task stays running for ever. No run breaks off as long as deadlines can be reached, the clock
can be read, next runs can be computed and no caller hangs up. A run that meets a running task is
told so and changes nothing.
-/

namespace CronDaemon.Scheduler

open Job

namespace State

variable {H : Type} {s start : State H} {events : List (Event H)}

/-- The run has passed the guard of the record and goes on: it waits for a permit, its handler
executes, or it rests between two attempts. -/
def InProgress (s : State H) (record id : Nat) : Prop :=
  ∃ run, s.runs.get? id = some run ∧ run.record = record ∧ run.phase.isActive = true

/-- The run has passed the guard of the record and broken off. -/
def IsStranded (s : State H) (record id : Nat) : Prop :=
  ∃ run, s.runs.get? id = some run ∧ run.record = record ∧ run.phase = .stranded

/-- Nothing makes a run break off at any event of the list. -/
structure StaysUntroubled (start : State H) (events : List (Event H)) : Prop where
  states : ∀ n < events.length, ∀ s, start.replay? (events.take n) = some s → s.IsUntroubled
  /-- No caller hangs up. -/
  awaited : ∀ call, .hangUp call ∉ events

theorem ledger_holds_iff {record id : Nat} :
    s.ledger.Holds record id ↔ s.InProgress record id ∨ s.IsStranded record id := by
  have hphase : ∀ phase : Phase, phase ≠ .spawned ↔ phase.isActive = true ∨ phase = .stranded := by
    intro phase
    cases phase <;> simp [Phase.isActive]
  simp only [Ledger.Holds, Ledger.standing?, Option.map_eq_some_iff, Prod.mk.injEq,
    decide_eq_true_eq, hphase, InProgress, IsStranded, and_or_left, exists_or]
  rfl

/-- A run that is in progress has not broken off. -/
theorem InProgress.not_isStranded {record record' id : Nat} (h : s.InProgress record id) :
    ¬ s.IsStranded record' id := by
  rintro ⟨run', hrun', -, hstranded⟩
  obtain ⟨run, hrun, -, hactive⟩ := h
  rw [hrun] at hrun'
  cases hrun'
  rw [hstranded] at hactive
  cases hactive

/-- The outstanding runs of the journal are those that are in progress or have broken off. -/
theorem Reachable.isOutstanding_iff (h : s.Reachable) {record id : Nat} :
    IsOutstanding s.journal record id ↔ s.InProgress record id ∨ s.IsStranded record id := by
  rw [← ledger_holds_iff]
  exact h.isSound.kept.outstanding_iff

/-- No two runs are outstanding on one record. -/
theorem Reachable.isOutstanding_unique (h : s.Reachable) {record a b : Nat}
    (ha : IsOutstanding s.journal record a) (hb : IsOutstanding s.journal record b) : a = b :=
  h.isSound.guarded.unique (h.isSound.kept.outstanding_iff.1 ha)
    (h.isSound.kept.outstanding_iff.1 hb)

/-- A task is running exactly while one run of it is outstanding. -/
theorem Reachable.status_eq_running_iff (h : s.Reachable) {number : Nat} {record : Record H}
    (hrecord : s.records.get? number = some record) :
    record.status = .running ↔ ∃! id, IsOutstanding s.journal number id := by
  have hrunning : s.ledger.isRunning? number = some (decide (record.status = .running)) := by
    rw [Ledger.isRunning?, show s.ledger.records.get? number = some record from hrecord]
    rfl
  have hiff := h.isSound.guarded.running_iff hrunning
  rw [decide_eq_true_eq] at hiff
  rw [hiff]
  constructor
  · rintro ⟨id, hid⟩
    have hout : IsOutstanding s.journal number id := h.isSound.kept.outstanding_iff.2 hid
    exact ⟨id, hout, fun k hk => h.isOutstanding_unique hk hout⟩
  · rintro ⟨id, hid, -⟩
    exact ⟨id, h.isSound.kept.outstanding_iff.1 hid⟩

/-- A task is running exactly while one run of it is in progress, unless a run of it has broken
off. -/
theorem Reachable.status_eq_running_iff_inProgress (h : s.Reachable) {number : Nat}
    {record : Record H} (hrecord : s.records.get? number = some record) :
    (record.status = .running ↔ ∃! id, s.InProgress number id) ↔
      ∀ id, ¬ s.IsStranded number id := by
  constructor
  · intro hiff id hid
    have hout := h.isOutstanding_iff.2 (.inr hid)
    have hrunning : record.status = .running :=
      (h.status_eq_running_iff hrecord).2 ⟨id, hout, fun k hk => h.isOutstanding_unique hk hout⟩
    obtain ⟨k, hk, -⟩ := hiff.1 hrunning
    have hsame : k = id := h.isOutstanding_unique (h.isOutstanding_iff.2 (.inl hk)) hout
    exact hk.not_isStranded (hsame ▸ hid)
  · intro hnone
    have hprogress : ∀ id, IsOutstanding s.journal number id ↔ s.InProgress number id := by
      intro id
      rw [h.isOutstanding_iff]
      exact or_iff_left (hnone id)
    rw [h.status_eq_running_iff hrecord]
    simp only [hprogress]

theorem StaysUntroubled.of_cons {event : Event H} {next : State H}
    (h : start.StaysUntroubled (event :: events)) (hnext : start.fire? event = some next) :
    start.IsUntroubled ∧ next.StaysUntroubled events := by
  refine ⟨h.states 0 (Nat.succ_pos _) start rfl, fun n hn mid hmid => ?_,
    fun call hmem => h.awaited call (List.mem_cons_of_mem _ hmem)⟩
  refine h.states (n + 1) (Nat.succ_lt_succ hn) mid ?_
  rwa [List.take_succ_cons, replay?_cons, hnext]

/-- An untroubled history begins with an event that makes nothing break off. -/
theorem StaysUntroubled.not_isTroubledBy {event : Event H}
    (h : start.StaysUntroubled (event :: events)) : ¬ start.IsTroubledBy event := by
  rintro (hfault | ⟨call, rfl⟩)
  · exact hfault (h.states 0 (Nat.succ_pos _) start rfl)
  · exact h.awaited call List.mem_cons_self

theorem hasNoStranded_of_staysUntroubled (hstart : start.ledger.HasNoStranded)
    (huntroubled : start.StaysUntroubled events) (h : start.replay? events = some s) :
    s.ledger.HasNoStranded := by
  induction events generalizing start with
  | nil =>
    cases h
    exact hstart
  | cons event events ih =>
    obtain ⟨next, hnext, hrest⟩ := Option.bind_eq_some_iff.1 h
    have hmoves := (transition_of_fire? hnext).moves
    have hnone := hmoves.hasNoStranded huntroubled.not_isTroubledBy hstart
    exact ih hnone (huntroubled.of_cons hnext).2 hrest

/-- No run of a fresh scheduler has broken off as long as nothing makes a run break off. -/
theorem not_isStranded_of_staysUntroubled {options : Options} {now : Instant}
    (hcreate : create? options now = some start) (huntroubled : start.StaysUntroubled events)
    (hreplay : start.replay? events = some s) (record id : Nat) : ¬ s.IsStranded record id := by
  rintro ⟨run, hrun, -, hstranded⟩
  have hinitial : start.ledger.HasNoStranded := by
    unfold create? at hcreate
    split at hcreate <;> cases hcreate
    exact nofun
  exact hasNoStranded_of_staysUntroubled hinitial huntroubled hreplay id run hrun hstranded

/-- A run that meets a running task is refused: nothing but the run itself and the journal changes,
and no handler is called. -/
theorem begin_of_running {id : Nat} {run : Run} {record : Record H}
    (hrecord : s.records.get? run.record = some record) (hrunning : record.status = .running) :
    s.begin id run = (s.note (.refused id run.record)).finish id run .alreadyRunning := by
  simp only [begin, hrecord, hrunning, if_true]

/-- A trigger that waits for a run learns its outcome in the place of the run. -/
theorem Reachable.trigger_of_finish (h : s.Reachable) {id c : Nat} {run : Run} {entry : Entry}
    (hrun : s.runs.get? id = some run) (hphase : run.phase = .spawned)
    (howner : run.owner = .call c) (hmanual : run.trigger = .manual) (outcome : RunOutcome) :
    ∃ (parts parts' : List Part) (i : Nat),
      s.calls.get? c = some (.triggering parts) ∧ parts[i]? = some (.run id) ∧
      ((s.note entry).finish id run outcome).calls.get? c = some (.triggering parts') ∧
      parts'[i]? = some (.settled (.ok outcome)) := by
  obtain ⟨call, hcall, hawaits⟩ := h.isAwaited.awaited id run c hrun (by rw [hphase]; simp) howner
  cases call with
  | triggering parts =>
    obtain ⟨i, hi⟩ := List.mem_iff_getElem?.1 hawaits.2
    have htold : ((s.note entry).finish id run outcome).calls.get? c =
        some ((Call.triggering parts).deliver id outcome) := by
      simp only [finish, howner, note, Table.get?_modify, if_true, hcall, Option.map_some]
    refine ⟨parts, _, i, hcall, hi, htold, ?_⟩
    rw [List.getElem?_map, hi]
    simp
  | catchingUp =>
    rw [hmanual] at hawaits
    cases hawaits
  | starting | stopping | leaving | draining | returned => exact hawaits.elim

/-- In every reachable state a task is running exactly while one run of it is outstanding, of which
there are never two. The outstanding run is in progress unless it has broken off, which happens only
in case of trouble. A run that meets a running task changes no record, calls no handler, and a
trigger that waits for it gets told. -/
theorem running_iff_outstanding {options : Options} {now : Instant}
    (hcreate : create? options now = some start) (hreplay : start.replay? events = some s) :
    (∀ number record, s.records.get? number = some record →
      (record.status = .running ↔ ∃! id, IsOutstanding s.journal number id) ∧
      (∀ a b, IsOutstanding s.journal number a → IsOutstanding s.journal number b → a = b) ∧
      (∀ id, IsOutstanding s.journal number id ↔
        s.InProgress number id ∨ s.IsStranded number id) ∧
      ((record.status = .running ↔ ∃! id, s.InProgress number id) ↔
        ∀ id, ¬ s.IsStranded number id)) ∧
    (start.StaysUntroubled events → ∀ number id, ¬ s.IsStranded number id) ∧
    ∀ id run record, s.runs.get? id = some run → run.phase = .spawned →
      s.records.get? run.record = some record → record.status = .running →
      ∃ s', s.step? (.begin id) = some s' ∧ s'.records = s.records ∧
        s'.journal = .refused id run.record :: s.journal ∧ s'.runs = s.runs.erase id ∧
        ∀ c, run.owner = .call c → run.trigger = .manual →
          ∃ (parts parts' : List Part) (i : Nat),
            s.calls.get? c = some (.triggering parts) ∧ parts[i]? = some (.run id) ∧
              s'.calls.get? c = some (.triggering parts') ∧
            parts'[i]? = some (.settled (.ok .alreadyRunning)) := by
  have h : s.Reachable := ⟨options, now, start, events, hcreate, hreplay⟩
  refine ⟨fun number record hrecord => ?_,
    fun huntroubled => not_isStranded_of_staysUntroubled hcreate huntroubled hreplay, ?_⟩
  · exact ⟨h.status_eq_running_iff hrecord, fun a b => h.isOutstanding_unique,
      fun id => h.isOutstanding_iff, h.status_eq_running_iff_inProgress hrecord⟩
  · intro id run record hrun hphase hrecord hrunning
    have hledger := ledger_finish (s.note (.refused id run.record)) id run .alreadyRunning
    refine ⟨_, ?_, congrArg Ledger.records hledger, congrArg Ledger.journal hledger,
      congrArg Ledger.runs hledger, fun c howner hmanual => ?_⟩
    · rw [← begin_of_running hrecord hrunning]
      simp only [step?, hrun, Option.bind_some, begin?, hphase, if_true]
    · exact h.trigger_of_finish hrun hphase howner hmanual .alreadyRunning

/-- Where deadlines can be reached, the clock can be read and no task has a schedule, nothing makes
a run break off. -/
theorem isUntroubled_of_unscheduled {now : Instant}
    (hdeadline : (momentAfter? s.clock s.options.taskTimeout).isSome = true)
    (hreading : s.reading = .ok now) (h : ∀ e ∈ s.records.entries, e.2.schedule = none) :
    s.IsUntroubled := by
  refine ⟨hdeadline, now, hreading, fun number record hrecord => ⟨none, ?_⟩⟩
  rw [h _ (Table.mem_entries_iff.2 hrecord)]
  rfl

/-- A task is dispatched and triggered at once, and the dispatched run comes first. -/
def twoRequests : List (Event Unit) :=
  [.request (.register (.new "backup" ())), .request (.runNow true "backup"),
    .request (.trigger ["backup"]), .step (.begin 1)]

theorem twoRequests_staysUntroubled :
    (initial Options.standard (.ofNanos 0)).StaysUntroubled twoRequests := by
  have hcalm : ∀ n < 4, ((initial Options.standard (.ofNanos 0)).replay? (twoRequests.take n)).all
      (fun s => (momentAfter? s.clock s.options.taskTimeout).isSome &&
        s.reading == .ok (.ofNanos 0) && s.records.entries.all (·.2.schedule.isNone)) = true := by
    decide
  refine ⟨fun n hn s hs => ?_, fun call => by simp [twoRequests]⟩
  have h := hcalm n hn
  rw [hs, Option.all_some, Bool.and_eq_true, Bool.and_eq_true, beq_iff_eq, List.all_eq_true] at h
  obtain ⟨⟨hdeadline, hreading⟩, hschedules⟩ := h
  exact isUntroubled_of_unscheduled hdeadline hreading fun e he =>
    Option.isNone_iff_eq_none.1 (hschedules e he)

/-- Of two runs of a task that were asked for at once one is in progress, and the other is
refused. -/
theorem running_iff_outstanding_of_two_requests :
    ∃ start s, create? Options.standard (.ofNanos 0) = some start ∧
      start.replay? twoRequests = some s ∧ (∃! id, IsOutstanding s.journal 0 id) ∧
      (∃! id, s.InProgress 0 id) ∧
      ∃ s', s.step? (.begin 3) = some s' ∧ s'.records = s.records ∧
        s'.journal = .refused 3 0 :: s.journal := by
  have hcreate : create? Options.standard (.ofNanos 0) =
      some (initial Options.standard (.ofNanos 0) : State Unit) := rfl
  obtain ⟨s, hs⟩ : ∃ s, (initial Options.standard (.ofNanos 0)).replay? twoRequests = some s :=
    Option.isSome_iff_exists.1 (by decide)
  have hstatus : ((initial Options.standard (.ofNanos 0)).replay? twoRequests).bind
      (fun s => (s.records.get? 0).map (·.status)) = some .running := by decide
  have hrun : ((initial Options.standard (.ofNanos 0)).replay? twoRequests).bind
      (fun s => s.runs.get? 3) = some ⟨0, .manual, .call 2, .spawned⟩ := by decide
  rw [hs, Option.bind_some] at hstatus hrun
  obtain ⟨record, hrecord, hrunning⟩ := Option.map_eq_some_iff.1 hstatus
  obtain ⟨hrecords, hstranded, hrefused⟩ := running_iff_outstanding hcreate hs
  obtain ⟨houtstanding, -, -, hprogress⟩ := hrecords 0 record hrecord
  have hnone := hstranded twoRequests_staysUntroubled 0
  obtain ⟨s', hstep, hsame, hjournal, -⟩ := hrefused 3 _ record hrun rfl hrecord hrunning
  exact ⟨_, s, hcreate, hs, houtstanding.1 hrunning, (hprogress.2 hnone).1 hrunning, s',
    hstep, hsame, hjournal⟩

/-- The standard options with the longest time allowed to a run. -/
def boundless : Options := { Options.standard with taskTimeout := .ofSecs Text.max64 }

/-- Ten o'clock on 15 June 2024. -/
def someMorning : Instant := .ofNanos 1718445600000000000

/-- A task is dispatched, and its run is looked at. -/
def oneRequest : List (Event Unit) :=
  [.request (.register (.new "backup" ())), .request (.runNow true "backup"), .step (.begin 1)]

/-- A running task need not have a run in progress: a run whose deadline lies past the end of the
steady clock breaks off behind the guard, and its task stays running. -/
theorem not_forall_running_iff_inProgress :
    ¬ ∀ s : State Unit, s.Reachable → ∀ number record, s.records.get? number = some record →
      (record.status = .running ↔ ∃! id, s.InProgress number id) := by
  intro hall
  obtain ⟨s, hs⟩ : ∃ s, (initial boundless someMorning).replay? oneRequest = some s :=
    Option.isSome_iff_exists.1 (by decide)
  have hreachable : s.Reachable := ⟨boundless, someMorning, _, oneRequest, rfl, hs⟩
  have hstatus : ((initial boundless someMorning).replay? oneRequest).bind
      (fun s => (s.records.get? 0).map (·.status)) = some .running := by decide
  have hruns : ((initial boundless someMorning).replay? oneRequest).map (fun s => s.runs.entries) =
      some [(1, ⟨0, .manual, .dispatched, .stranded⟩)] := by decide
  rw [hs, Option.bind_some] at hstatus
  rw [hs, Option.map_some, Option.some.injEq] at hruns
  obtain ⟨record, hrecord, hrunning⟩ := Option.map_eq_some_iff.1 hstatus
  obtain ⟨id, ⟨run, hrun, -, hactive⟩, -⟩ := (hall s hreachable 0 record hrecord).1 hrunning
  have hmem := Table.mem_entries_iff.2 hrun
  rw [hruns, List.mem_singleton] at hmem
  cases hmem
  cases hactive

end State

end CronDaemon.Scheduler
