import CronDaemon.Proofs.Scheduler.Lockstep
import CronDaemon.Proofs.Scheduler.TaskMap

/-!
# What may come in either order

Steps of runs of different tasks, and registrations of different tasks at one moment, may change
places: what one of them does is not seen by the other, apart from a number that a registration
takes. Outcomes are told to calls in either order, and stops are woken by whichever dispatched run
is the last.
-/

namespace CronDaemon.Scheduler

open Job

variable {H : Type}

/-- The run is over with the effect. -/
def Effect.isLast (effect : Effect H) : Bool :=
  match effect.fate with
  | .ok _ => false
  | .error _ => true

/-- The run after the effect, if it goes on. -/
def Effect.onRun (effect : Effect H) (run : Run) : Option Run :=
  match effect.fate with
  | .ok phase => some { run with phase := phase }
  | .error _ => none

/-- An effect after which the run goes on changes its phase. -/
theorem Effect.onRun_of_ok {effect : Effect H} {phase : Phase} (h : effect.fate = .ok phase) :
    effect.onRun = fun run => some { run with phase := phase } := by
  funext run
  rw [Effect.onRun, h]

/-- An effect that ends the run drops it. -/
theorem Effect.onRun_of_error {effect : Effect H} {outcome : RunOutcome}
    (h : effect.fate = .error outcome) : effect.onRun = fun _ => none := by
  funext run
  rw [Effect.onRun, h]

/-- It does not matter in which order a call learns two outcomes. -/
theorem Call.deliver_deliver (call : Call) {a b : Nat} (hne : a ≠ b)
    (outcome outcome' : RunOutcome) :
    (call.deliver a outcome).deliver b outcome' = (call.deliver b outcome').deliver a outcome := by
  cases call with
  | triggering parts =>
    simp only [Call.deliver, List.map_map]
    congr 1
    refine List.map_congr_left fun part _ => ?_
    cases part with
    | run id =>
      simp only [Function.comp]
      by_cases ha : id = a
      · subst ha
        simp only [if_true, if_neg hne]
      · by_cases hb : id = b
        · subst hb
          simp only [if_neg ha, if_true]
        · simp only [if_neg ha, if_neg hb]
    | settled result => rfl
  | starting | catchingUp | stopping | leaving | draining | returned => rfl

/-- Nor does it matter whether a call is woken before or after it learns an outcome. -/
theorem Call.wake_deliver (call : Call) (run : Nat) (outcome : RunOutcome) :
    (call.deliver run outcome).wake = call.wake.deliver run outcome := by
  cases call <;> rfl

namespace State

variable {s s' t t' : State H} {k l : Nat} {run run' : Run} {record record' : Record H}
  {effect effect' : Effect H}

section Performing

/-- What an effect leaves of the records, the registry, the journal and the runs. -/
theorem views_perform (s : State H) (k : Nat) (run : Run) (effect : Effect H) :
    (s.perform k run effect).records = s.records.insert run.record effect.record ∧
      (s.perform k run effect).registry = s.registry ∧
      (s.perform k run effect).journal = effect.entries k run.record ++ s.journal ∧
      (s.perform k run effect).runs =
        match effect.fate with
        | .ok phase => (s.setPhase k phase).runs
        | .error _ => s.runs.erase k := by
  unfold perform
  cases effect.fate with
  | ok phase => exact ⟨rfl, rfl, rfl, rfl⟩
  | error outcome =>
    have hledger := ledger_finish (s.write k run.record effect) k run outcome
    have hframe := frame_finish (s.write k run.record effect) k run outcome
    exact ⟨congrArg Ledger.records hledger, congrArg Frame.registry hframe,
      congrArg Ledger.journal hledger, congrArg Ledger.runs hledger⟩

/-- An effect changes the record of its run alone. -/
theorem get?_records_perform (s : State H) (k : Nat) (run : Run) (effect : Effect H) (n : Nat) :
    (s.perform k run effect).records.get? n =
      if run.record = n then some effect.record else s.records.get? n := by
  rw [(s.views_perform k run effect).1, Table.get?_insert]

/-- An effect changes its run alone. -/
theorem get?_runs_perform (s : State H) (k : Nat) (run : Run) (effect : Effect H) (j : Nat) :
    (s.perform k run effect).runs.get? j =
      if k = j then (s.runs.get? j).bind effect.onRun else s.runs.get? j := by
  rw [(s.views_perform k run effect).2.2.2]
  cases hfate : effect.fate with
  | ok phase =>
    rw [Effect.onRun_of_ok hfate]
    change (s.runs.modify k _).get? j = _
    rw [Table.get?_modify, Option.map_eq_bind]
    rfl
  | error outcome =>
    rw [Effect.onRun_of_error hfate, Table.get?_erase]
    cases s.runs.get? j <;> rfl

/-- An effect that leaves a record to its task leaves all of them to theirs. -/
theorem idsOf_perform (hrecord : s.records.get? run.record = some record)
    (hid : effect.record.id = record.id) :
    idsOf (s.perform k run effect).records = idsOf s.records := by
  rw [(s.views_perform k run effect).1]
  exact idsOf_insert_of_eq hrecord hid

/-- The runs of a task are as before, but for the run if it has ended. -/
theorem runsOf_perform (hrecord : s.records.get? run.record = some record)
    (hid : effect.record.id = record.id) (name : String) :
    (s.perform k run effect).runsOf name =
      (s.runsOf name).filter fun j => j ≠ k || !effect.isLast := by
  rw [runsOf, idsOf_perform hrecord hid, (s.views_perform k run effect).2.2.2, Effect.isLast]
  cases effect.fate with
  | ok phase =>
    simp only [setPhase, Bool.not_false, Bool.or_true, List.filter_true]
    have hkept : ∀ run : Run, { run with phase := phase }.record = run.record := fun _ => rfl
    exact runsIn_modify hkept k name
  | error outcome =>
    simp only [Bool.not_true, Bool.or_false]
    exact runsIn_erase k name

/-- The attempts of a task are those before, after those of the effect if it is about the task. -/
theorem attemptsOf_perform (hrecord : s.records.get? run.record = some record)
    (hid : effect.record.id = record.id) (name : Option String) :
    (s.perform k run effect).attemptsOf name =
      (if idsOf s.records run.record = name then effect.attempts else []) ++ s.attemptsOf name := by
  rw [attemptsOf, idsOf_perform hrecord hid, (s.views_perform k run effect).2.2.1,
    attemptsIn_append, attemptsIn_entries]
  rfl

/-- The dispatched runs after a step of one: the run stays among them unless it is over. -/
theorem mem_dispatched_perform (hrun : s.runs.get? k = some run) (hlive : run.phase ≠ .stranded)
    (j : Nat) :
    j ∈ (s.perform k run effect).dispatched ↔ j ∈ s.dispatched ∧
      (j = k → effect.isLast = false) := by
  rw [mem_dispatched_iff, mem_dispatched_iff, get?_runs_perform]
  by_cases he : k = j
  · subst he
    rw [if_pos rfl, hrun, Effect.isLast]
    cases hfate : effect.fate with
    | ok phase =>
      have hphase : phase ≠ .stranded := fun h => effect.lives (by rw [hfate, h])
      simp [Effect.onRun_of_ok hfate, hphase, hlive]
    | error outcome => simp [Effect.onRun_of_error hfate]
  · simp [he, Ne.symm he]

/-- Without a run, no dispatched run is left if there was no other one. -/
theorem dispatched_eq_nil_iff_of_erase (h : t.runs = s.runs.erase k) :
    t.dispatched = [] ↔ ∀ j ∈ s.dispatched, j = k := by
  rw [List.eq_nil_iff_forall_not_mem]
  refine forall_congr' fun j => ?_
  rw [mem_dispatched_iff, mem_dispatched_iff, h, Table.get?_erase]
  by_cases he : k = j
  · simp [he]
  · simp [he, Ne.symm he]

/-- The stops are woken if one of them waits and no dispatched run is left. -/
theorem get?_calls_wakeStops (s : State H) (c : Nat) : s.wakeStops.calls.get? c =
    if s.closed = true ∧ s.dispatched = [] then (s.calls.get? c).map Call.wake else
      s.calls.get? c := by
  unfold wakeStops
  simp only [Bool.and_eq_true, List.isEmpty_iff]
  split
  · exact Table.lookup_map Call.wake c s.calls.entries
  · rfl

/-- No other dispatched run is left for which a stop waits. -/
def IsLastDispatched (s : State H) (k : Nat) : Prop := s.closed = true ∧ ∀ j ∈ s.dispatched, j = k

instance (s : State H) (k : Nat) : Decidable (s.IsLastDispatched k) :=
  inferInstanceAs (Decidable (s.closed = true ∧ ∀ j ∈ s.dispatched, j = k))

/-- What the effect of a step tells a call. -/
def tell (s : State H) (k : Nat) (run : Run) (effect : Effect H) (c : Nat) (call : Call) : Call :=
  match effect.fate, run.owner with
  | .ok _, _ => call
  | .error outcome, .call caller => if caller = c then call.deliver k outcome else call
  | .error _, .dispatched => if s.IsLastDispatched k then call.wake else call

/-- An effect tells each call what it is to hear, and nothing else. -/
theorem get?_calls_perform (s : State H) (k : Nat) (run : Run) (effect : Effect H) (c : Nat) :
    (s.perform k run effect).calls.get? c = (s.calls.get? c).map (s.tell k run effect c) := by
  have hkept : s.calls.get? c = (s.calls.get? c).map fun call => call :=
    (congrFun Option.map_id _).symm
  unfold perform tell
  cases effect.fate with
  | ok phase => exact hkept
  | error outcome =>
    unfold State.finish
    cases run.owner with
    | call caller =>
      simp only [write, Table.get?_modify]
      split
      · rfl
      · exact hkept
    | dispatched =>
      simp only [get?_calls_wakeStops, write]
      split
      · next h =>
        have hlast : s.IsLastDispatched k :=
          ⟨h.1, (dispatched_eq_nil_iff_of_erase (by rfl)).1 h.2⟩
        simp only [if_pos hlast]
      · next h =>
        have hnot : ¬ s.IsLastDispatched k := fun hlast =>
          h ⟨hlast.1, (dispatched_eq_nil_iff_of_erase (by rfl)).2 hlast.2⟩
        simp only [if_neg hnot]
        exact hkept

/-- An effect neither opens nor closes the wait of the stops. -/
theorem closed_perform (s : State H) (k : Nat) (run : Run) (effect : Effect H) :
    (s.perform k run effect).closed = s.closed := by
  have hbare := congrArg State.closed (s.bare_perform k run effect)
  exact hbare

/-- The step takes its run from the dispatched ones. -/
def Retires (run : Run) (effect : Effect H) : Prop := effect.isLast = true ∧ run.owner = .dispatched

/-- Only the step of a dispatched run that is over looks at the other dispatched runs. -/
theorem tell_congr (h : Retires run effect → (s.IsLastDispatched k ↔ s'.IsLastDispatched k))
    (c : Nat) (call : Call) : s.tell k run effect c call = s'.tell k run effect c call := by
  unfold Retires Effect.isLast at h
  unfold tell
  cases hfate : effect.fate with
  | ok phase => rfl
  | error outcome =>
    cases howner : run.owner with
    | call caller => rfl
    | dispatched =>
      rw [hfate, howner] at h
      exact if_congr (h ⟨rfl, rfl⟩) rfl rfl

/-- A dispatched run that ends is heard by the stops alone. -/
theorem tell_of_retires (h : Retires run effect) (c : Nat) (call : Call) :
    s.tell k run effect c call = if s.IsLastDispatched k then call.wake else call := by
  obtain ⟨hlast, howner⟩ := h
  unfold Effect.isLast at hlast
  unfold tell
  rw [howner]
  cases hfate : effect.fate with
  | ok phase =>
    rw [hfate] at hlast
    cases hlast
  | error outcome => rfl

/-- What two runs tell a call at one moment, they may tell it in either order. -/
theorem tell_tell (hne : k ≠ l) (c : Nat) (call : Call) :
    s.tell l run' effect' c (s.tell k run effect c call) =
      s.tell k run effect c (s.tell l run' effect' c call) := by
  unfold tell
  cases effect.fate with
  | ok phase => rfl
  | error outcome =>
    cases effect'.fate with
    | ok phase' => rfl
    | error outcome' =>
      cases run.owner with
      | call caller =>
        cases run'.owner with
        | call caller' =>
          have hcomm := call.deliver_deliver hne outcome outcome'
          dsimp only
          split <;> split <;> first | rfl | exact hcomm
        | dispatched =>
          have hcomm := call.wake_deliver k outcome
          dsimp only
          split <;> split <;> first | rfl | exact hcomm
      | dispatched =>
        cases run'.owner with
        | call caller' =>
          have hcomm := call.wake_deliver l outcome'
          dsimp only
          split <;> split <;> first | rfl | exact hcomm.symm
        | dispatched =>
          dsimp only
          split <;> split <;> rfl

/-- A dispatched run that is over is the last one but for another if these two are the only ones. -/
theorem isLastDispatched_perform (hk : s.runs.get? k = some run) (hlive : run.phase ≠ .stranded)
    (hretires : Retires run effect) : (s.perform k run effect).IsLastDispatched l ↔
      s.closed = true ∧ ∀ j ∈ s.dispatched, j = k ∨ j = l := by
  unfold IsLastDispatched
  rw [closed_perform]
  refine and_congr_right fun _ => forall_congr' fun j => ?_
  rw [mem_dispatched_perform hk hlive, hretires.1]
  by_cases he : j = k <;> simp [he]

/-- A run that stays dispatched, or never was, leaves it open which dispatched run is the last. -/
theorem isLastDispatched_perform_of_not (hk : s.runs.get? k = some run)
    (hlive : run.phase ≠ .stranded) (hnot : ¬ Retires run effect) :
    (s.perform k run effect).IsLastDispatched l ↔ s.IsLastDispatched l := by
  unfold IsLastDispatched
  rw [closed_perform]
  refine and_congr_right fun _ => forall_congr' fun j => ?_
  rw [mem_dispatched_perform hk hlive]
  refine imp_congr_left (and_iff_left_of_imp fun hmem => ?_)
  rintro rfl
  obtain ⟨run', hrun', howner, -⟩ := mem_dispatched_iff.1 hmem
  rw [hk] at hrun'
  cases hrun'
  exact Bool.eq_false_iff.2 fun hlast => hnot ⟨hlast, howner⟩

/-- Calls are told the same by steps of two runs in either order. -/
theorem tell_comm (hne : k ≠ l) (hk : s.runs.get? k = some run) (hl : s.runs.get? l = some run')
    (hlive : run.phase ≠ .stranded) (hlive' : run'.phase ≠ .stranded) (c : Nat) (call : Call) :
    (s.perform k run effect).tell l run' effect' c (s.tell k run effect c call) =
      (s.perform l run' effect').tell k run effect c (s.tell l run' effect' c call) := by
  by_cases hboth : Retires run effect ∧ Retires run' effect'
  · obtain ⟨hretires, hretires'⟩ := hboth
    have hmem : k ∈ s.dispatched := mem_dispatched_iff.2 ⟨run, hk, hretires.2, hlive⟩
    have hmem' : l ∈ s.dispatched := mem_dispatched_iff.2 ⟨run', hl, hretires'.2, hlive'⟩
    -- As long as both are there, none of them is the last one; in the end the second one is, or
    -- none is.
    have hfirst : s.tell k run effect c call = call := by
      rw [tell_of_retires hretires, if_neg fun h => hne (h.2 l hmem').symm]
    have hsecond : s.tell l run' effect' c call = call := by
      rw [tell_of_retires hretires', if_neg fun h => hne (h.2 k hmem)]
    rw [hfirst, hsecond, tell_of_retires hretires, tell_of_retires hretires']
    refine if_congr ?_ rfl rfl
    rw [isLastDispatched_perform hk hlive hretires, isLastDispatched_perform hl hlive' hretires']
    simp only [or_comm]
  · have hfirst : ∀ call, (s.perform k run effect).tell l run' effect' c call =
        s.tell l run' effect' c call :=
      tell_congr (fun h' => isLastDispatched_perform_of_not hk hlive fun h => hboth ⟨h, h'⟩) c
    have hsecond : ∀ call, (s.perform l run' effect').tell k run effect c call =
        s.tell k run effect c call :=
      tell_congr (fun h => isLastDispatched_perform_of_not hl hlive' fun h' => hboth ⟨h, h'⟩) c
    rw [hfirst, hsecond, tell_tell hne]

/-- Steps of runs of different tasks may take their effects in either order. -/
theorem Mirrors.perform_comm (hk : s.runs.get? k = some run) (hl : s.runs.get? l = some run')
    (hlive : run.phase ≠ .stranded) (hlive' : run'.phase ≠ .stranded)
    (hrecord : s.records.get? run.record = some record)
    (hrecord' : s.records.get? run'.record = some record') (hid : effect.record.id = record.id)
    (hid' : effect'.record.id = record'.id) (hother : record.id ≠ record'.id) :
    Mirrors 1 ((s.perform k run effect).perform l run' effect')
      ((s.perform l run' effect').perform k run effect) := by
  -- Runs of different tasks stand on different records, so that neither step reads what the other
  -- one writes.
  have hrun_ne : k ≠ l := by
    rintro rfl
    rw [hk] at hl
    cases hl
    rw [hrecord] at hrecord'
    cases hrecord'
    exact hother rfl
  have hrecord_ne : run.record ≠ run'.record := by
    intro he
    rw [← he, hrecord] at hrecord'
    cases hrecord'
    exact hother rfl
  have hrecord_after : (s.perform l run' effect').records.get? run.record = some record := by
    rw [get?_records_perform, if_neg hrecord_ne.symm, hrecord]
  have hrecord_after' : (s.perform k run effect).records.get? run'.record = some record' := by
    rw [get?_records_perform, if_neg hrecord_ne, hrecord']
  have hrenamed : Run.renamed 1 = id := rfl
  constructor
  case bare => simp only [bare_perform]
  case fixed => exact fun _ _ => rfl
  case records =>
    intro n
    rw [Option.map_id]
    change (State.perform _ k run effect).records.get? n =
      (State.perform _ l run' effect').records.get? n
    simp only [get?_records_perform]
    by_cases hn : run.record = n
    · subst hn
      simp only [if_true, if_neg hrecord_ne.symm]
    · simp only [if_neg hn]
  case registry =>
    intro name
    simp only [(views_perform _ _ _ _).2.1]
    exact (congrFun Option.map_id _).symm
  case runs =>
    intro j
    rw [hrenamed, Option.map_id]
    change (State.perform _ k run effect).runs.get? j = (State.perform _ l run' effect').runs.get? j
    simp only [get?_runs_perform]
    by_cases hj : k = j
    · subst hj
      simp only [if_true, if_neg hrun_ne.symm]
    · simp only [if_neg hj]
  case calls =>
    intro c
    have hsame : Call.renamed 1 = id := funext Call.renamed_one
    rw [hsame, Option.map_id]
    change (State.perform _ k run effect).calls.get? c = _
    rw [get?_calls_perform, get?_calls_perform, id, get?_calls_perform, get?_calls_perform,
      Option.map_map, Option.map_map]
    refine congrArg (fun change => Option.map change _) (funext fun call => ?_)
    exact (tell_comm hrun_ne hk hl hlive hlive' c call).symm
  case queues =>
    intro name
    rw [runsOf_perform hrecord_after hid, runsOf_perform hrecord' hid',
      runsOf_perform hrecord_after' hid',
      runsOf_perform hrecord hid, List.filter_filter, List.filter_filter]
    refine (List.filter_congr fun j _ => Bool.and_comm _ _).trans (List.map_id _).symm
  case attempts =>
    intro name
    rw [attemptsOf_perform hrecord_after hid, attemptsOf_perform hrecord' hid',
      attemptsOf_perform hrecord_after' hid', attemptsOf_perform hrecord hid,
      idsOf_perform hrecord hid, idsOf_perform hrecord' hid']
    have hids : idsOf s.records run.record = some record.id := by
      rw [idsOf, hrecord, Option.map_some]
    have hids' : idsOf s.records run'.record = some record'.id := by
      rw [idsOf, hrecord', Option.map_some]
    rw [hids, hids']
    by_cases hname : some record.id = name
    · have hname' : some record'.id ≠ name := fun h => hother (Option.some.inj (hname.trans h.symm))
      simp only [if_pos hname, if_neg hname', List.nil_append]
    · simp only [if_neg hname, List.nil_append]

end Performing

section Enrolling

variable {ρ : Equiv.Perm Nat} {name name' : String}

/-- A record that is enrolled takes the next number. -/
theorem IsNumbered.enroll (hs : s.IsNumbered) (name : String) (record : Record H) :
    (s.enroll name record).IsNumbered where
  record_lt n found h := by
    simp only [State.enroll, note, Table.get?_insert] at h
    split at h
    · next he => exact he ▸ Nat.lt_succ_self _
    · exact Nat.lt_succ_of_lt (hs.record_lt n found h)
  registered_lt task n h := by
    simp only [State.enroll, note, Table.get?_insert] at h
    split at h
    · cases h
      exact Nat.lt_succ_self _
    · exact Nat.lt_succ_of_lt (hs.registered_lt task n h)
  run_lt k run h :=
    ⟨Nat.lt_succ_of_lt (hs.run_lt k run h).1, Nat.lt_succ_of_lt (hs.run_lt k run h).2⟩
  part_lt c parts k h hmem := Nat.lt_succ_of_lt (hs.part_lt c parts k h hmem)

/-- Two tasks may be registered in either order. -/
theorem Mirrors.enroll_comm (hs : s.IsNumbered) (hattempts : s.attemptsOf none = [])
    (hne : name ≠ name') (record record' : Record H) :
    Mirrors (Equiv.swap s.nextId (s.nextId + 1)) ((s.enroll name record).enroll name' record')
      ((s.enroll name' record').enroll name record) := by
  have hfixes : ∀ n < s.nextId, Equiv.swap s.nextId (s.nextId + 1) n = n := fun _ => swap_of_lt
  have hnone : ∀ name record, (s.enroll name record).attemptsOf none = [] := fun name record =>
    (attemptsOf_enroll hs hattempts name record none).trans hattempts
  constructor
  case bare => rfl
  case fixed => exact fun _ => swap_of_le
  case records =>
    exact renames_insert_insert (renames_self hs.record_lt hfixes fun _ _ _ => rfl) rfl rfl
  case registry =>
    intro task
    change ((s.registry.insert name' s.nextId).insert name (s.nextId + 1)).get? task =
      (((s.registry.insert name s.nextId).insert name' (s.nextId + 1)).get? task).map _
    simp only [Table.get?_insert]
    by_cases htask : name = task
    · have htask' : name' ≠ task := fun h => hne (htask.trans h.symm)
      simp [htask, htask']
    · by_cases htask' : name' = task
      · simp [htask, htask']
      · simp only [if_neg htask, if_neg htask']
        exact hs.renames_registry hfixes task
  case runs => exact hs.renames_runs hfixes
  case calls => exact hs.renames_calls hfixes
  case queues =>
    intro task
    rw [runsOf_enroll (hs.enroll name' record') (hnone _ _), runsOf_enroll hs hattempts,
      runsOf_enroll (hs.enroll name record) (hnone _ _), runsOf_enroll hs hattempts,
      hs.map_runsOf hfixes]
  case attempts =>
    intro task
    rw [attemptsOf_enroll (hs.enroll name' record') (hnone _ _), attemptsOf_enroll hs hattempts,
      attemptsOf_enroll (hs.enroll name record) (hnone _ _), attemptsOf_enroll hs hattempts]

end Enrolling

section Untroubled

/-- A state is untroubled with another one that tells the same time, if the next run of each of its
records can be computed as well. -/
theorem IsUntroubled.of_records (h : s.IsUntroubled) (hoptions : s'.options = s.options)
    (hclock : s'.clock = s.clock) (hreading : s'.reading = s.reading)
    (hrecords : ∀ n record, s'.records.get? n = some record →
      (∃ n' record', s.records.get? n' = some record' ∧ record.schedule = record'.schedule) ∨
        ∃ next, nextRun s.options.zone record.schedule s.reading = .ok next) : s'.IsUntroubled := by
  obtain ⟨hdeadline, now, hnow, hnext⟩ := h
  refine ⟨by rw [hclock, hoptions, hdeadline], now, hreading.trans hnow, fun n record hrecord => ?_⟩
  rw [hoptions]
  rcases hrecords n record hrecord with ⟨n', record', hrecord', hschedule⟩ | hfresh
  · rw [hschedule]
    exact hnext n' record' hrecord'
  · rwa [hnow] at hfresh

/-- An effect brings no trouble, since it leaves the schedule of its record. -/
theorem IsUntroubled.perform (h : s.IsUntroubled)
    (hrecord : s.records.get? run.record = some record)
    (hprofile : effect.record.profile = record.profile) :
    (s.perform k run effect).IsUntroubled := by
  have hbare := s.bare_perform k run effect
  have hoptions := congrArg State.options hbare
  have hclock := congrArg State.clock hbare
  have hreading := congrArg State.reading hbare
  have hschedule := congrArg Record.schedule hprofile
  refine h.of_records hoptions hclock hreading fun n found hfound => .inl ?_
  rw [get?_records_perform] at hfound
  split at hfound
  · cases hfound
    exact ⟨run.record, record, hrecord, hschedule⟩
  · exact ⟨n, found, hfound, rfl⟩

/-- A new record brings no trouble if its next run can be computed. -/
theorem IsUntroubled.enroll (h : s.IsUntroubled) (name : String)
    (hnext : ∃ next, nextRun s.options.zone record.schedule s.reading = .ok next) :
    (s.enroll name record).IsUntroubled := by
  refine h.of_records rfl rfl rfl fun n found hfound => ?_
  change (s.records.insert s.nextId record).get? n = some found at hfound
  rw [Table.get?_insert] at hfound
  split at hfound
  · cases hfound
    exact .inr hnext
  · exact .inl ⟨n, found, hfound, rfl⟩

end Untroubled

/-! ### Cues in either order -/

/-- The run of a task in a place, with its record. -/
structure Targets (s : State H) (task : String) (place k : Nat) (run : Run) (record : Record H) :
    Prop where
  inPlace : (s.runsOf task)[place]? = some k
  isRun : s.runs.get? k = some run
  onRecord : s.records.get? run.record = some record
  ofTask : record.id = task

section Targets

variable {task task' : String} {place place' : Nat} {step step' : RunStep}

/-- The run at which a cue aims is one of its task. -/
theorem Targets.mem_runsOf (h : s.Targets task place k run record) : k ∈ s.runsOf task :=
  List.mem_of_getElem? h.inPlace

/-- A run of one task is no run of another one. -/
theorem Targets.notMem_runsOf (h : s.Targets task place k run record) (hne : task ≠ task') :
    k ∉ s.runsOf task' := by
  intro hmem
  obtain ⟨found, hfound, hid⟩ := mem_runsIn_iff.1 hmem
  rw [h.isRun] at hfound
  cases hfound
  rw [idsOf, h.onRecord, Option.map_some, h.ofTask] at hid
  exact hne (Option.some.inj hid)

/-- A step of a run leaves the runs of the other tasks alone. -/
theorem Targets.perform_iff (h : s.Targets task place k run record)
    (hid : effect.record.id = record.id) (hne : task ≠ task') :
    (s.perform k run effect).Targets task' place' l run' record' ↔
      s.Targets task' place' l run' record' := by
  have hruns : (s.perform k run effect).runsOf task' = s.runsOf task' := by
    rw [runsOf_perform h.onRecord hid]
    refine List.filter_eq_self.2 fun j hj => ?_
    have hjk : j ≠ k := fun he => h.notMem_runsOf hne (he ▸ hj)
    simp [hjk]
  have hother : l ∈ s.runsOf task' → k ≠ l := fun hmem he => h.notMem_runsOf hne (he ▸ hmem)
  constructor
  · intro ht
    have hkl := hother (hruns ▸ ht.mem_runsOf)
    have hrun := ht.isRun
    rw [get?_runs_perform, if_neg hkl] at hrun
    have hrecord := ht.onRecord
    rw [get?_records_perform] at hrecord
    split at hrecord
    · cases hrecord
      exact absurd (h.ofTask.symm.trans (hid.symm.trans ht.ofTask)) hne
    · exact ⟨hruns ▸ ht.inPlace, hrun, hrecord, ht.ofTask⟩
  · intro ht
    have hkl := hother ht.mem_runsOf
    have hrecord_ne : run.record ≠ run'.record := by
      intro he
      have hrecord := h.onRecord
      rw [he, ht.onRecord] at hrecord
      cases hrecord
      exact hne (h.ofTask.symm.trans ht.ofTask)
    refine ⟨hruns ▸ ht.inPlace, ?_, ?_, ht.ofTask⟩
    · rw [get?_runs_perform, if_neg hkl, ht.isRun]
    · rw [get?_records_perform, if_neg hrecord_ne, ht.onRecord]

/-- A run obeys by the effect of its step. -/
theorem obey?_run_iff (hs : s.Reachable) (hcalm : s.IsUntroubled) (hpool : s.pool = none) :
    s.obey? (.run task place step) = some t ↔ ∃ k run record effect,
      s.Targets task place k run record ∧ s.bare.effect? record run step = some effect ∧
        t = s.perform k run effect := by
  have hstep : ∀ {k : Nat} {run : Run} {record : Record H}, s.runs.get? k = some run →
      s.records.get? run.record = some record → s.step? (step.on k) =
        (s.bare.effect? record run step).map (s.perform k run) := fun hrun hrecord =>
    step?_eq_perform hcalm hpool hrun hrecord (fun _ => hs.not_queued_of_no_pool hpool hrun) step
  constructor
  · intro h
    obtain ⟨event, hevent, hfire⟩ := Option.bind_eq_some_iff.1 h
    obtain ⟨k, hplace, rfl⟩ := Option.map_eq_some_iff.1 hevent
    obtain ⟨run, hrun, hid⟩ := mem_runsIn_iff.1 (List.mem_of_getElem? hplace)
    obtain ⟨record, hrecord, hid⟩ := Option.map_eq_some_iff.1 hid
    have hfire : s.step? (step.on k) = some t := hfire
    rw [hstep hrun hrecord] at hfire
    obtain ⟨effect, heffect, rfl⟩ := Option.map_eq_some_iff.1 hfire
    exact ⟨k, run, record, effect, ⟨hplace, hrun, hrecord, hid⟩, heffect, rfl⟩
  · rintro ⟨k, run, record, effect, htargets, heffect, rfl⟩
    have hevent : s.event? (.run task place step) = some (.step (step.on k)) := by
      rw [event?, htargets.inPlace, Option.map_some]
    rw [obey?, hevent, Option.bind_some]
    change s.step? (step.on k) = _
    rw [hstep htargets.isRun htargets.onRecord, heffect, Option.map_some]

end Targets

/-- Cues that may come in either order: registrations of different tasks, and steps of runs of
different tasks. -/
inductive Independent : Cue H → Cue H → Prop
  | register {spec spec' : TaskSpec H} (h : spec.id ≠ spec'.id) :
    Independent (.request (.register spec)) (.request (.register spec'))
  | run {task task' : String} (h : task ≠ task') (place place' : Nat) (step step' : RunStep) :
    Independent (.run task place step) (.run task' place' step')

/-- Put the record that a registration makes under a name, if it makes one. -/
def enlist (s : State H) (name : String) (made : Except SchedulerError (Record H)) : State H :=
  match made with
  | .error _ => s
  | .ok record => s.enroll name record

/-- A registration is obeyed, also if it is refused. -/
theorem obey?_register (s : State H) (spec : TaskSpec H) : s.obey? (.request (.register spec)) =
    some (s.enlist spec.id (Record.ofSpec s.options.zone s.reading spec)) := by
  have hserve : s.serve (.register spec) = _ := register_eq s spec
  unfold obey? event?
  rw [Option.bind_some, fire?, hserve]
  cases Record.ofSpec s.options.zone s.reading spec <;> rfl

/-- A registration is answered by what is made of its spec. -/
theorem answer_register (s : State H) (spec : TaskSpec H) : s.answer (.request (.register spec)) =
    [(spec.id, (Record.ofSpec s.options.zone s.reading spec).map fun _ => ())] := by
  have hserve : s.serve (.register spec) = _ := register_eq s spec
  simp only [answer, Request.task?, hserve]
  cases Record.ofSpec s.options.zone s.reading spec <;> rfl

/-- What a registration makes of a specification does not depend on the registrations before it. -/
theorem ofSpec_enlist (s : State H) (name : String) (made : Except SchedulerError (Record H))
    (spec : TaskSpec H) :
    Record.ofSpec (s.enlist name made).options.zone (s.enlist name made).reading spec =
      Record.ofSpec s.options.zone s.reading spec := by
  cases made <;> rfl

section Commuting

variable {a b : Cue H} {u : State H}

/-- A registration brings no trouble. -/
theorem IsUntroubled.enlist (h : s.IsUntroubled) (spec : TaskSpec H) :
    (s.enlist spec.id (Record.ofSpec s.options.zone s.reading spec)).IsUntroubled := by
  cases hspec : Record.ofSpec s.options.zone s.reading spec with
  | error error => exact h
  | ok record => exact h.enroll spec.id ⟨_, (Record.isFresh_of_ofSpec hspec).nextRun⟩

/-- Registrations of different tasks lead to states that resemble each other in either order. -/
theorem enlist_comm (hs : s.IsNumbered) (hattempts : s.attemptsOf none = []) {name name' : String}
    (hne : name ≠ name') (made made' : Except SchedulerError (Record H)) :
    ((s.enlist name made).enlist name' made').Resembles
      ((s.enlist name' made').enlist name made) := by
  cases made with
  | error error => exact .refl _
  | ok record =>
    cases made' with
    | error error => exact .refl _
    | ok record' => exact ⟨_, Mirrors.enroll_comm hs hattempts hne record record'⟩

/-- What two cues lead to in one order they lead to in the other, with the same answers. -/
structure Commutes (s t u : State H) (a b : Cue H) (t' u' : State H) : Prop where
  first : s.obey? b = some t'
  second : t'.obey? a = some u'
  alike : u.Resembles u'
  untroubled : t'.IsUntroubled
  answer_second : t.answer b = s.answer b
  answer_first : t'.answer a = s.answer a

/-- Two registrations of different tasks at one moment may change places. -/
theorem commutes_register (hs : s.Reachable) (hcalm : s.IsUntroubled) {spec spec' : TaskSpec H}
    (hne : spec.id ≠ spec'.id) (ha : s.obey? (.request (.register spec)) = some t)
    (hb : t.obey? (.request (.register spec')) = some u) :
    ∃ t' u', s.Commutes t u (.request (.register spec)) (.request (.register spec')) t' u' := by
  rw [obey?_register] at ha
  cases ha
  rw [obey?_register, ofSpec_enlist] at hb
  cases hb
  refine ⟨_, _, s.obey?_register spec', obey?_register _ spec, ?_, hcalm.enlist spec', ?_, ?_⟩
  · rw [ofSpec_enlist]
    exact enlist_comm hs.isNumbered hs.attemptsOf_none hne _ _
  · rw [answer_register, answer_register, ofSpec_enlist]
  · rw [answer_register, answer_register, ofSpec_enlist]

/-- Two steps of runs of different tasks may change places, if there is no pool. -/
theorem commutes_run (hs : s.Reachable) (hcalm : s.IsUntroubled) (hpool : s.pool = none)
    {task task' : String} {place place' : Nat} {step step' : RunStep} (hne : task ≠ task')
    (ha : s.obey? (.run task place step) = some t)
    (hb : t.obey? (.run task' place' step') = some u) :
    ∃ t' u', s.Commutes t u (.run task place step) (.run task' place' step') t' u' := by
  obtain ⟨k, run, record, effect, htargets, heffect, rfl⟩ := (obey?_run_iff hs hcalm hpool).1 ha
  have hprofile := profile_of_effect? heffect
  have hid := id_of_effect? heffect
  obtain ⟨l, run', record', effect', htargets', heffect', rfl⟩ :=
    (obey?_run_iff (hs.obey? ha) (hcalm.perform htargets.onRecord hprofile)
      (pool_eq_none_of_obey? hpool ha)).1 hb
  rw [htargets.perform_iff hid hne] at htargets'
  rw [bare_perform] at heffect'
  have hprofile' := profile_of_effect? heffect'
  have hid' := id_of_effect? heffect'
  have hfirst : s.obey? (.run task' place' step') = some (s.perform l run' effect') :=
    (obey?_run_iff hs hcalm hpool).2 ⟨l, run', record', effect', htargets', heffect', rfl⟩
  have hcalm' := hcalm.perform (k := l) htargets'.onRecord hprofile'
  have hsecond : (s.perform l run' effect').obey? (.run task place step) =
      some ((s.perform l run' effect').perform k run effect) := by
    refine (obey?_run_iff (hs.obey? hfirst) hcalm' (pool_eq_none_of_obey? hpool hfirst)).2
      ⟨k, run, record, effect, ?_, ?_, rfl⟩
    · exact (htargets'.perform_iff hid' hne.symm).2 htargets
    · rw [bare_perform, heffect]
  have hlives : ∀ {run : Run} {record : Record H} {step : RunStep} {effect : Effect H},
      s.bare.effect? record run step = some effect → run.phase ≠ .stranded := by
    intro run record step effect heffect hphase
    rw [effect?_of_stranded hphase] at heffect
    cases heffect
  refine ⟨_, _, hfirst, hsecond, ⟨1, ?_⟩, hcalm', rfl, rfl⟩
  refine Mirrors.perform_comm htargets.isRun htargets'.isRun (hlives heffect) (hlives heffect')
    htargets.onRecord htargets'.onRecord hid hid' ?_
  rw [htargets.ofTask, htargets'.ofTask]
  exact hne

/-- Independent cues may be obeyed in either order. -/
theorem commutes_of_independent (hs : s.Reachable) (hcalm : s.IsUntroubled) (hpool : s.pool = none)
    (h : Independent a b) (ha : s.obey? a = some t) (hb : t.obey? b = some u) :
    ∃ t' u', s.Commutes t u a b t' u' := by
  cases h with
  | register hne => exact commutes_register hs hcalm hne ha hb
  | run hne place place' step step' => exact commutes_run hs hcalm hpool hne ha hb

end Commuting

end State

end CronDaemon.Scheduler
