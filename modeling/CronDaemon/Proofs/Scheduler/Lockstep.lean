import CronDaemon.Proofs.Scheduler.Batches

/-!
# Mirrored states go on alike

What is asked of a scheduler and what it does of itself makes the same of two states that mirror
each other, in whatever order their registries list the tasks, as long as there is no worker pool
and nothing makes a run break off. A run is told here by its task and by its place among the runs of
the task, since its number is another one in each state.
-/

namespace CronDaemon.Scheduler

open Job

variable {H : Type} {ρ σ : Equiv.Perm Nat}

/-- What may happen to a scheduler while no caller hangs up, told without the numbers of runs. -/
inductive Cue (H : Type) where
  | request (request : Request H)
  /-- A run of the task takes a step: the one at the place among the runs of the task, from zero
  on. -/
  | run (task : String) (place : Nat) (step : RunStep)
  | tick (loop : Nat)
  | leave (loop : Nat)
  | proceed (call : Nat)
  | elapse (time : Moment)

/-- The task that a request is about, if it is answered at once. -/
def Request.task? : Request H → Option String
  | .register spec => some spec.id
  | .remove id | .setEnabled id _ | .runNow _ id => some id
  | .trigger _ | .start | .stop | .setClock _ => none

/-- What requests are answered at once, each with the task that it is about. -/
abbrev Answers := List (String × Except SchedulerError Unit)

namespace State

variable {s s' t t' : State H} {number : Nat} {record : Record H} {run : Run} {name : String}

/-- The event that a cue stands for. -/
def event? (s : State H) : Cue H → Option (Event H)
  | .request request => some (.request request)
  | .run task place step => ((s.runsOf task)[place]?).map fun id => .step (step.on id)
  | .tick loop => some (.step (.tick loop))
  | .leave loop => some (.step (.leave loop))
  | .proceed call => some (.step (.proceed call))
  | .elapse time => some (.elapse time)

/-- What a cue makes of a state, if it is possible. -/
def obey? (s : State H) (cue : Cue H) : Option (State H) := (s.event? cue).bind s.fire?

/-- The answer that is given at once, with the task that it is about. -/
def answer (s : State H) : Cue H → Answers
  | .request request => (request.task?.map fun id => (id, (s.serve request).map fun _ => ())).toList
  | .run .. | .tick _ | .leave _ | .proceed _ | .elapse _ => []

/-- The states differ in their numbers alone, and in the order in which they list what belongs to
different tasks. -/
def Resembles (s s' : State H) : Prop := ∃ ρ, Mirrors ρ s s'

/-- Each state resembles itself. -/
theorem Resembles.refl (s : State H) : s.Resembles s := ⟨1, .refl s⟩

/-- What resembles a state resembles whatever that state resembles. -/
theorem Resembles.trans {s'' : State H} (h : s.Resembles s') (h' : s'.Resembles s'') :
    s.Resembles s'' := by
  obtain ⟨ρ, h⟩ := h
  obtain ⟨τ, h'⟩ := h'
  exact ⟨τ * ρ, h.trans h'⟩

/-- To obey a cue is to fire the event that it stands for. -/
theorem fire?_of_obey? {cue : Cue H} (h : s.obey? cue = some t) :
    ∃ event, s.event? cue = some event ∧ s.fire? event = some t :=
  Option.bind_eq_some_iff.1 h

/-- What a cue leads to from a reachable state is reachable. -/
theorem Reachable.obey? {cue : Cue H} (hs : s.Reachable) (h : s.obey? cue = some t) :
    t.Reachable := by
  obtain ⟨event, -, hfire⟩ := fire?_of_obey? h
  exact hs.fire? hfire

/-- No cue makes a worker pool. -/
theorem pool_eq_none_of_obey? {cue : Cue H} (hpool : s.pool = none) (h : s.obey? cue = some t) :
    t.pool = none := by
  obtain ⟨event, -, hfire⟩ := fire?_of_obey? h
  have hsame := (transition_of_fire? hfire).isSome_pool
  rw [hpool] at hsame
  exact Option.isNone_iff_eq_none.1 (Option.isSome_eq_false_iff.1 hsame)

/-! ### Requests -/

/-- Used numbers are renamed to used ones. -/
theorem Mirrors.lt_nextId (h : Mirrors ρ s s') {n : Nat} (hlt : n < s.nextId) :
    ρ n < s'.nextId := by
  rw [h.nextId]
  refine Nat.lt_of_not_le fun hle => ?_
  -- A number that is not used stays as it is, so that no other one becomes it.
  have hfixed : ρ (ρ n) = ρ n := h.fixed _ hle
  rw [ρ.injective hfixed] at hle
  exact Nat.not_lt.2 hle hlt

/-- A state that mirrors a numbered one is numbered. -/
theorem Mirrors.isNumbered (h : Mirrors ρ s s') (hs : s.IsNumbered) : s'.IsNumbered where
  record_lt n record hrecord := by
    obtain ⟨n, rfl⟩ := ρ.surjective n
    rw [h.records n, Option.map_id] at hrecord
    exact h.lt_nextId (hs.record_lt n record hrecord)
  registered_lt name n hname := by
    rw [show s'.registry.get? name = (s.registry.get? name).map ρ from h.registry name] at hname
    obtain ⟨n, hn, rfl⟩ := Option.map_eq_some_iff.1 hname
    exact h.lt_nextId (hs.registered_lt name n hn)
  run_lt k run hrun := by
    obtain ⟨k, rfl⟩ := ρ.surjective k
    rw [h.runs k] at hrun
    obtain ⟨run, hk, rfl⟩ := Option.map_eq_some_iff.1 hrun
    obtain ⟨hlt, hrecord⟩ := hs.run_lt k run hk
    exact ⟨h.lt_nextId hlt, h.lt_nextId hrecord⟩
  part_lt c parts k hcall hmem := by
    rw [show s'.calls.get? c = (s.calls.get? c).map (Call.renamed ρ) from h.calls c] at hcall
    obtain ⟨call, hc, he⟩ := Option.map_eq_some_iff.1 hcall
    cases call with
    | triggering parts' =>
      cases he
      obtain ⟨part, hpart, he⟩ := List.mem_map.1 hmem
      cases part with
      | run id =>
        cases he
        exact h.lt_nextId (hs.part_lt c parts' id hc hpart)
      | settled result => cases he
    | starting | catchingUp | stopping | leaving | draining | returned => cases he

/-- A call of a handler that the journal tells of was made on a record that exists. -/
theorem exists_id_of_began (hs : s.attemptsOf none = []) {id n attempt : Nat} {trigger : Trigger}
    {moment : Moment} (hmem : .began id n attempt trigger moment ∈ s.journal) :
    idsOf s.records n ≠ none := by
  intro hnone
  have hattempt : (⟨attempt, trigger, moment⟩ : Attempt) ∈ s.attemptsOf none := by
    refine List.mem_map.2 ⟨(n, _), List.mem_filter.2 ⟨List.mem_filterMap.2 ⟨_, hmem, rfl⟩, ?_⟩, rfl⟩
    exact decide_eq_true hnone
  rw [hs] at hattempt
  cases hattempt

/-- The handler was called only for records that are there. -/
theorem Reachable.record_of_began (hs : s.Reachable) {id n attempt : Nat} {trigger : Trigger}
    {moment : Moment} (hmem : .began id n attempt trigger moment ∈ s.journal) :
    ∃ record, s.records.get? n = some record := by
  refine hs.step_induction (motive := fun s => .began id n attempt trigger moment ∈ s.journal →
    ∃ record, s.records.get? n = some record) (by rintro _ _ ⟨⟩) ?_ hmem
  intro s event s' hs h ih hmem
  have hbefore : ∃ record, s.records.get? n = some record := by
    rcases h.report_cases rfl hmem with hold | hnew
    · exact ih hold
    · cases hnew with
      | began trigger hrun => exact hs.record_of_run hrun
  obtain ⟨record, hrecord⟩ := hbefore
  obtain ⟨record', hrecord', -⟩ := h.record_stays hs hrecord
  exact ⟨record', hrecord'⟩

/-- No attempt was made for a record without an id. -/
theorem Reachable.attemptsOf_none (hs : s.Reachable) : s.attemptsOf none = [] := by
  refine List.eq_nil_iff_forall_not_mem.2 fun attempt hmem => ?_
  obtain ⟨⟨n, attempt⟩, hfound, -⟩ := List.mem_map.1 hmem
  obtain ⟨htold, hnone⟩ := List.mem_filter.1 hfound
  obtain ⟨entry, hentry, htells⟩ := List.mem_filterMap.1 htold
  cases entry with
  | began id number attempt trigger moment =>
    cases htells
    obtain ⟨record, hrecord⟩ := hs.record_of_began hentry
    simp [idsOf, hrecord] at hnone
  | registered | refreshed | ticked | admitted | refused | ended | recorded => cases htells

/-- A new record has no runs and no attempts, whatever its task. -/
theorem views_enroll (hs : s.IsNumbered) (hattempts : s.attemptsOf none = []) (record : Record H) :
    (∀ name, runsIn (idsOf (s.records.insert s.nextId record)) s.runs name = s.runsOf name) ∧
      ∀ name, attemptsIn (idsOf (s.records.insert s.nextId record)) s.journal name =
        s.attemptsOf name := by
  have hids : ∀ n, n ≠ s.nextId →
      idsOf (s.records.insert s.nextId record) n = idsOf s.records n := by
    intro n hne
    rw [idsOf_insert, if_neg (Ne.symm hne)]
  constructor
  · refine runsIn_congr fun k run hrun => hids _ ?_
    exact Nat.ne_of_lt (hs.run_lt k run hrun).2
  · refine attemptsIn_congr fun id n attempt trigger moment hmem => hids n ?_
    rintro rfl
    refine exists_id_of_began hattempts hmem (Option.map_eq_none_iff.2 ?_)
    exact Option.eq_none_iff_forall_ne_some.2 fun record hrecord =>
      Nat.lt_irrefl _ (hs.record_lt _ record hrecord)

/-- Put a fresh record under a name. -/
def enroll (s : State H) (name : String) (record : Record H) : State H :=
  { s with
    records := s.records.insert s.nextId record
    registry := s.registry.insert name s.nextId
    nextId := s.nextId + 1 }.note (.registered s.nextId s.now)

/-- To register a task enrolls the record that is made of its spec. -/
theorem register_eq (s : State H) (spec : TaskSpec H) :
    s.register spec = (Record.ofSpec s.options.zone s.reading spec).map (s.enroll spec.id) := by
  unfold State.register
  cases Record.ofSpec s.options.zone s.reading spec <;> rfl

/-- A new record brings no run. -/
theorem runsOf_enroll (hs : s.IsNumbered) (hattempts : s.attemptsOf none = []) (name : String)
    (record : Record H) (task : String) : (s.enroll name record).runsOf task = s.runsOf task :=
  (views_enroll hs hattempts record).1 task

/-- A new record brings no attempt. -/
theorem attemptsOf_enroll (hs : s.IsNumbered) (hattempts : s.attemptsOf none = []) (name : String)
    (record : Record H) (task : Option String) :
    (s.enroll name record).attemptsOf task = s.attemptsOf task :=
  (attemptsIn_cons_of_none rfl task).trans ((views_enroll hs hattempts record).2 task)

/-- A record may be enrolled on both sides under the next number. -/
theorem Mirrors.enroll (h : Mirrors ρ s s') (hs : s.IsNumbered) (hattempts : s.attemptsOf none = [])
    (name : String) (record : Record H) :
    Mirrors ρ (s.enroll name record) (s'.enroll name record) := by
  have hattempts' : s'.attemptsOf none = [] := (h.attempts none).trans hattempts
  refine { h with
    bare := congrArg (fun b : State H => { b with nextId := b.nextId + 1 }) h.bare
    fixed := fun n hn => h.fixed n (Nat.le_of_succ_le hn)
    records := ?_
    registry := ?_
    queues := fun task => ?_
    attempts := fun task => ?_ }
  · have hrecords := h.records.insert s.nextId record
    rwa [h.renamed_nextId] at hrecords
  · have hregistry := h.registry.insert name s.nextId
    rwa [h.renamed_nextId] at hregistry
  · rw [runsOf_enroll hs hattempts, runsOf_enroll (h.isNumbered hs) hattempts', h.queues]
  · rw [attemptsOf_enroll hs hattempts, attemptsOf_enroll (h.isNumbered hs) hattempts', h.attempts]

/-- An id stands for the same record on both sides, under its renamed number. -/
theorem Mirrors.task? (h : Mirrors ρ s s') (name : String) :
    s'.task? name = (s.task? name).map fun e => (ρ e.1, e.2) := by
  unfold State.task?
  rw [show s'.registry.get? name = (s.registry.get? name).map ρ from h.registry name]
  cases s.registry.get? name with
  | none => rfl
  | some n =>
    simp only [Option.map_some, Option.bind_eq_bind, Option.bind_some, h.records n,
      Option.map_id, id]
    cases s.records.get? n <;> rfl

/-- Tasks may be asked for on both sides, with the renamed parts. -/
theorem Mirrors.askFor (h : Mirrors ρ s s') (hfresh : ∀ k, s.nextId ≤ k → s.runs.get? k = none)
    (call : Nat) (names : List String) :
    Mirrors ρ (s.askFor call names).1 (s'.askFor call names).1 ∧
      (s'.askFor call names).2 = (s.askFor call names).2.map (Part.renamed ρ) := by
  induction names generalizing s s' with
  | nil => exact ⟨h, rfl⟩
  | cons name names ih =>
    have htask := h.task? name
    unfold State.askFor
    cases hfound : s.task? name with
    | none =>
      rw [hfound] at htask
      obtain ⟨hrest, hparts⟩ := ih h hfresh
      simp only [htask, Option.map_none]
      exact ⟨hrest, by rw [hparts]; rfl⟩
    | some task =>
      rw [hfound] at htask
      have hspawned := h.spawn (hfresh _ (Nat.le_refl _)) task.1 .manual (.call call)
      obtain ⟨hrest, hparts⟩ := ih hspawned fun k hk => by
        have hlt : s.nextId < k := hk
        change (s.runs.insert s.nextId _).get? k = none
        rw [Table.get?_insert, if_neg (Nat.ne_of_lt hlt), hfresh k (Nat.le_of_lt hlt)]
      simp only [htask, Option.map_some]
      refine ⟨hrest, ?_⟩
      rw [hparts, List.map_cons, Part.renamed, h.renamed_nextId]

/-- A trigger asks for the same runs in both states. -/
theorem Mirrors.trigger (h : Mirrors ρ s s') (hfresh : ∀ k, s.nextId ≤ k → s.runs.get? k = none)
    (names : List String) : Mirrors ρ (s.trigger names) (s'.trigger names) := by
  have hopened : Mirrors ρ { s with nextId := s.nextId + 1 } { s' with nextId := s'.nextId + 1 } :=
    { h with
      bare := congrArg (fun b : State H => { b with nextId := b.nextId + 1 }) h.bare
      fixed := fun n hn => h.fixed n (Nat.le_of_succ_le hn) }
  obtain ⟨hasked, hparts⟩ :=
    hopened.askFor (fun k hk => hfresh k (Nat.le_of_succ_le hk)) s.nextId names
  have hcall := hasked.setCall s.nextId
    (.triggering ({ s with nextId := s.nextId + 1 }.askFor s.nextId names).2)
  have he : s'.trigger names = ({ s' with nextId := s'.nextId + 1 }.askFor s.nextId names).1.setCall
      s.nextId (.triggering ({ s' with nextId := s'.nextId + 1 }.askFor s.nextId names).2) := by
    unfold State.trigger
    rw [h.nextId]
  rw [Call.renamed, ← hparts] at hcall
  rw [he]
  exact hcall

/-- A call that waits for the lock is opened in both states. -/
theorem Mirrors.queue (h : Mirrors ρ s s') {call : Call} (hcall : call.renamed ρ = call) :
    Mirrors ρ
      { s.openCall call with lock := { s.lock with waiting := s.lock.waiting ++ [s.nextId] } }
      { s'.openCall call with lock :=
        { s'.lock with waiting := s'.lock.waiting ++ [s'.nextId] } } := by
  refine { h with
    bare := congrArg (fun b : State H => { b with
      nextId := b.nextId + 1
      lock := { b.lock with waiting := b.lock.waiting ++ [b.nextId] } }) h.bare
    fixed := fun n hn => h.fixed n (Nat.le_of_succ_le hn)
    calls := ?_ }
  have hcalls := h.calls.insert s.nextId call
  rw [hcall] at hcalls
  simp only [openCall, h.nextId]
  exact hcalls

/-- A request is answered alike, and makes the same of both states. -/
theorem Mirrors.serve (h : Mirrors ρ s s') (hs : s.Reachable) (request : Request H) :
    (∃ error, s.serve request = .error error ∧ s'.serve request = .error error) ∨
      ∃ t t', s.serve request = .ok t ∧ s'.serve request = .ok t' ∧ Mirrors ρ t t' := by
  have hregistry : ∀ name, s'.registry.get? name = (s.registry.get? name).map ρ := h.registry
  cases request with
  | register spec =>
    have hspec : Record.ofSpec s'.options.zone s'.reading spec =
        Record.ofSpec s.options.zone s.reading spec :=
      h.same fun b => Record.ofSpec b.options.zone b.reading spec
    simp only [State.serve, register_eq, hspec]
    cases Record.ofSpec s.options.zone s.reading spec with
    | error e => exact .inl ⟨e, rfl, rfl⟩
    | ok record =>
      exact .inr ⟨_, _, rfl, rfl, h.enroll hs.isNumbered hs.attemptsOf_none spec.id record⟩
  | remove name =>
    simp only [State.serve, State.remove, hregistry]
    cases s.registry.get? name with
    | none => exact .inl ⟨_, rfl, rfl⟩
    | some n =>
      exact .inr ⟨_, _, rfl, rfl, { h with bare := h.bare, registry := h.registry.erase name }⟩
  | setEnabled name enabled =>
    simp only [State.serve, State.setEnabled, hregistry]
    cases s.registry.get? name with
    | none => exact .inl ⟨_, rfl, rfl⟩
    | some n =>
      exact .inr ⟨_, _, rfl, rfl, h.withLedger (h.records.modify n fun _ => rfl)
        (idsOf_modify fun _ => rfl) (fun _ _ => rfl) (fun _ _ => rfl)⟩
  | runNow hasRuntime name =>
    simp only [State.serve, State.runNow, h.task? name]
    cases s.task? name with
    | none => exact .inl ⟨_, rfl, rfl⟩
    | some task =>
      cases hasRuntime with
      | false => exact .inl ⟨_, rfl, rfl⟩
      | true =>
        exact .inr
          ⟨_, _, rfl, rfl, h.spawn (hs.run_eq_none (Nat.le_refl _)) task.1 .manual .dispatched⟩
  | trigger names => exact .inr ⟨_, _, rfl, rfl, h.trigger (fun k => hs.run_eq_none) names⟩
  | start => exact .inr ⟨_, _, rfl, rfl, h.queue rfl⟩
  | stop => exact .inr ⟨_, _, rfl, rfl, h.queue rfl⟩
  | setClock now =>
    refine .inr ⟨_, _, rfl, rfl, { h with bare := ?_ }⟩
    exact congrArg (fun b : State H => { b with epoch := .ofNanos (now.folded - b.clock) }) h.bare

/-! ### Calls -/

/-- The outcomes of parts do not depend on the numbers of the runs. -/
theorem outcomes?_renamed (parts : List Part) :
    outcomes? (parts.map (Part.renamed ρ)) = outcomes? parts := by
  unfold outcomes?
  rw [List.mapM_map]
  congr 1
  funext part
  cases part <;> rfl

/-- A call has runs if one of them belongs to it. -/
theorem hasRunsOf_iff {call : Nat} :
    s.hasRunsOf call = true ↔ ∃ k run, s.runs.get? k = some run ∧ run.owner = .call call := by
  simp only [hasRunsOf, Table.values, List.any_map, List.any_eq_true, Function.comp,
    decide_eq_true_eq]
  constructor
  · rintro ⟨e, hmem, howner⟩
    exact ⟨e.1, e.2, Table.mem_entries_iff.1 hmem, howner⟩
  · rintro ⟨k, run, hrun, howner⟩
    exact ⟨(k, run), Table.mem_entries_iff.2 hrun, howner⟩

/-- A call has runs on both sides or on none. -/
theorem Mirrors.hasRunsOf (h : Mirrors ρ s s') (call : Nat) :
    s'.hasRunsOf call = s.hasRunsOf call := by
  rw [Bool.eq_iff_iff, hasRunsOf_iff, hasRunsOf_iff]
  constructor
  · rintro ⟨k, run, hrun, howner⟩
    obtain ⟨k, rfl⟩ := ρ.surjective k
    rw [h.runs k] at hrun
    obtain ⟨run, hk, rfl⟩ := Option.map_eq_some_iff.1 hrun
    exact ⟨k, run, hk, howner⟩
  · rintro ⟨k, run, hrun, howner⟩
    exact ⟨ρ k, _, h.get?_runs hrun, howner⟩

/-- A start may open its loop on both sides. -/
theorem Mirrors.openLoop (h : Mirrors ρ s s') (call : Nat) :
    Mirrors ρ (s.openLoop call) (s'.openLoop call) := by
  refine Mirrors.setCall ?_ call (.returned .started)
  exact { h with
    bare := congrArg (fun b : State H => { b with
      loops := b.loops.insert b.nextId ⟨b.lifetime, none⟩
      handle := some b.nextId
      running := true
      nextId := b.nextId + 1
      lock := b.lock.release }) h.bare
    fixed := fun n hn => h.fixed n (Nat.le_of_succ_le hn) }

/-- A stop that finds no loop handle returns at once. -/
theorem enterStop_of_none (hnone : s.handle = none) (call : Nat) :
    s.enterStop call = { s with lock := (s.lock.take call).release }.reply call .stopped := by
  simp only [State.enterStop]
  split
  · rfl
  · next hsome =>
    rw [show s.handle = some _ from hsome] at hnone
    cases hnone

/-- A stop that finds a loop handle takes it and ends the lifetime. -/
theorem enterStop_of_handle {loop : Nat} (hhandle : s.handle = some loop) (call : Nat) :
    s.enterStop call = { s with
      lock := (s.lock.take call).release
      handle := none
      lifetime := s.lifetime + 1
      ended := s.lifetime :: s.ended }.setCall call (.leaving loop) := by
  simp only [State.enterStop]
  split
  · next hnone =>
    rw [show s.handle = none from hnone] at hhandle
    cases hhandle
  · next hsome =>
    rw [show s.handle = some _ from hsome] at hhandle
    cases hhandle
    rfl

/-- A stop may get the lock on both sides. -/
theorem Mirrors.enterStop (h : Mirrors ρ s s') (call : Nat) :
    Mirrors ρ (s.enterStop call) (s'.enterStop call) := by
  have hhandle : s'.handle = s.handle := h.same State.handle
  have hfreed := h.setLock fun lock => (lock.take call).release
  cases hstored : s.handle with
  | none =>
    rw [enterStop_of_none hstored, enterStop_of_none (hhandle.trans hstored)]
    exact hfreed.setCall call (.returned .stopped)
  | some loop =>
    rw [enterStop_of_handle hstored, enterStop_of_handle (hhandle.trans hstored)]
    refine Mirrors.setCall ?_ call (.leaving loop)
    exact { hfreed with
      bare := congrArg (fun b : State H => { b with
        handle := none, lifetime := b.lifetime + 1, ended := b.lifetime :: b.ended }) hfreed.bare }

/-- A stop may begin to wait for runs on both sides. -/
theorem Mirrors.drain (h : Mirrors ρ s s') (call : Nat) :
    Mirrors ρ (s.drain call) (s'.drain call) := by
  have hwaits : ∀ t t' : State H, Mirrors ρ t t' →
      Mirrors ρ
        (t.setCall call
          (.draining (waitUntil t.clock t.options.shutdownGrace) t.dispatched.isEmpty))
        (t'.setCall call
          (.draining (waitUntil t'.clock t'.options.shutdownGrace) t'.dispatched.isEmpty)) := by
    intro t t' ht
    have hlimit : waitUntil t'.clock t'.options.shutdownGrace =
        waitUntil t.clock t.options.shutdownGrace :=
      ht.same fun b => waitUntil b.clock b.options.shutdownGrace
    rw [hlimit, ht.isEmpty_dispatched]
    exact ht.setCall call (.draining _ _)
  have hclosed : Mirrors ρ { s with running := false, closed := true }
      { s' with running := false, closed := true } :=
    { h with
      bare := congrArg (fun b : State H => { b with running := false, closed := true }) h.bare }
  exact hwaits _ _ hclosed.wakeStops

/-- A stop may return on both sides. -/
theorem Mirrors.endStop (h : Mirrors ρ s s') (call : Nat) :
    Mirrors ρ (s.endStop call) (s'.endStop call) := by
  refine Mirrors.setCall ?_ call (.returned .stopped)
  exact { h with bare := congrArg (fun b : State H => { b with closed := false }) h.bare }

/-- A call goes on in both states or in none. -/
theorem Mirrors.proceed? (h : Mirrors ρ s s') (hs : s.Reachable) (hcalm : s.IsUntroubled)
    (id : Nat) : Option.Rel Resembles (s.proceed? id) (s'.proceed? id) := by
  have hcall : s'.calls.get? id = (s.calls.get? id).map (Call.renamed ρ) := h.calls id
  have hnext : s'.lock.isNext id = s.lock.isNext id := h.same fun b => b.lock.isNext id
  have hclock : s'.clock = s.clock := h.same State.clock
  unfold State.proceed?
  rw [hcall]
  cases s.calls.get? id with
  | none => exact .none
  | some call =>
    cases call with
    | triggering parts =>
      simp only [Option.map_some, Call.renamed, outcomes?_renamed]
      cases outcomes? parts with
      | none => exact .none
      | some results => exact .some ⟨ρ, h.setCall id (.returned (.outcomes results))⟩
    | starting =>
      simp only [Option.map_some, Call.renamed, hnext]
      split
      · exact .some (h.enterStart hs hcalm id)
      · exact .none
    | catchingUp =>
      simp only [Option.map_some, Call.renamed, h.hasRunsOf]
      split
      · exact .none
      · exact .some ⟨ρ, h.openLoop id⟩
    | stopping =>
      simp only [Option.map_some, Call.renamed, hnext]
      split
      · exact .some ⟨ρ, h.enterStop id⟩
      · exact .none
    | leaving loop =>
      have hloop : s'.loops.contains loop = s.loops.contains loop :=
        h.same fun b => b.loops.contains loop
      simp only [Option.map_some, Call.renamed, hloop]
      split
      · exact .none
      · exact .some ⟨ρ, h.drain id⟩
    | draining limit woken =>
      simp only [Option.map_some, Call.renamed, hclock]
      split
      · exact .some ⟨ρ, h.endStop id⟩
      · exact .none
    | returned reply => exact .none

/-! ### Runs -/

/-- Runs of the same task in the same place take their steps alike. -/
theorem Mirrors.step? (h : Mirrors ρ s s') (hs : s.Reachable) (hcalm : s.IsUntroubled)
    (hpool : s.pool = none) {id : Nat} (hrun : s.runs.get? id = some run) (step : RunStep) :
    Option.Rel Resembles (s.step? (step.on id)) (s'.step? (step.on (ρ id))) := by
  obtain ⟨record, hrecord⟩ := hs.record_of_run hrun
  have hqueued : ∀ token, run.phase ≠ .queued token :=
    fun token => hs.not_queued_of_no_pool hpool hrun
  have hmirrored := step?_eq_perform (h.isUntroubled hcalm) ((h.same State.pool).trans hpool)
    (h.get?_runs hrun) (h.get?_records hrecord) hqueued step
  have hsame : s.bare.effect? record (run.renamed ρ) step = s.bare.effect? record run step :=
    effect?_congr rfl rfl step
  rw [step?_eq_perform hcalm hpool hrun hrecord hqueued, hmirrored, h.bare, hsame]
  cases heffect : s.bare.effect? record run step with
  | none => exact .none
  | some effect => exact .some ⟨ρ, h.perform hrecord (id_of_effect? heffect)⟩

/-- A cue makes the same of states that resemble each other. -/
theorem Resembles.obey? (h : s.Resembles s') (hs : s.Reachable) (hcalm : s.IsUntroubled)
    (hpool : s.pool = none) (cue : Cue H) : Option.Rel Resembles (s.obey? cue) (s'.obey? cue) := by
  obtain ⟨ρ, h⟩ := h
  unfold State.obey?
  cases cue with
  | request request =>
    simp only [event?, Option.bind_some, fire?]
    rcases h.serve hs request with ⟨error, he, he'⟩ | ⟨t, t', he, he', hmirrors⟩
    · rw [he, he']
      exact .some ⟨ρ, h⟩
    · rw [he, he']
      exact .some ⟨ρ, hmirrors⟩
  | run task place step =>
    simp only [event?, h.queues task, List.getElem?_map]
    cases hid : (s.runsOf task)[place]? with
    | none => exact .none
    | some id =>
      obtain ⟨run, hrun, -⟩ := mem_runsIn_iff.1 (List.mem_of_getElem? hid)
      exact h.step? hs hcalm hpool hrun step
  | tick loop =>
    have hloop : s'.loops.get? loop = s.loops.get? loop := h.same fun b => b.loops.get? loop
    have hclock : s'.clock = s.clock := h.same State.clock
    simp only [event?, Option.bind_some, fire?, State.step?, hloop]
    cases s.loops.get? loop with
    | none => exact .none
    | some found =>
      simp only [Option.bind_some, tick?, hclock]
      split
      · exact .some (h.tick hs loop found)
      · exact .none
  | leave loop =>
    have hloop : s'.loops.get? loop = s.loops.get? loop := h.same fun b => b.loops.get? loop
    have hended : s'.ended = s.ended := h.same State.ended
    simp only [event?, Option.bind_some, fire?, State.step?, hloop]
    cases s.loops.get? loop with
    | none => exact .none
    | some found =>
      simp only [Option.bind_some, leave?, hended]
      split
      · exact .some ⟨ρ, { h with
          bare := congrArg (fun b : State H => { b with loops := b.loops.erase loop }) h.bare }⟩
      · exact .none
  | proceed call => exact h.proceed? hs hcalm call
  | elapse time =>
    exact .some ⟨ρ, { h with
      bare := congrArg (fun b : State H => { b with clock := b.clock + time }) h.bare }⟩

/-- What is answered at once is the same in states that resemble each other. -/
theorem Resembles.answer (h : s.Resembles s') (hs : s.Reachable) (cue : Cue H) :
    s'.answer cue = s.answer cue := by
  obtain ⟨ρ, h⟩ := h
  cases cue with
  | request request =>
    simp only [State.answer]
    rcases h.serve hs request with ⟨error, he, he'⟩ | ⟨t, t', he, he', -⟩
    · rw [he, he']
    · rw [he, he']
      rfl
  | run | tick | leave | proceed | elapse => rfl

end State

end CronDaemon.Scheduler
