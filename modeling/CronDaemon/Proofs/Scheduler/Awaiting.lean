import CronDaemon.Proofs.Scheduler.Moves

/-!
# Calls that wait for runs

A run that belongs to a call and has not broken off is awaited by that call: a trigger holds the
number of the run among its parts until the run has an outcome, and a start waits as long as it has
catch-up runs. What a call reads is the owner of each run that goes on, which changes keep, and the
phase of the call itself.
-/

namespace CronDaemon.Scheduler

open Job

/-- The call waits for the run, which was started by the given trigger. -/
def Call.Awaits (call : Call) (run : Nat) (trigger : Trigger) : Prop :=
  match call with
  | .triggering parts => trigger = .manual ∧ .run run ∈ parts
  | .catchingUp => trigger = .catchUp
  | .starting | .stopping | .leaving _ | .draining .. | .returned _ => False

/-- A call that is woken goes on waiting for the same runs. -/
theorem Call.Awaits.wake {call : Call} {run : Nat} {trigger : Trigger}
    (h : call.Awaits run trigger) : call.wake.Awaits run trigger := by
  cases call <;> exact h

/-- A call that learns the outcome of one run still waits for every other run. -/
theorem Call.Awaits.deliver {call : Call} {run other : Nat} {trigger : Trigger}
    (h : call.Awaits run trigger) (hne : run ≠ other) (outcome : RunOutcome) :
    (call.deliver other outcome).Awaits run trigger := by
  cases call with
  | triggering parts =>
    refine ⟨h.1, List.mem_map.2 ⟨.run run, h.2, ?_⟩⟩
    simp [hne]
  | catchingUp => exact h
  | starting | stopping | leaving | draining | returned => exact h.elim

/-- Whoever waits for a call that waits for runs may hang up. -/
theorem Call.Awaits.mayHangUp {call : Call} {run : Nat} {trigger : Trigger}
    (h : call.Awaits run trigger) : call.mayHangUp = true := by
  cases call with
  | triggering | catchingUp => rfl
  | starting | stopping | leaving | draining | returned => exact h.elim

/-- A call all of whose parts are settled waits for no run. -/
theorem run_notMem_of_outcomes? {parts : List Part}
    {results : List (Except SchedulerError RunOutcome)} (h : outcomes? parts = some results)
    (run : Nat) : .run run ∉ parts := by
  induction parts generalizing results with
  | nil => exact List.not_mem_nil
  | cons part parts ih =>
    simp only [outcomes?, List.mapM_cons, Option.bind_eq_bind, Option.bind_eq_some_iff] at h
    obtain ⟨first, hfirst, rest, hrest, -⟩ := h
    intro hmem
    rcases List.mem_cons.1 hmem with rfl | hmem
    · cases hfirst
    · exact ih hrest hmem

namespace State

variable {H : Type} {s s' s'' : State H} {id : Nat} {run : Run}

/-- Each run of a call that has not broken off is awaited by the call. -/
structure IsAwaited (s : State H) : Prop where
  call_lt : ∀ c, s.calls.contains c = true → c < s.nextId
  awaited : ∀ id run c, s.runs.get? id = some run → run.phase ≠ .stranded → run.owner = .call c →
    ∃ call, s.calls.get? c = some call ∧ call.Awaits id run.trigger

/-- No run and no call is new, and calls go on waiting for the runs that have neither ended nor
broken off. -/
structure Keeps (s s' : State H) : Prop where
  next : s'.nextId = s.nextId
  calls : ∀ c, s'.calls.contains c = true → s.calls.contains c = true
  runs : ∀ k run', s'.runs.get? k = some run' → run'.phase ≠ .stranded →
    ∃ run, s.runs.get? k = some run ∧ run.phase ≠ .stranded ∧ run.owner = run'.owner ∧
      run.trigger = run'.trigger
  awaits : ∀ k run' c call, s'.runs.get? k = some run' → run'.phase ≠ .stranded →
    run'.owner = .call c → s.calls.get? c = some call → call.Awaits k run'.trigger →
    ∃ call', s'.calls.get? c = some call' ∧ call'.Awaits k run'.trigger

/-- A change that leaves the runs and the calls keeps what is awaited. -/
theorem Keeps.of_eq (hnext : s'.nextId = s.nextId) (hcalls : s'.calls = s.calls)
    (hruns : s'.runs = s.runs) : Keeps s s' where
  next := hnext
  calls _ h := hcalls ▸ h
  runs _ run' hk hphase := ⟨run', hruns ▸ hk, hphase, rfl, rfl⟩
  awaits _ _ _ call _ _ _ hcall h := ⟨call, hcalls ▸ hcall, h⟩

/-- Two changes in a row keep what is awaited if each of them does. -/
theorem Keeps.trans (h : Keeps s s') (h' : Keeps s' s'') : Keeps s s'' where
  next := h'.next.trans h.next
  calls c hc := h.calls c (h'.calls c hc)
  runs k run'' hk hphase := by
    obtain ⟨run', hk', hphase', howner', htrigger'⟩ := h'.runs k run'' hk hphase
    obtain ⟨run, hk, hphase, howner, htrigger⟩ := h.runs k run' hk' hphase'
    exact ⟨run, hk, hphase, howner.trans howner', htrigger.trans htrigger'⟩
  awaits k run'' c call hk hphase howner hcall hawaits := by
    obtain ⟨run', hk', hphase', howner', htrigger'⟩ := h'.runs k run'' hk hphase
    obtain ⟨call', hcall', hawaits'⟩ := h.awaits k run' c call hk' hphase'
      (howner'.trans howner) hcall (htrigger' ▸ hawaits)
    exact h'.awaits k run'' c call' hk hphase howner hcall' (htrigger' ▸ hawaits')

/-- A change may set out from a state with the same runs and calls. -/
theorem Keeps.of_frame (h : Keeps s' s'') (hnext : s'.nextId = s.nextId)
    (hcalls : s'.calls = s.calls) (hruns : s'.runs = s.runs) : Keeps s s'' :=
  (Keeps.of_eq hnext hcalls hruns).trans h

/-- What each run is awaited by stays so through a change that keeps it. -/
theorem IsAwaited.keep (hs : s.IsAwaited) (h : Keeps s s') : s'.IsAwaited where
  call_lt c hc := h.next ▸ hs.call_lt c (h.calls c hc)
  awaited k run' c hk hphase howner := by
    obtain ⟨run, hrun, hphase', howner', htrigger⟩ := h.runs k run' hk hphase
    obtain ⟨call, hcall, hawaits⟩ := hs.awaited k run c hrun hphase' (howner'.trans howner)
    exact h.awaits k run' c call hk hphase howner hcall (htrigger ▸ hawaits)

/-- A run that goes on may change its phase. -/
theorem Keeps.setPhase (hrun : s.runs.get? id = some run) (h : run.phase ≠ .stranded)
    {phase : Phase} (hnext : s'.nextId = s.nextId) (hcalls : s'.calls = s.calls)
    (hruns : s'.runs = s.runs.modify id fun run => { run with phase := phase }) : Keeps s s' where
  next := hnext
  calls _ h := hcalls ▸ h
  runs k run' hk hphase := by
    rw [hruns, Table.get?_modify] at hk
    split at hk
    · next he =>
      subst he
      rw [hrun] at hk
      cases hk
      exact ⟨run, hrun, h, rfl, rfl⟩
    · exact ⟨run', hk, hphase, rfl, rfl⟩
  awaits _ _ _ call _ _ _ hcall h := ⟨call, hcalls ▸ hcall, h⟩

/-- A run that goes leaves the others awaited. -/
theorem Keeps.erase (s : State H) (id : Nat) : Keeps s { s with runs := s.runs.erase id } where
  next := rfl
  calls _ h := h
  runs k run' hk hphase := by
    rw [Table.get?_erase] at hk
    split at hk
    · cases hk
    · exact ⟨run', hk, hphase, rfl, rfl⟩
  awaits _ _ _ call _ _ _ hcall h := ⟨call, hcall, h⟩

/-- Each call is left or woken when the stops are woken. -/
theorem get?_wakeStops (s : State H) (c : Nat) :
    s.wakeStops.calls.get? c = s.calls.get? c ∨
      s.wakeStops.calls.get? c = (s.calls.get? c).map Call.wake := by
  unfold wakeStops
  split
  · exact .inr (Table.lookup_map Call.wake c s.calls.entries)
  · exact .inl rfl

/-- To wake the stops keeps what is awaited. -/
theorem Keeps.wakeStops (s : State H) : Keeps s s.wakeStops where
  next := congrArg Ledger.nextId (ledger_wakeStops s)
  calls c h := by
    rw [Table.contains] at h ⊢
    rcases get?_wakeStops s c with he | he <;> simpa [he] using h
  runs _ run' hk hphase := by
    have hruns : s.wakeStops.runs = s.runs := congrArg Ledger.runs (ledger_wakeStops s)
    exact ⟨run', hruns ▸ hk, hphase, rfl, rfl⟩
  awaits _ _ c call _ _ _ hcall h := by
    rcases get?_wakeStops s c with he | he
    · exact ⟨call, he.trans hcall, h⟩
    · exact ⟨call.wake, by rw [he, hcall]; rfl, h.wake⟩

/-- A run that has an outcome leaves, and its call learns the outcome. -/
theorem Keeps.finish (s : State H) (id : Nat) (run : Run) (outcome : RunOutcome) :
    Keeps s (s.finish id run outcome) := by
  unfold State.finish
  cases run.owner with
  | dispatched => exact (Keeps.erase s id).trans (Keeps.wakeStops _)
  | call call =>
    refine ⟨rfl, fun c h => ?_, (Keeps.erase s id).runs,
      fun k run' c waiting hk hphase howner hcall h => ?_⟩
    · rwa [Table.contains_modify] at h
    · have hne : k ≠ id := by
        rintro rfl
        simp at hk
      simp only [Table.get?_modify]
      split
      · next he =>
        subst he
        rw [hcall]
        exact ⟨_, rfl, h.deliver hne outcome⟩
      · exact ⟨waiting, hcall, h⟩

/-- A run that is left is awaited no longer, and the others are. -/
theorem Keeps.abandon (s : State H) (id : Nat) : Keeps s (s.abandon id) := by
  unfold State.abandon
  cases hrun : s.runs.get? id with
  | none => exact Keeps.of_eq rfl rfl rfl
  | some run =>
    obtain ⟨record, trigger, owner, phase⟩ := run
    cases phase with
    | spawned => exact Keeps.erase s id
    | queued | executing | resting => exact Keeps.setPhase hrun (by simp) rfl rfl rfl
    | stranded => exact Keeps.of_eq rfl rfl rfl

/-- What is left of an abandoned run has broken off. -/
theorem phase_of_abandon {run' : Run} (h : (s.abandon id).runs.get? id = some run') :
    run'.phase = .stranded := by
  unfold State.abandon at h
  cases hrun : s.runs.get? id with
  | none => simp [hrun] at h
  | some run =>
    obtain ⟨record, trigger, owner, phase⟩ := run
    cases phase <;>
      simp only [hrun, State.setPhase, State.dequeue, State.releasePermit, Table.get?_modify,
        Table.get?_erase, if_true, Option.map_some, reduceCtorEq, Option.some.injEq] at h <;>
      rw [← h]

/-- A call that breaks off has returned, and the other calls are as they were. -/
theorem calls_breakCall (s : State H) (call : Nat) (fault : Fault) :
    (s.breakCall call fault).calls = s.calls.insert call
      (.returned (.refused (.broken fault))) := by
  rw [breakCall_eq]

/-- So are the runs awaited that do not belong to a call that is left with all its runs. -/
theorem Keeps.abandonAll (call : Nat) (entries : List (Nat × Run)) (s : State H) :
    Keeps s (s.abandonAll call entries) := by
  unfold State.abandonAll
  induction entries generalizing s with
  | nil => exact Keeps.of_eq rfl rfl rfl
  | cons e entries ih =>
    rw [List.foldl_cons]
    split
    · exact (Keeps.abandon s e.1).trans (ih _)
    · exact ih s

/-- What is left of the runs of such a call has broken off. -/
theorem phase_of_abandonAll {call : Nat} {entries : List (Nat × Run)} {s : State H} {e : Nat × Run}
    (he : e ∈ entries) (howner : e.2.owner = .call call) {run' : Run}
    (h : (s.abandonAll call entries).runs.get? e.1 = some run') : run'.phase = .stranded := by
  induction entries generalizing s with
  | nil => cases he
  | cons first entries ih =>
    rw [State.abandonAll, List.foldl_cons] at h
    rcases List.mem_cons.1 he with rfl | he
    · rw [if_pos howner] at h
      refine Decidable.byContradiction fun hphase => ?_
      obtain ⟨run, hrun, hnot, -⟩ :=
        (Keeps.abandonAll call entries (s.abandon e.1)).runs _ run' h hphase
      exact hnot (phase_of_abandon hrun)
    · exact ih he h

/-- A call that breaks off leaves its runs, and they wait for nothing any more. -/
theorem Keeps.breakCall {call : Nat} (hcall : s.calls.contains call = true) (fault : Fault) :
    Keeps s (s.breakCall call fault) := by
  have hruns : (s.breakCall call fault).runs = (s.abandonAll call s.runs.entries).runs := by
    rw [breakCall_eq]
  have hkeeps := Keeps.abandonAll call s.runs.entries s
  refine ⟨?_, fun c h => ?_, hruns ▸ hkeeps.runs,
    fun k run' c waiting hk hphase howner hget h => ?_⟩
  · rw [breakCall_eq]
  · rw [Table.contains, calls_breakCall, Table.get?_insert] at h
    split at h
    · next he => exact he ▸ hcall
    · exact h
  · rw [hruns] at hk
    obtain ⟨run, hrun, -, howner', -⟩ := hkeeps.runs k run' hk hphase
    have hne : call ≠ c := by
      rintro rfl
      exact hphase (phase_of_abandonAll (Table.mem_entries_iff.2 hrun) (howner'.trans howner) hk)
    rw [calls_breakCall, Table.get?_insert, if_neg hne]
    exact ⟨waiting, hget, h⟩

/-- A call on which its caller hangs up breaks off. -/
theorem Keeps.hangUp {call : Nat} (hcall : s.calls.contains call = true) :
    Keeps s (s.hangUp call) := by
  refine Keeps.of_frame (Keeps.breakCall ?_ .hungUp) rfl rfl rfl
  exact hcall

/-- A run that breaks off, with its call if it has one, keeps what is awaited. -/
theorem Keeps.breakRun (s : State H) (id : Nat) (fault : Fault)
    (hcall : ∀ c, run.owner = .call c → s.calls.contains c = true) :
    Keeps s (s.breakRun id run fault) := by
  unfold State.breakRun
  cases howner : run.owner with
  | dispatched => exact (Keeps.abandon s id).trans (Keeps.wakeStops _)
  | call call => exact Keeps.breakCall (hcall call howner) fault

/-- A run that ends is awaited no longer, and the others are. -/
theorem Keeps.conclude (s : State H) (id : Nat) (result : Except JobError Unit)
    (hcall : ∀ c, run.owner = .call c → s.calls.contains c = true) :
    Keeps s (s.conclude id run result) := by
  rcases s.conclude_cases id run result with ⟨-, he⟩ | ⟨fault, -, he⟩ | ⟨_, now, after, -, -, -, he⟩
  · rw [he]
    exact Keeps.of_eq rfl rfl rfl
  · rw [he]
    exact Keeps.breakRun s id fault hcall
  · rw [he, putDown]
    split <;> exact (Keeps.finish _ id run _).of_frame rfl rfl rfl

/-- A call of the handler keeps what is awaited. -/
theorem Keeps.attempt (hrun : s.runs.get? id = some run) (h : run.phase ≠ .stranded) (token : Token)
    (deadline : Moment) (number : Nat) : Keeps s (s.attempt id run token deadline number) :=
  Keeps.setPhase hrun h rfl rfl rfl

/-- A run that is launched is awaited as before, unless it breaks off. -/
theorem Keeps.launch (hrun : s.runs.get? id = some run) (h : run.phase ≠ .stranded) (token : Token)
    (hcall : ∀ c, run.owner = .call c → s.calls.contains c = true) :
    Keeps s (s.launch id run token) := by
  unfold State.launch
  split
  · exact Keeps.setPhase hrun h rfl rfl rfl
  · have hqueued : Keeps s (s.setPhase id (.queued token)) := Keeps.setPhase hrun h rfl rfl rfl
    exact hqueued.trans (Keeps.breakRun _ id _ hcall)

/-- The first look at a run keeps what is awaited. -/
theorem Keeps.begin (hrun : s.runs.get? id = some run) (h : run.phase ≠ .stranded)
    (hcall : ∀ c, run.owner = .call c → s.calls.contains c = true) :
    Keeps s (s.begin id run) := by
  unfold State.begin
  split
  · exact Keeps.of_eq rfl rfl rfl
  · split
    · exact (Keeps.finish _ id run _).of_frame rfl rfl rfl
    · simp only [accept]
      split
      · refine Keeps.of_frame (Keeps.launch ?_ h _ ?_) rfl rfl rfl
        · exact hrun
        · exact hcall
      · exact Keeps.setPhase hrun h rfl rfl rfl

/-- The end of an attempt keeps what is awaited. -/
theorem Keeps.endAttempt (hrun : s.runs.get? id = some run) (h : run.phase ≠ .stranded)
    (hcall : ∀ c, run.owner = .call c → s.calls.contains c = true) (token : Token)
    (deadline : Moment) (number : Nat) (ending : Ending) :
    Keeps s (s.endAttempt id run token deadline number ending) := by
  simp only [State.endAttempt]
  split
  · refine Keeps.of_frame (Keeps.conclude _ id _ ?_) rfl rfl rfl
    exact hcall
  · split
    · exact Keeps.setPhase hrun h rfl rfl rfl
    · refine Keeps.of_frame (Keeps.conclude _ id _ ?_) rfl rfl rfl
      exact hcall

/-- The call that waits for a run is there. -/
theorem IsAwaited.contains_owner (hs : s.IsAwaited) (hrun : s.runs.get? id = some run)
    (h : run.phase ≠ .stranded) (c : Nat) (howner : run.owner = .call c) :
    s.calls.contains c = true := by
  obtain ⟨call, hcall, -⟩ := hs.awaited id run c hrun h howner
  rw [Table.contains, hcall]
  rfl

/-- All runs that are new are of a kind, and the calls and the other runs are as they were. -/
structure Adds (kind : Nat → Run → Prop) (s s' : State H) : Prop where
  calls : s'.calls = s.calls
  next : s.nextId ≤ s'.nextId
  runs : ∀ k run, s'.runs.get? k = some run → s.runs.get? k = some run ∨ kind k run
  old : ∀ k < s.nextId, s'.runs.get? k = s.runs.get? k

/-- A change that leaves the runs and the calls adds nothing. -/
theorem Adds.of_eq {kind : Nat → Run → Prop} (hcalls : s'.calls = s.calls)
    (hnext : s.nextId ≤ s'.nextId) (hruns : s'.runs = s.runs) : Adds kind s s' :=
  ⟨hcalls, hnext, fun _ _ h => .inl (hruns ▸ h), fun _ _ => by rw [hruns]⟩

/-- Two changes in a row add what each of them adds. -/
theorem Adds.trans {kind : Nat → Run → Prop} (h : Adds kind s s') (h' : Adds kind s' s'') :
    Adds kind s s'' where
  calls := h'.calls.trans h.calls
  next := Nat.le_trans h.next h'.next
  runs k run hrun := by
    rcases h'.runs k run hrun with hold | hnew
    · exact h.runs k run hold
    · exact .inr hnew
  old k hk := (h'.old k (Nat.lt_of_lt_of_le hk h.next)).trans (h.old k hk)

/-- What is added may be told with less. -/
theorem Adds.mono {kind kind' : Nat → Run → Prop} (h : Adds kind s s')
    (hkind : ∀ k run, kind k run → kind' k run) : Adds kind' s s' :=
  ⟨h.calls, h.next, fun k run hrun => (h.runs k run hrun).imp_right (hkind k run), h.old⟩

/-- To spawn a run adds it and nothing else. -/
theorem Adds.spawn {kind : Nat → Run → Prop} {record : Nat} {trigger : Trigger} {owner : Owner}
    (h : kind s.nextId ⟨record, trigger, owner, .spawned⟩) :
    Adds kind s (s.spawn record trigger owner) where
  calls := rfl
  next := Nat.le_succ _
  runs k run hrun := by
    rw [State.spawn, Table.get?_insert] at hrun
    split at hrun
    · next he =>
      subst he
      cases hrun
      exact .inr h
    · exact .inl hrun
  old k hk := by rw [State.spawn, Table.get?_insert, if_neg (Nat.ne_of_gt hk)]

/-- Dispatched runs are awaited by no call. -/
theorem IsAwaited.dispatch (hs : s.IsAwaited)
    (h : Adds (fun _ run => run.owner = .dispatched) s s') : s'.IsAwaited where
  call_lt c hc := Nat.lt_of_lt_of_le (hs.call_lt c (h.calls ▸ hc)) h.next
  awaited k run c hk hphase howner := by
    rw [h.calls]
    rcases h.runs k run hk with hold | hdispatched
    · exact hs.awaited k run c hold hphase howner
    · rw [hdispatched] at howner
      cases howner

/-- A call for which no run goes on may enter a phase in which it awaits the runs that are spawned
for it. -/
theorem IsAwaited.setCall (hs : s.IsAwaited) {c : Nat} {call : Call} (hnext : s.nextId ≤ s'.nextId)
    (hlt : c < s'.nextId) (hcalls : s'.calls = s.calls.insert c call)
    (hfree : ∀ k run, s.runs.get? k = some run → run.phase ≠ .stranded → run.owner ≠ .call c)
    (hruns : ∀ k run, s'.runs.get? k = some run →
      s.runs.get? k = some run ∨ run.owner = .call c ∧ call.Awaits k run.trigger) :
    s'.IsAwaited where
  call_lt c' hc' := by
    rw [Table.contains, hcalls, Table.get?_insert] at hc'
    split at hc'
    · next he => exact he ▸ hlt
    · exact Nat.lt_of_lt_of_le (hs.call_lt c' hc') hnext
  awaited k run c' hk hphase howner := by
    rw [hcalls, Table.get?_insert]
    rcases hruns k run hk with hold | ⟨hnew, hawaits⟩
    · rw [if_neg fun he : c = c' => hfree k run hold hphase (he ▸ howner)]
      exact hs.awaited k run c' hold hphase howner
    · rw [hnew] at howner
      cases howner
      exact ⟨call, if_pos rfl, hawaits⟩

/-- No run goes on for a call that awaits none. -/
theorem IsAwaited.owner_ne (hs : s.IsAwaited) {c : Nat} {call : Call}
    (hcall : s.calls.get? c = some call) (hidle : ∀ k trigger, ¬ call.Awaits k trigger) (k : Nat)
    (run : Run) (hrun : s.runs.get? k = some run) (h : run.phase ≠ .stranded) :
    run.owner ≠ .call c := by
  intro howner
  obtain ⟨call', hcall', hawaits⟩ := hs.awaited k run c hrun h howner
  rw [hcall] at hcall'
  cases hcall'
  exact hidle k run.trigger hawaits

/-- No run goes on for a call that is not open yet. -/
theorem IsAwaited.owner_ne_nextId (hs : s.IsAwaited) (k : Nat) (run : Run)
    (hrun : s.runs.get? k = some run) (h : run.phase ≠ .stranded) : run.owner ≠ .call s.nextId := by
  intro howner
  exact Nat.lt_irrefl _ (hs.call_lt _ (hs.contains_owner hrun h _ howner))

/-- A record is registered under some id. -/
def IsRegistered (s : State H) (number : Nat) : Prop := ∃ name, s.registry.get? name = some number

/-- The registered records are those that the registry lists. -/
theorem isRegistered_iff_mem_values {number : Nat} :
    s.IsRegistered number ↔ number ∈ s.registry.values := by
  simp only [IsRegistered, Table.values, List.mem_map, ← Table.mem_entries_iff, Prod.exists,
    exists_eq_right]

/-- The record of a task is registered. -/
theorem isRegistered_of_task? {name : String} {number : Nat} {record : Record H}
    (h : s.task? name = some (number, record)) : s.IsRegistered number :=
  ⟨name, (task?_eq_some_iff.1 h).1⟩

/-- The tasks of a scheduler are the registered records. -/
theorem mem_tasks_iff {number : Nat} {record : Record H} :
    (number, record) ∈ s.tasks ↔ s.IsRegistered number ∧ s.records.get? number = some record := by
  simp only [tasks, List.mem_filterMap, Option.map_eq_some_iff, Prod.mk.injEq, Table.values,
    List.mem_map, IsRegistered, ← Table.mem_entries_iff (t := s.registry)]
  constructor
  · rintro ⟨k, ⟨e, he, rfl⟩, record', hrecord, rfl, rfl⟩
    exact ⟨⟨e.1, he⟩, hrecord⟩
  · rintro ⟨⟨name, hname⟩, hrecord⟩
    exact ⟨number, ⟨_, hname, rfl⟩, record, hrecord, rfl, rfl⟩

/-- To ask for tasks adds runs on demand on registered records, each of which is a part of the call.
-/
theorem adds_askFor (call : Nat) (names : List String) (s : State H) :
    Adds (fun k run => run.phase = .spawned ∧ run.owner = .call call ∧ run.trigger = .manual ∧
      s.IsRegistered run.record ∧ .run k ∈ (s.askFor call names).2) s (s.askFor call names).1 := by
  induction names generalizing s with
  | nil => exact Adds.of_eq rfl (Nat.le_refl _) rfl
  | cons name names ih =>
    unfold askFor
    cases htask : s.task? name with
    | none =>
      refine (ih s).mono fun k run h => ?_
      exact ⟨h.1, h.2.1, h.2.2.1, h.2.2.2.1, List.mem_cons_of_mem _ h.2.2.2.2⟩
    | some task =>
      have hregistered : s.IsRegistered task.1 := isRegistered_of_task? htask
      have hrest := ih (s.spawn task.1 .manual (.call call))
      refine (Adds.spawn ⟨rfl, rfl, rfl, hregistered, List.mem_cons_self⟩).trans
        (hrest.mono fun k run h => ?_)
      exact ⟨h.1, h.2.1, h.2.2.1, h.2.2.2.1, List.mem_cons_of_mem _ h.2.2.2.2⟩

/-- To dispatch runs adds runs that nobody waits for. -/
theorem adds_dispatchAll (records : List Nat) (s : State H) :
    Adds (fun _ run => run.phase = .spawned ∧ run.owner = .dispatched) s
      (s.dispatchAll records) := by
  unfold dispatchAll
  induction records generalizing s with
  | nil => exact Adds.of_eq rfl (Nat.le_refl _) rfl
  | cons record records ih => exact (Adds.spawn ⟨rfl, rfl⟩).trans (ih _)

/-- The catch-up pass adds catch-up runs of its start, on registered records. -/
theorem adds_catchUp (s : State H) (call : Nat) :
    Adds (fun _ run => run.phase = .spawned ∧ run.owner = .call call ∧ run.trigger = .catchUp ∧
      s.IsRegistered run.record) s (s.catchUp call) := by
  have heach : ∀ (cutoff : Instant) (tasks : List (Nat × Record H)) (s' : State H),
      (∀ task ∈ tasks, s.IsRegistered task.1) →
      Adds (fun _ run => run.phase = .spawned ∧ run.owner = .call call ∧ run.trigger = .catchUp ∧
        s.IsRegistered run.record) s' (s'.catchUpEach call cutoff tasks) := by
    intro cutoff tasks
    unfold catchUpEach
    induction tasks with
    | nil => exact fun s' _ => Adds.of_eq rfl (Nat.le_refl _) rfl
    | cons task tasks ih =>
      intro s' h
      refine Adds.trans ?_ (ih (s'.catchUpTask call cutoff task.1 task.2)
        fun other hother => h other (List.mem_cons_of_mem _ hother))
      unfold catchUpTask
      split
      · exact Adds.of_eq rfl (Nat.le_refl _) rfl
      · split
        · exact Adds.of_eq rfl (Nat.le_refl _) rfl
        · exact Adds.spawn ⟨rfl, rfl, rfl, h task List.mem_cons_self⟩
  unfold catchUp
  split
  · exact Adds.of_eq rfl (Nat.le_refl _) rfl
  · exact heach _ s.tasks s fun task htask => (mem_tasks_iff.1 htask).1

/-- To ask for tasks spawns runs and does nothing else. -/
theorem askFor_eq (call : Nat) (names : List String) (s : State H) :
    ∃ runs nextId, (s.askFor call names).1 = { s with runs := runs, nextId := nextId } := by
  induction names generalizing s with
  | nil => exact ⟨s.runs, s.nextId, rfl⟩
  | cons name names ih =>
    unfold askFor
    cases s.task? name with
    | none => exact ih s
    | some task => exact ih (s.spawn task.1 .manual (.call call))

/-- To dispatch runs spawns them and does nothing else. -/
theorem dispatchAll_eq (records : List Nat) (s : State H) :
    ∃ runs nextId, s.dispatchAll records = { s with runs := runs, nextId := nextId } := by
  unfold dispatchAll
  induction records generalizing s with
  | nil => exact ⟨s.runs, s.nextId, rfl⟩
  | cons record records ih => exact ih (s.spawn record .schedule .dispatched)

/-- The catch-up pass spawns runs, passes over tasks, and does nothing else. -/
theorem catchUp_eq (s : State H) (call : Nat) : ∃ records runs nextId,
    s.catchUp call = { s with records := records, runs := runs, nextId := nextId } := by
  have heach : ∀ (cutoff : Instant) (tasks : List (Nat × Record H)) (s : State H),
      ∃ records runs nextId, s.catchUpEach call cutoff tasks =
        { s with records := records, runs := runs, nextId := nextId } := by
    intro cutoff tasks
    unfold catchUpEach
    induction tasks with
    | nil => exact fun s => ⟨s.records, s.runs, s.nextId, rfl⟩
    | cons task tasks ih =>
      intro s
      obtain ⟨records, runs, nextId, he⟩ := ih (s.catchUpTask call cutoff task.1 task.2)
      refine ⟨records, runs, nextId, he.trans ?_⟩
      unfold catchUpTask
      split
      · rfl
      · split <;> rfl
  unfold catchUp
  split
  · exact ⟨s.records, s.runs, s.nextId, rfl⟩
  · exact heach _ s.tasks s

/-- Computing next runs anew changes records, tells of it, and does nothing else. -/
theorem refreshEach_eq (now : Instant) (numbers : List Nat) (s : State H) : ∃ records journal,
    (s.refreshEach now numbers).1 = { s with records := records, journal := journal } := by
  induction numbers generalizing s with
  | nil => exact ⟨s.records, s.journal, rfl⟩
  | cons number numbers ih =>
    unfold refreshEach
    split
    · exact ih s
    · split
      · exact ⟨s.records, s.journal, rfl⟩
      · next after _ =>
        exact ih ({ s with records := s.records.insert number after }.note (.refreshed number now))

/-- Whoever is next to get the lock finds it free. -/
theorem holder_of_isNext {call : Nat} (h : s.lock.isNext call = true) : s.lock.holder = none :=
  Option.isNone_iff_eq_none.1 (Bool.and_eq_true_iff.1 h).1

/-- A start that gets the lock is refused, or keeps the lock and breaks off or goes on to its
catch-up runs, with next runs computed anew. -/
theorem enterStart_cases (s : State H) (call : Nat) :
    s.enterStart call =
        { s with lock := (s.lock.take call).release }.reply call (.refused .alreadyRunning) ∨
      ∃ records journal,
        (∃ fault, s.enterStart call = { s with
          lock := s.lock.take call, records := records, journal := journal }.breakCall call fault) ∨
        s.enterStart call = ({ s with
          lock := s.lock.take call, records := records, journal := journal }.catchUp call).setCall
            call .catchingUp := by
  simp only [enterStart]
  split
  · exact .inl rfl
  · refine .inr ?_
    split
    · next fault _ => exact ⟨s.records, s.journal, .inl ⟨fault, rfl⟩⟩
    · next now _ =>
      obtain ⟨records, journal, he⟩ :=
        refreshEach_eq now s.registry.values { s with lock := s.lock.take call }
      refine ⟨records, journal, ?_⟩
      split
      · next s' fault hrefresh =>
        simp only [refreshAll] at hrefresh
        rw [hrefresh] at he
        exact .inl ⟨fault, congrArg (fun s' : State H => s'.breakCall call fault) he⟩
      · next s' hrefresh =>
        simp only [refreshAll] at hrefresh
        rw [hrefresh] at he
        exact .inr (congrArg (fun s' : State H => (s'.catchUp call).setCall call .catchingUp) he)

/-- A trigger that is opened awaits the runs that it spawns. -/
theorem IsAwaited.trigger (hs : s.IsAwaited) (names : List String) :
    (s.trigger names).IsAwaited := by
  have hadds := adds_askFor s.nextId names { s with nextId := s.nextId + 1 }
  refine hs.setCall (Nat.le_of_succ_le hadds.next) hadds.next
    (congrArg (fun calls : Table Nat Call => calls.insert s.nextId _) hadds.calls)
    hs.owner_ne_nextId fun k run hrun => (hadds.runs k run hrun).imp_right fun h => ?_
  exact ⟨h.2.1, h.2.2.1, h.2.2.2.2⟩

/-- A start that gets the lock awaits its catch-up runs, unless it is refused or breaks off. -/
theorem IsAwaited.enterStart (hs : s.IsAwaited) {call : Nat}
    (hcall : s.calls.get? call = some .starting) : (s.enterStart call).IsAwaited := by
  have hcontains : s.calls.contains call = true := by rw [Table.contains, hcall]; rfl
  have hfree := hs.owner_ne hcall fun k trigger => id
  rcases s.enterStart_cases call with he | ⟨records, journal, ⟨fault, he⟩ | he⟩
  · rw [he]
    exact hs.setCall (Nat.le_refl _) (hs.call_lt call hcontains) rfl hfree fun k run h => .inl h
  · rw [he]
    refine hs.keep (Keeps.of_frame (Keeps.breakCall ?_ fault) rfl rfl rfl)
    exact hcontains
  · have hadds := adds_catchUp { s with
      lock := s.lock.take call, records := records, journal := journal } call
    rw [he]
    refine hs.setCall hadds.next (Nat.lt_of_lt_of_le (hs.call_lt call hcontains) hadds.next)
      (congrArg (fun calls : Table Nat Call => calls.insert call _) hadds.calls) hfree
      fun k run hrun => (hadds.runs k run hrun).imp_right fun h => ?_
    exact ⟨h.2.1, h.2.2.1⟩

/-- A stop whose loop has exited leaves the runs of calls awaited. -/
theorem IsAwaited.drain (hs : s.IsAwaited) {call loop : Nat}
    (hcall : s.calls.get? call = some (.leaving loop)) : (s.drain call).IsAwaited := by
  have hcontains : s.calls.contains call = true := by rw [Table.contains, hcall]; rfl
  have hkeeps : Keeps s { s with running := false, closed := true }.wakeStops :=
    (Keeps.wakeStops _).of_frame rfl rfl rfl
  have hs' := hs.keep hkeeps
  refine hs'.setCall (Nat.le_refl _) ?_ rfl ?_ fun k run h => .inl h
  · rw [show (s.drain call).nextId = s.nextId from hkeeps.next]
    exact hs.call_lt call hcontains
  · intro k run hrun hphase
    obtain ⟨run', hrun', hphase', howner', -⟩ := hkeeps.runs k run hrun hphase
    rw [← howner']
    exact hs.owner_ne hcall (fun k trigger => id) k run' hrun' hphase'

/-- A call that has no runs in progress owns none. -/
theorem not_owner_of_hasRunsOf {call : Nat} (h : s.hasRunsOf call = false) (k : Nat) (run : Run)
    (hrun : s.runs.get? k = some run) : run.owner ≠ .call call := by
  intro howner
  have hmem : run ∈ s.runs.values := List.mem_map_of_mem (Table.mem_entries_iff.2 hrun)
  have htrue : s.hasRunsOf call = true := List.any_eq_true.2 ⟨run, hmem, by simp [howner]⟩
  rw [h] at htrue
  cases htrue

/-- A stop that gets the lock leaves the runs of calls awaited. -/
theorem IsAwaited.enterStop (hs : s.IsAwaited) {call : Nat}
    (hcall : s.calls.get? call = some .stopping) : (s.enterStop call).IsAwaited := by
  have hlt := hs.call_lt call (by rw [Table.contains, hcall]; rfl)
  have hfree := hs.owner_ne hcall fun k trigger => id
  simp only [State.enterStop]
  split <;> exact hs.setCall (Nat.le_refl _) hlt rfl hfree fun k run h => .inl h

/-- So does a tick, whose runs nobody waits for. -/
theorem IsAwaited.tick (hs : s.IsAwaited) (loop : TickLoop) : (s.tick id loop).IsAwaited := by
  unfold State.tick
  split
  · exact hs.keep (Keeps.of_eq rfl rfl rfl)
  · next now _ =>
    have hadds := (adds_dispatchAll s.due (s.note (.ticked id s.due s.clock now))).mono
      fun _ _ h => h.2
    exact hs.dispatch ⟨hadds.calls, hadds.next, hadds.runs, hadds.old⟩

/-- Each change leaves the runs of calls awaited. -/
theorem IsAwaited.transition (hs : s.IsAwaited) {event : Event H} (h : s.Transition event s') :
    s'.IsAwaited := by
  have hlt : ∀ {c call}, s.calls.get? c = some call → c < s.nextId := by
    intro c call hcall
    exact hs.call_lt c (by rw [Table.contains, hcall]; rfl)
  cases h with
  | refuse => exact hs
  | remove | setEnabled | setClock | leave | elapse => exact hs.keep (Keeps.of_eq rfl rfl rfl)
  | register => exact hs.dispatch (Adds.of_eq rfl (Nat.le_succ _) rfl)
  | runNow => exact hs.dispatch (Adds.spawn rfl)
  | trigger names => exact hs.trigger names
  | start | stop =>
    exact hs.setCall (Nat.le_succ _) (Nat.lt_succ_self _) rfl hs.owner_ne_nextId fun k run h =>
      .inl h
  | @begin id run hrun hphase =>
    have hlive : run.phase ≠ .stranded := by rw [hphase]; simp
    exact hs.keep (Keeps.begin hrun hlive (hs.contains_owner hrun hlive))
  | cancel hrun hphase =>
    have hcall := hs.contains_owner hrun (by rw [hphase]; simp)
    refine hs.keep (Keeps.of_frame (Keeps.conclude _ _ _ ?_) rfl rfl rfl)
    exact hcall
  | @acquire id run token hrun hphase =>
    have hlive : run.phase ≠ .stranded := by rw [hphase]; simp
    have hcall := hs.contains_owner hrun hlive
    refine hs.keep (Keeps.of_frame (Keeps.launch ?_ hlive _ ?_) rfl rfl rfl)
    · exact hrun
    · exact hcall
  | @endAttempt id run token deadline attempt ending hrun hphase =>
    have hlive : run.phase ≠ .stranded := by rw [hphase]; simp
    exact hs.keep (Keeps.endAttempt hrun hlive (hs.contains_owner hrun hlive) _ _ _ ending)
  | retry hrun hphase => exact hs.keep (Keeps.attempt hrun (by rw [hphase]; simp) _ _ _)
  | giveUp hrun hphase =>
    exact hs.keep (Keeps.conclude s _ _ (hs.contains_owner hrun (by rw [hphase]; simp)))
  | revokeExecuting hrun hphase | revokeResting hrun hphase =>
    exact hs.keep (Keeps.setPhase hrun (by rw [hphase]; simp) rfl rfl rfl)
  | tick => exact hs.tick _
  | answer hcall h =>
    refine hs.setCall (Nat.le_refl _) (hlt hcall) rfl (hs.owner_ne hcall ?_) fun k run h => .inl h
    exact fun k trigger hawaits => run_notMem_of_outcomes? h k hawaits.2
  | enterStart hcall => exact hs.enterStart hcall
  | openLoop hcall hidle =>
    exact hs.setCall (Nat.le_succ _) (Nat.lt_succ_of_lt (hlt hcall)) rfl
      (fun k run hrun _ => not_owner_of_hasRunsOf hidle k run hrun) fun k run h => .inl h
  | enterStop hcall => exact hs.enterStop hcall
  | drain hcall => exact hs.drain hcall
  | endStop hcall =>
    exact hs.setCall (Nat.le_refl _) (hlt hcall) rfl (hs.owner_ne hcall fun k trigger => id)
      fun k run h => .inl h
  | hangUp hcall => exact hs.keep (Keeps.hangUp (by rw [Table.contains, hcall]; rfl))

/-- In every reachable state the runs of calls are awaited. -/
theorem Reachable.isAwaited (h : s.Reachable) : s.IsAwaited :=
  h.induction (fun _ _ => ⟨nofun, nofun⟩) fun _ _ _ hs htransition => hs.transition htransition

end State

end CronDaemon.Scheduler
