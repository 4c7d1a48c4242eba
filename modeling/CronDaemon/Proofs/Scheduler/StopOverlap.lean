import CronDaemon.Proofs.Scheduler.Shutdown

/-!
# Stops that overlap

Stops that wait for dispatched runs are woken together, when the last dispatched run ends while one
of them keeps the wait closed. Each of them opens it again when it returns, whether or not others
still wait: a stop is then woken no more, unless another one begins to wait, and its own time of
grace ends its wait.
-/

namespace CronDaemon.Scheduler

open Job

namespace State

variable {H : Type} {start s s' s'' t t' u : State H} {event : Event H} {events : List (Event H)}
  {id c k : Nat} {run : Run} {owner : Owner} {limit : Moment} {woken : Bool}

/-- The call is a stop that waits for its loop to exit. -/
def IsLeaving (s : State H) (c : Nat) : Prop := ∃ loop, s.calls.get? c = some (.leaving loop)

/-- The call is a stop that waits for dispatched runs. -/
def IsDraining (s : State H) (c : Nat) : Prop :=
  ∃ limit woken, s.calls.get? c = some (.draining limit woken)

/-- Stops that wait for dispatched runs in the later state did so in the earlier one. -/
def AddsNoWait (s s' : State H) : Prop :=
  ∀ c limit woken, s'.calls.get? c = some (.draining limit woken) →
    s.calls.get? c = some (.draining limit woken)

/-- A change that leaves the calls lets no stop begin to wait. -/
theorem AddsNoWait.of_eq (h : s'.calls = s.calls) : AddsNoWait s s' := by
  intro c limit woken hcall
  rwa [← h]

/-- A call that is put down as one that does not wait adds no wait. -/
theorem AddsNoWait.insert {call : Call} (h : s'.calls = s.calls.insert c call)
    (hcall : ∀ limit woken, call ≠ .draining limit woken) : AddsNoWait s s' := by
  intro other limit woken hother
  rw [h, Table.get?_insert] at hother
  split at hother
  · exact absurd (Option.some.inj hother) (hcall limit woken)
  · exact hother

/-- Nor does an outcome that is told. -/
theorem AddsNoWait.deliver {caller : Nat} {outcome : RunOutcome}
    (h : s'.calls = s.calls.modify caller fun call => call.deliver id outcome) :
    AddsNoWait s s' := by
  intro other limit woken hother
  rw [h, Table.get?_modify] at hother
  split at hother
  · obtain ⟨call, hcall, he⟩ := Option.map_eq_some_iff.1 hother
    rw [hcall]
    cases call <;> first | exact congrArg some he | cases he
  · exact hother

/-- The dispatched runs are those that nobody waits for and that have not broken off. -/
theorem mem_dispatched_iff : id ∈ s.dispatched ↔
    ∃ run, s.runs.get? id = some run ∧ run.owner = .dispatched ∧ run.phase ≠ .stranded := by
  simp only [dispatched, List.mem_map, List.mem_filter, Bool.and_eq_true, decide_eq_true_eq]
  constructor
  · rintro ⟨⟨k, run⟩, ⟨hmem, howner, hphase⟩, rfl⟩
    exact ⟨run, Table.mem_entries_iff.1 hmem, howner, hphase⟩
  · rintro ⟨run, hrun, howner, hphase⟩
    exact ⟨(id, run), ⟨Table.mem_entries_iff.2 hrun, howner, hphase⟩, rfl⟩

/-- What a step of a run does to the stops that wait. -/
inductive Rouses (s s' : State H) (id : Nat) (owner : Owner) : Prop
  /-- It wakes them, if the wait is closed and no dispatched run is left. -/
  | wakes (mid : State H) (hcalls : mid.calls = s.calls) (hclosed : mid.closed = s.closed)
      (he : s' = mid.wakeStops) : Rouses s s' id owner
  /-- It leaves them as they are, and the run goes on if it was dispatched. -/
  | keeps (hclosed : s'.closed = s.closed) (hwaits : AddsNoWait s s')
      (hlives : owner = .dispatched → id ∈ s'.dispatched) : Rouses s s' id owner

/-- The calls and the tracker before a step are all it needs of the state before. -/
theorem Rouses.of_eq (h : Rouses s' s'' id owner) (hcalls : s'.calls = s.calls)
    (hclosed : s'.closed = s.closed) : Rouses s s'' id owner := by
  cases h with
  | wakes mid hmid hmidClosed he =>
    exact .wakes mid (hmid.trans hcalls) (hmidClosed.trans hclosed) he
  | keeps hsame hwaits hlives =>
    refine .keeps (hsame.trans hclosed) (fun c limit woken hcall => ?_) hlives
    rw [← hcalls]
    exact hwaits c limit woken hcall

/-- A run that is put into a phase in which it goes on is still dispatched. -/
theorem Rouses.setPhase (hrun : s.runs.get? id = some run) {phase : Phase}
    (hphase : phase ≠ .stranded)
    (hruns : s'.runs = (s.setPhase id phase).runs) (hcalls : s'.calls = s.calls)
    (hclosed : s'.closed = s.closed) : Rouses s s' id run.owner :=
  .keeps hclosed (.of_eq hcalls) fun howner =>
    mem_dispatched_iff.2 ⟨_, get?_runs_setPhase hrun phase hruns, howner, hphase⟩

/-- A dispatched run that is dropped wakes the stops if it was the last one. -/
theorem Rouses.finish (s : State H) (id : Nat) (run : Run) (outcome : RunOutcome) :
    Rouses s (s.finish id run outcome) id run.owner := by
  unfold State.finish
  cases run.owner with
  | dispatched => exact .wakes { s with runs := s.runs.erase id } rfl rfl rfl
  | call caller => exact .keeps rfl (.deliver rfl) (by rintro ⟨⟩)

/-- So does one that breaks off. -/
theorem Rouses.breakRun (s : State H) (id : Nat) (run : Run) (fault : Fault) :
    Rouses s (s.breakRun id run fault) id run.owner := by
  unfold State.breakRun
  cases run.owner with
  | dispatched =>
    obtain ⟨_, _, he⟩ := s.abandon_eq id
    exact .wakes (s.abandon id) (by rw [he]) (by rw [he]) rfl
  | call caller =>
    refine .keeps ?_ (.insert (s.calls_breakCall caller fault) (by simp)) (by rintro ⟨⟩)
    simp only [breakCall_eq]

/-- So does one that ends, in whatever way. -/
theorem Rouses.conclude (s : State H) (id : Nat) (run : Run) (result : Except JobError Unit)
    (hrun : s.runs.get? id = some run) (hlive : run.phase ≠ .stranded) :
    Rouses s (s.conclude id run result) id run.owner := by
  rcases s.conclude_cases id run result with ⟨-, he⟩ | ⟨fault, -, he⟩ | ⟨_, now, after, -, -, -, he⟩
  · rw [he]
    exact .keeps rfl (.of_eq rfl) fun howner => mem_dispatched_iff.2 ⟨run, hrun, howner, hlive⟩
  · rw [he]
    exact Rouses.breakRun s id run fault
  · rw [he, putDown]
    split <;> exact (Rouses.finish _ id run _).of_eq rfl rfl

/-- A run that is launched goes on, or breaks off. -/
theorem Rouses.launch (s : State H) (id : Nat) (run : Run) (token : Token)
    (hrun : s.runs.get? id = some run) : Rouses s (s.launch id run token) id run.owner := by
  unfold State.launch
  split
  · exact Rouses.setPhase hrun (by simp) rfl rfl rfl
  · exact (Rouses.breakRun _ id run _).of_eq rfl rfl

/-- A run that is looked at for the first time goes on, or is dropped. -/
theorem Rouses.begin (s : State H) (id : Nat) (run : Run) (hrun : s.runs.get? id = some run)
    (hphase : run.phase = .spawned) : Rouses s (s.begin id run) id run.owner := by
  rcases begin_cases s id run with he | he | he <;> rw [he]
  · refine .keeps rfl (.of_eq rfl) fun howner => mem_dispatched_iff.2 ⟨run, hrun, howner, ?_⟩
    rw [hphase]
    exact Phase.noConfusion
  · exact (Rouses.finish _ id run _).of_eq rfl rfl
  · cases hspare : s.hasSparePermit with
    | true =>
      rw [accept_of_spare hspare]
      exact (Rouses.launch (s.letPass id run) id run _ hrun).of_eq rfl rfl
    | false =>
      rw [accept_of_not_spare hspare]
      exact Rouses.setPhase hrun (by simp) rfl rfl rfl

/-- A run whose attempt ends goes on, or ends. -/
theorem Rouses.endAttempt (s : State H) (id : Nat) (run : Run) (token : Token) (deadline : Moment)
    (attempt : Nat) (ending : Ending) (hrun : s.runs.get? id = some run)
    (hlive : run.phase ≠ .stranded) :
    Rouses s (s.endAttempt id run token deadline attempt ending) id run.owner := by
  have hconclude := fun result =>
    Rouses.conclude (s.note (.ended id run.record attempt ending s.clock)) id run result hrun hlive
  simp only [State.endAttempt]
  split
  · exact (hconclude _).of_eq rfl rfl
  · split
    · exact Rouses.setPhase hrun (by simp) rfl rfl rfl
    · exact (hconclude _).of_eq rfl rfl

/-- What an event does to the stops that wait for dispatched runs. -/
inductive Attends (s s' : State H) : Event H → Prop
  /-- A step of a run. -/
  | rouse {event : Event H} {id : Nat} (run : Run) (he : event.run? = some id)
      (hrun : s.runs.get? id = some run) (h : Rouses s s' id run.owner) : Attends s s' event
  /-- A stop begins to wait. -/
  | drain {c : Nat} (hleaving : s.IsLeaving c) (h : s' = s.drain c) :
      Attends s s' (.step (.proceed c))
  /-- A stop returns from its wait. -/
  | endStop {c : Nat} (hdraining : s.IsDraining c) (h : s' = s.endStop c) :
      Attends s s' (.step (.proceed c))
  /-- Everything else leaves them as they are. -/
  | other {event : Event H} (he : event.run? = none) (hclosed : s'.closed = s.closed)
      (hwaits : AddsNoWait s s')
      (hnot : ∀ c, event = .step (.proceed c) → ¬ s.IsLeaving c ∧ ¬ s.IsDraining c) :
      Attends s s' event

/-- Each event does one of these things to the stops that wait. -/
theorem Transition.attends (h : s.Transition event s') : Attends s s' event := by
  -- A call that goes on from any other point is no stop that waits.
  have hne : ∀ {c : Nat} {call : Call}, s.calls.get? c = some call →
      (∀ loop, call ≠ .leaving loop) →
      (∀ limit woken, call ≠ .draining limit woken) → ∀ k, Event.step (H := H) (.proceed c) = .step
        (.proceed k) → ¬ s.IsLeaving k ∧ ¬ s.IsDraining k := by
    rintro c call hcall hleaving hdraining k ⟨⟩
    constructor
    · rintro ⟨loop, h⟩
      exact hleaving loop (Option.some.inj (hcall.symm.trans h))
    · rintro ⟨limit, woken, h⟩
      exact hdraining limit woken (Option.some.inj (hcall.symm.trans h))
  cases h with
  | refuse | register | remove | setEnabled | runNow | setClock | leave | elapse =>
    exact .other rfl rfl (.of_eq rfl) (by rintro c ⟨⟩)
  | trigger names =>
    obtain ⟨_, _, he⟩ := askFor_eq s.nextId names { s with nextId := s.nextId + 1 }
    have hcalls : (s.trigger names).calls = s.calls.insert s.nextId
        (.triggering ({ s with nextId := s.nextId + 1 }.askFor s.nextId names).2) := by
      simp only [State.trigger, State.setCall, he]
    refine .other rfl ?_ (.insert hcalls (by simp)) (by rintro c ⟨⟩)
    simp only [State.trigger, State.setCall, he]
  | start | stop => exact .other rfl rfl (.insert rfl (by simp)) (by rintro c ⟨⟩)
  | @begin id run hrun hphase => exact .rouse run rfl hrun (Rouses.begin s id run hrun hphase)
  | @cancel id run _ hrun hphase hcancelled =>
    refine .rouse run rfl hrun ((Rouses.conclude (s.dequeue id) id run _ hrun ?_).of_eq rfl rfl)
    rw [hphase]
    exact Phase.noConfusion
  | @acquire id run token hrun =>
    exact .rouse run rfl hrun ((Rouses.launch (s.dequeue id) id run token hrun).of_eq rfl rfl)
  | @endAttempt id run token deadline attempt ending hrun hphase =>
    refine .rouse run rfl hrun (Rouses.endAttempt s id run token deadline attempt ending hrun ?_)
    rw [hphase]
    exact Phase.noConfusion
  | @retry id run _ _ _ _ _ hrun =>
    exact .rouse run rfl hrun (Rouses.setPhase hrun (by simp) rfl rfl rfl)
  | @giveUp id run _ _ _ _ _ hrun hphase =>
    refine .rouse run rfl hrun (Rouses.conclude s id run _ hrun ?_)
    rw [hphase]
    exact Phase.noConfusion
  | @revokeExecuting id run _ _ _ _ hrun | @revokeResting id run _ _ _ _ _ _ hrun =>
    exact .rouse run rfl hrun (Rouses.setPhase hrun (by simp) rfl rfl rfl)
  | tick =>
    simp only [State.tick]
    split
    · exact .other rfl rfl (.of_eq rfl) (by rintro c ⟨⟩)
    · next now _ =>
      obtain ⟨_, _, he⟩ := dispatchAll_eq s.due (s.note (.ticked _ s.due s.clock now))
      exact .other rfl (by rw [he]; rfl) (.of_eq (by rw [he]; rfl)) (by rintro c ⟨⟩)
  | answer hcall => exact .other rfl rfl (.insert rfl (by simp)) (hne hcall (by simp) (by simp))
  | @enterStart c hcall =>
    have hnot := hne hcall (by simp) (by simp)
    rcases s.enterStart_cases c with he | ⟨records, journal, ⟨fault, he⟩ | he⟩ <;> rw [he]
    · exact .other rfl rfl (.insert rfl (by simp)) hnot
    · refine .other rfl ?_ (.insert (calls_breakCall _ c fault) (by simp)) hnot
      rw [breakCall_eq]
    · obtain ⟨_, _, _, hcatchUp⟩ := catchUp_eq
        { s with lock := s.lock.take c, records := records, journal := journal } c
      rw [hcatchUp]
      exact .other rfl rfl (.insert rfl (by simp)) hnot
  | openLoop hcall => exact .other rfl rfl (.insert rfl (by simp)) (hne hcall (by simp) (by simp))
  | enterStop hcall =>
    have hnot := hne hcall (by simp) (by simp)
    simp only [State.enterStop]
    split <;> exact .other rfl rfl (.insert rfl (by simp)) hnot
  | drain hcall => exact .drain ⟨_, hcall⟩ rfl
  | endStop hcall => exact .endStop ⟨_, _, hcall⟩ rfl
  | @hangUp c =>
    refine .other rfl ?_ (.insert (calls_breakCall _ c .hungUp) (by simp)) (by rintro c ⟨⟩)
    simp only [State.hangUp, breakCall_eq]

/-- A stop that waits after the others were woken waited before, and if it is woken now, the wait is
closed and no dispatched run is left. -/
theorem draining_of_wakeStops (h : s.wakeStops.calls.get? c = some (.draining limit woken)) :
    ∃ before, s.calls.get? c = some (.draining limit before) ∧
      (woken = before ∨ woken = true ∧ s.closed = true ∧ s.dispatched = []) := by
  unfold wakeStops at h
  split at h
  · next hwake =>
    rw [Bool.and_eq_true_iff, List.isEmpty_iff] at hwake
    obtain ⟨call, hcall, he⟩ :=
      Option.map_eq_some_iff.1 ((Table.lookup_map Call.wake c _).symm.trans h)
    cases call <;> cases he
    exact ⟨_, hcall, .inr ⟨rfl, hwake⟩⟩
  · exact ⟨woken, h, .inl rfl⟩

/-- To wake the waiting stops neither opens nor closes the wait. -/
theorem closed_wakeStops (s : State H) : s.wakeStops.closed = s.closed := by
  unfold wakeStops
  split <;> rfl

/-- A stop that waits for dispatched runs has just begun to, or did so before; it is woken only if
the wait is closed and no dispatched run is left. -/
theorem Attends.draining_cases (h : Attends s s' event)
    (hcall : s'.calls.get? c = some (.draining limit woken)) :
    (event = .step (.proceed c) ∧ s.IsLeaving c ∧ s' = s.drain c) ∨
      ∃ before, s.calls.get? c = some (.draining limit before) ∧
        (woken = before ∨ woken = true ∧ s'.closed = true ∧ s'.dispatched = []) := by
  have hkept : AddsNoWait s s' → ∃ before, s.calls.get? c = some (.draining limit before) ∧
      (woken = before ∨ woken = true ∧ s'.closed = true ∧ s'.dispatched = []) :=
    fun hwaits => ⟨woken, hwaits c limit woken hcall, .inl rfl⟩
  have hwoken : ∀ mid : State H, mid.wakeStops.calls.get? c = some (.draining limit woken) →
      s'.closed = mid.wakeStops.closed → s'.dispatched = mid.wakeStops.dispatched →
      ∃ before, mid.calls.get? c = some (.draining limit before) ∧
        (woken = before ∨ woken = true ∧ s'.closed = true ∧ s'.dispatched = []) := by
    intro mid hmid hclosed hdispatched
    rw [hclosed, hdispatched, closed_wakeStops, dispatched_wakeStops]
    exact draining_of_wakeStops hmid
  cases h with
  | rouse run _ _ h =>
    cases h with
    | keeps _ hwaits => exact .inr (hkept hwaits)
    | wakes mid hcalls _ he =>
      subst he
      exact .inr (hcalls ▸ hwoken mid hcall rfl rfl)
  | @drain k hleaving he =>
    subst he
    by_cases hsame : k = c
    · subst hsame
      exact .inl ⟨rfl, hleaving, rfl⟩
    · simp only [State.drain, setCall, Table.get?_insert, if_neg hsame] at hcall
      exact .inr (hwoken { s with running := false, closed := true } hcall rfl rfl)
  | endStop _ he =>
    subst he
    exact .inr (hkept (.insert rfl (by simp)))
  | other _ _ hwaits => exact .inr (hkept hwaits)

/-- While the wait is closed, every stop that waits is woken once no dispatched run is left. -/
def IsRoused (s : State H) : Prop :=
  s.closed = true → s.dispatched = [] → ∀ c limit woken,
    s.calls.get? c = some (.draining limit woken) → woken = true

/-- Once the stops were woken, each of those that are to be woken is. -/
theorem isRoused_wakeStops (s : State H) : s.wakeStops.IsRoused := by
  intro hclosed hempty c limit woken hcall
  rw [closed_wakeStops] at hclosed
  rw [dispatched_wakeStops] at hempty
  rw [wakeStops, if_pos (by simp [hclosed, hempty])] at hcall
  obtain ⟨call, -, he⟩ :=
    Option.map_eq_some_iff.1 ((Table.lookup_map Call.wake c _).symm.trans hcall)
  cases call <;> cases he
  rfl

/-- Only a step of a dispatched run takes away the last dispatched run. -/
theorem Transition.dispatched_eq_nil (h : s.Transition event s') (hs : s.Reachable)
    (hempty : s'.dispatched = [])
    (hnot : ∀ id run, event.run? = some id → s.runs.get? id = some run → run.owner ≠ .dispatched) :
    s.dispatched = [] := by
  by_contra hne
  obtain ⟨id, hmem⟩ := List.exists_mem_of_ne_nil _ hne
  obtain ⟨run, hrun, howner, hlive⟩ := mem_dispatched_iff.1 hmem
  have hleaves := h.leaves (hs.run_lt hrun) fun he => hnot id run he hrun howner
  have hrun' := hleaves.eq_of_not_breaks hrun (howner ▸ s'.not_breaks_dispatched)
  have hmem' : id ∈ s'.dispatched := mem_dispatched_iff.2 ⟨run, hrun', howner, hlive⟩
  rw [hempty] at hmem'
  cases hmem'

/-- Each event leaves the stops woken that are to be. -/
theorem Transition.isRoused (h : s.Transition event s') (hs : s.Reachable) (hroused : s.IsRoused) :
    s'.IsRoused := by
  -- The stops are as they were, and so is the last dispatched run, unless the event is a step of
  -- it.
  have hkept : s'.closed = s.closed → AddsNoWait s s' →
      (s'.dispatched = [] → ∀ id run, event.run? = some id → s.runs.get? id = some run →
        run.owner ≠ .dispatched) → s'.IsRoused := by
    intro hsame hwaits hnot hclosed hempty c limit woken hcall
    exact hroused (hsame ▸ hclosed) (h.dispatched_eq_nil hs hempty (hnot hempty)) c limit woken
      (hwaits c limit woken hcall)
  cases h.attends with
  | @rouse _ id run hevent hrun h =>
    cases h with
    | wakes mid _ _ he => exact he ▸ mid.isRoused_wakeStops
    | keeps hclosed hwaits hlives =>
      refine hkept hclosed hwaits fun hempty other run' hother hrun' howner => ?_
      rw [hevent, Option.some.injEq] at hother
      subst hother
      rw [hrun, Option.some.injEq] at hrun'
      subst hrun'
      have hmem := hlives howner
      rw [hempty] at hmem
      cases hmem
  | @drain k hleaving he =>
    subst he
    intro hclosed hempty c limit woken hcall
    by_cases hsame : k = c
    · subst hsame
      rw [get?_calls_drain, Option.some.injEq, Call.draining.injEq] at hcall
      have hdispatched : (s.drain k).dispatched = s.dispatched :=
        dispatched_wakeStops { s with running := false, closed := true }
      rw [← hcall.2, ← hdispatched, hempty]
      rfl
    · simp only [State.drain, setCall, Table.get?_insert, if_neg hsame] at hcall
      exact isRoused_wakeStops _ hclosed hempty c limit woken hcall
  | endStop _ he =>
    subst he
    intro hclosed
    cases hclosed
  | other hevent hclosed hwaits =>
    refine hkept hclosed hwaits fun _ id run hid => ?_
    rw [hevent] at hid
    cases hid

/-- In every reachable state the stops are woken that are to be. -/
theorem Reachable.isRoused (hs : s.Reachable) : s.IsRoused :=
  hs.step_induction (fun _ _ => by rintro ⟨⟩) fun _ _ _ hs htransition => htransition.isRoused hs

/-- An event begins the wait of a stop and closes it, or ends one and opens it, or leaves it. -/
theorem Attends.closed_cases (h : Attends s s' event) :
    (∃ c, event = .step (.proceed c) ∧ s.IsLeaving c ∧ s'.closed = true) ∨
      (∃ c, event = .step (.proceed c) ∧ s.IsDraining c ∧ s'.closed = false) ∨
      s'.closed = s.closed ∧ ∀ c, event = .step (.proceed c) → ¬ s.IsLeaving c ∧
        ¬ s.IsDraining c := by
  cases h with
  | @rouse _ id run hevent _ h =>
    have hnot : ∀ c, event = .step (.proceed c) → ¬ s.IsLeaving c ∧ ¬ s.IsDraining c := by
      rintro c rfl
      cases hevent
    cases h with
    | wakes mid _ hclosed he =>
      rw [he, closed_wakeStops]
      exact .inr (.inr ⟨hclosed, hnot⟩)
    | keeps hclosed => exact .inr (.inr ⟨hclosed, hnot⟩)
  | @drain c hleaving he =>
    refine .inl ⟨c, rfl, hleaving, ?_⟩
    rw [he]
    exact closed_wakeStops { s with running := false, closed := true }
  | @endStop c hdraining he =>
    refine .inr (.inl ⟨c, rfl, hdraining, ?_⟩)
    rw [he]
    rfl
  | other _ hclosed _ hnot => exact .inr (.inr ⟨hclosed, hnot⟩)

/-- In the course of the events the stop returned from its wait, and no stop has begun to wait
since. -/
def Reopens (s : State H) (events : List (Event H)) (c : Nat) : Prop :=
  ∃ t t' after, s.Occurs events (.step (.proceed c)) t t' after ∧ t.IsDraining c ∧
    ∀ k u u' rest, t'.Occurs after (.step (.proceed k)) u u' rest → ¬ u.IsLeaving k

/-- A stop that waits for runs waits for no loop. -/
theorem not_isLeaving_of_isDraining (h : s.IsDraining c) : ¬ s.IsLeaving c := by
  rintro ⟨loop, hleaving⟩
  obtain ⟨limit, woken, hdraining⟩ := h
  cases hleaving.symm.trans hdraining

/-- From a state in which the wait is closed it is open exactly if a stop has returned from its
wait, and none has begun to wait since. -/
theorem closed_eq_false_iff (hclosed : s.closed = true) (h : s.replay? events = some u) :
    u.closed = false ↔ ∃ c, s.Reopens events c := by
  refine history_induction (motive := fun events u => u.closed = false ↔
    ∃ c, s.Reopens events c) ?_ ?_ h
  · refine iff_of_false (by simp [hclosed]) ?_
    rintro ⟨c, t, t', after, hoccurs, -⟩
    exact not_occurs_nil hoccurs
  · intro before event t t' ht hfire ih
    rcases (transition_of_fire? hfire).attends.closed_cases with
      ⟨c, rfl, hleaving, hclosed'⟩ | ⟨c, rfl, hdraining, hclosed'⟩ | ⟨hsame, hnot⟩
    · refine iff_of_false (by simp [hclosed']) ?_
      rintro ⟨k, v, v', after, hoccurs, hdraining, hlast⟩
      rcases hoccurs.of_snoc with ⟨rest, rfl, hearlier⟩ | ⟨he, -, hv⟩
      · exact hlast c t t' [] (Occurs.last (hearlier.replay? ht) hfire) hleaving
      · cases he
        cases hv.symm.trans ht
        exact not_isLeaving_of_isDraining hdraining hleaving
    · refine iff_of_true hclosed' ⟨c, t, t', [], Occurs.last ht hfire, hdraining, ?_⟩
      intro k v v' rest hoccurs
      exact absurd hoccurs not_occurs_nil
    · rw [hsame, ih]
      constructor
      · rintro ⟨c, v, v', after, hoccurs, hdraining, hlast⟩
        refine ⟨c, v, v', after ++ [event], hoccurs.snoc event, hdraining, ?_⟩
        intro k w w' rest hlater
        rcases hlater.of_snoc with ⟨rest, -, hearlier⟩ | ⟨rfl, -, hw⟩
        · exact hlast k w w' rest hearlier
        · cases hw.symm.trans (hoccurs.replay? ht)
          exact (hnot k rfl).1
      · rintro ⟨c, v, v', after, hoccurs, hdraining, hlast⟩
        rcases hoccurs.of_snoc with ⟨rest, rfl, hearlier⟩ | ⟨rfl, -, hv⟩
        · refine ⟨c, v, v', rest, hearlier, hdraining, ?_⟩
          intro k w w' final hlater
          exact hlast k w w' (final ++ [event]) (hlater.snoc event)
        · cases hv.symm.trans ht
          exact absurd hdraining (hnot c rfl).2

/-- The history leads through the state. -/
def Visits (s : State H) (events : List (Event H)) (u : State H) : Prop :=
  ∃ before after, events = before ++ after ∧ s.replay? before = some u

theorem visits_nil_iff : s.Visits [] u ↔ u = s := by
  constructor
  · rintro ⟨before, after, he, hu⟩
    obtain ⟨rfl, -⟩ := List.append_eq_nil_iff.1 he.symm
    exact (Option.some.inj hu).symm
  · rintro rfl
    exact ⟨[], [], rfl, rfl⟩

/-- A history with one more event leads through the states before, and to the state that this event
leaves. -/
theorem visits_snoc_iff (h : s.replay? events = some t) (hfire : t.fire? event = some t') :
    s.Visits (events ++ [event]) u ↔ s.Visits events u ∨ u = t' := by
  constructor
  · rintro ⟨before, after, he, hu⟩
    rcases List.eq_nil_or_concat after with rfl | ⟨rest, last, rfl⟩
    · rw [List.append_nil] at he
      subst he
      obtain ⟨v, hv, hlast⟩ := replay?_append_iff.1 hu
      rw [h, Option.some.injEq] at hv
      subst hv
      rw [replay?_singleton_iff, hfire, Option.some.injEq] at hlast
      exact .inr hlast.symm
    · rw [List.concat_eq_append, ← List.append_assoc] at he
      exact .inl ⟨before, rest, (List.append_inj' he rfl).1, hu⟩
  · rintro (⟨before, after, rfl, hu⟩ | rfl)
    · exact ⟨before, after ++ [event], List.append_assoc _ _ _, hu⟩
    · exact ⟨events ++ [event], [], (List.append_nil _).symm,
        replay?_append_iff.2 ⟨t, h, replay?_singleton_iff.2 hfire⟩⟩

/-- A stop that waits for dispatched runs began to in the course of the history, and it is woken if
since then the wait was closed at some moment at which no dispatched run was left. -/
theorem exists_drain (hstart : start.Reachable) (hnone : ∀ c, ¬ start.IsDraining c)
    (h : start.replay? events = some s) (hcall : s.calls.get? c = some (.draining limit woken)) :
    ∃ t t' after, start.Occurs events (.step (.proceed c)) t t' after ∧ t.IsLeaving c ∧
      t'.closed = true ∧ limit = waitUntil t.clock t.options.shutdownGrace ∧
      (woken = true ↔ ∃ u, t'.Visits after u ∧ u.closed = true ∧ u.dispatched = []) := by
  refine history_induction (motive := fun events s => ∀ woken,
    s.calls.get? c = some (.draining limit woken) →
    ∃ t t' after, start.Occurs events (.step (.proceed c)) t t' after ∧ t.IsLeaving c ∧
      t'.closed = true ∧ limit = waitUntil t.clock t.options.shutdownGrace ∧
      (woken = true ↔ ∃ u, t'.Visits after u ∧ u.closed = true ∧ u.dispatched = [])) ?_ ?_ h
        woken hcall
  · intro woken hcall
    exact absurd ⟨limit, woken, hcall⟩ (hnone c)
  · intro before event t t' ht hfire ih woken hcall
    have htransition := transition_of_fire? hfire
    have hroused : t'.IsRoused := ((hstart.replay? ht).fire? hfire).isRoused
    rcases htransition.attends.draining_cases hcall with ⟨rfl, hleaving, he⟩ | ⟨was, hwas, hwoken⟩
    · subst he
      have hclosed : (t.drain c).closed = true :=
        closed_wakeStops { t with running := false, closed := true }
      have hdispatched : (t.drain c).dispatched = t.dispatched :=
        dispatched_wakeStops { t with running := false, closed := true }
      rw [get?_calls_drain, Option.some.injEq, Call.draining.injEq] at hcall
      refine ⟨t, _, [], Occurs.last ht hfire, hleaving, hclosed, hcall.1.symm, ?_⟩
      simp only [visits_nil_iff, exists_eq_left, hclosed, true_and, hdispatched]
      rw [← hcall.2, List.isEmpty_iff]
    · obtain ⟨v, v', after, hoccurs, hleaving, hclosed, hlimit, hwas⟩ := ih was hwas
      refine ⟨v, v', after ++ [event], hoccurs.snoc event, hleaving, hclosed, hlimit, ?_⟩
      simp only [visits_snoc_iff (hoccurs.replay? ht) hfire]
      constructor
      · intro hyes
        rcases hwoken with rfl | ⟨-, hnow, hempty⟩
        · obtain ⟨u, hu, hmoment⟩ := hwas.1 hyes
          exact ⟨u, .inl hu, hmoment⟩
        · exact ⟨t', .inr rfl, hnow, hempty⟩
      · rintro ⟨u, hu | rfl, hnow, hempty⟩
        · rcases hwoken with rfl | ⟨hyes, -⟩
          · exact hwas.2 ⟨u, hu, hnow, hempty⟩
          · exact hyes
        · exact hroused hnow hempty c limit woken hcall

/-- A stop that has returned does not wait any more. -/
theorem Reachable.not_isDraining_of_returned {reply : Reply} (hs : s.Reachable)
    (hcall : s.calls.get? c = some (.returned reply)) (h : s.replay? events = some u) :
    ¬ u.IsDraining c := by
  have hreturned : u.calls.get? c = some (.returned reply) := by
    refine history_induction
      (motive := fun _ u => u.calls.get? c = some (.returned reply)) hcall ?_ h
    intro before event t t' ht hfire ih
    exact (transition_of_fire? hfire).returned_stays (hs.replay? ht) ih
  rintro ⟨limit, woken, hdraining⟩
  cases hreturned.symm.trans hdraining

/-- A stop that still waits has not opened the wait. -/
theorem Reopens.ne {other : Nat} (h : s.Reopens events other) (hs : s.Reachable)
    (hreplay : s.replay? events = some u) (hdraining : u.IsDraining c) : other ≠ c := by
  rintro rfl
  obtain ⟨t, t', after, hoccurs, ⟨limit, woken, hcall⟩, -⟩ := h
  have hfire : t.proceed? other = some t' := hoccurs.fires
  simp only [proceed?, hcall] at hfire
  split at hfire <;> cases hfire
  have hreturned : (t.endStop other).calls.get? other = some (.returned .stopped) := by
    simp only [endStop, reply, setCall, Table.get?_insert, if_true]
  have ht' := (hoccurs.reachable hs).fire? hoccurs.fires
  exact ht'.not_isDraining_of_returned hreturned (hoccurs.replay? hreplay) hdraining

/-- A stop that waits can return exactly if it was woken or its time is over. -/
theorem exists_return_iff (hcall : s.calls.get? c = some (.draining limit woken)) :
    (∃ s', s.fire? (.step (.proceed c)) = some s' ∧ s'.calls.get? c = some (.returned .stopped)) ↔
      limit ≤ s.clock ∨ woken = true := by
  have hfire : s.fire? (.step (.proceed c)) =
      if (woken || decide (limit ≤ s.clock)) = true then some (s.endStop c) else none := by
    show s.proceed? c = _
    simp only [proceed?, hcall]
  rw [hfire]
  by_cases hover : (woken || decide (limit ≤ s.clock)) = true
  · rw [if_pos hover]
    refine iff_of_true ⟨_, rfl, ?_⟩ (by simpa [or_comm] using hover)
    simp only [endStop, reply, setCall, Table.get?_insert, if_true]
  · rw [if_neg hover]
    exact iff_of_false (by simp) (by simpa [or_comm] using hover)

/-- Nothing can happen at the present instant but that a handler returns. -/
def IsSettled (s : State H) : Prop :=
  ∀ step, (∀ id ending, step ≠ .endAttempt id ending) → s.step? step = none

/-- A stop that waits for dispatched runs began to when its loop had exited, and waits for at most
the time of grace from then on. Before that is over it can return exactly if at some moment since it
began to wait no dispatched run was left while the wait was closed. The wait is open exactly from
the return of a stop until another one begins to wait. So where nothing more can happen at an
instant, a stop still has time of grace left, and waits without a dispatched run only if another
stop returned since it began to wait and none has begun to wait since. -/
theorem returns_when_finished_or_reopened {options : Options} {now : Instant}
    (hcreate : create? options now = some start) (hreplay : start.replay? events = some s)
    (hcall : s.calls.get? c = some (.draining limit woken)) :
    ∃ t t' after, start.Occurs events (.step (.proceed c)) t t' after ∧ t.IsLeaving c ∧
      limit = waitUntil t.clock t.options.shutdownGrace ∧
      ((∃ s', s.fire? (.step (.proceed c)) = some s' ∧
        s'.calls.get? c = some (.returned .stopped)) ↔
        limit ≤ s.clock ∨ ∃ u, t'.Visits after u ∧ u.closed = true ∧ u.dispatched = []) ∧
      (∀ before rest u, after = before ++ rest → t'.replay? before = some u →
        (u.closed = false ↔ ∃ other, t'.Reopens before other)) ∧
      (s.IsSettled → s.clock < limit ∧
        (s.dispatched = [] → ∃ other, other ≠ c ∧ t'.Reopens after other)) := by
  have hstart : start.Reachable := .of_create? hcreate
  have hnone : ∀ c, ¬ start.IsDraining c := by
    rintro c ⟨limit, woken, hcall⟩
    rw [eq_initial_of_create? hcreate] at hcall
    cases hcall
  obtain ⟨t, t', after, hoccurs, hleaving, hclosed, hlimit, hwoken⟩ :=
    exists_drain hstart hnone hreplay hcall
  have ht' : t'.Reachable := (hoccurs.reachable hstart).fire? hoccurs.fires
  have hrest := hoccurs.replay? hreplay
  refine ⟨t, t', after, hoccurs, hleaving, hlimit, ?_, ?_, fun hsettled => ?_⟩
  · rw [exists_return_iff hcall, hwoken]
  · intro before rest u _ hu
    exact closed_eq_false_iff hclosed hu
  · have hstuck : ¬ (limit ≤ s.clock ∨ woken = true) := by
      rw [← exists_return_iff hcall]
      rintro ⟨s', hs', -⟩
      have hnot : s.fire? (.step (.proceed c)) = none :=
        hsettled (.proceed c) (by rintro id ending ⟨⟩)
      cases hnot.symm.trans hs'
    rw [not_or] at hstuck
    refine ⟨Nat.lt_of_not_le hstuck.1, fun hempty => ?_⟩
    -- Were the wait closed, the last dispatched run would have woken the stop.
    have hopen : s.closed = false := by
      by_contra hclosed
      exact hstuck.2
        ((hstart.replay? hreplay).isRoused (by simpa using hclosed) hempty c limit woken hcall)
    obtain ⟨other, hreopens⟩ := (closed_eq_false_iff hclosed hrest).1 hopen
    exact ⟨other, hreopens.ne ht' hrest ⟨limit, woken, hcall⟩, hreopens⟩

/-- A scheduler is stopped while a run that was dispatched executes, started again, and stopped
again ten seconds later. The first stop returns after its thirty seconds of grace, and the run ends
five seconds after that. -/
def stoppedTwice : List (Event Unit) :=
  [.request (.register (.new "backup" ())), .request .start, .step (.proceed 1), .step (.proceed 1),
    .request (.runNow true "backup"), .step (.begin 3), .request .stop, .step (.proceed 4),
      .step (.leave 2),
    .step (.proceed 4), .request .start, .step (.proceed 5), .step (.proceed 5),
    .elapse (10 * Duration.second), .request .stop, .step (.proceed 7), .step (.leave 6),
      .step (.proceed 7),
    .elapse (20 * Duration.second), .step (.proceed 4), .elapse (5 * Duration.second),
    .step (.endAttempt 3 (.completed "done"))]

/-- Nothing can happen where there are neither runs nor loops and no call can go on. -/
theorem isSettled_of_idle (hruns : s.runs.entries = []) (hloops : s.loops.entries = [])
    (hcalls : ∀ e ∈ s.calls.entries, s.canProceed e.1 = false) : s.IsSettled := by
  have hnorun : ∀ id, s.runs.get? id = none := fun id => by
    rw [Table.get?, hruns]
    rfl
  have hnoloop : ∀ id, s.loops.get? id = none := fun id => by
    rw [Table.get?, hloops]
    rfl
  intro step hstep
  cases step with
  | begin id | acquire id | retry id | giveUp id | revoke id =>
    simp only [step?, hnorun, Option.bind_none]
  | endAttempt id ending => exact absurd rfl (hstep id ending)
  | tick id | leave id => simp only [step?, hnoloop, Option.bind_none]
  | proceed id =>
    have hstuck : s.canProceed id = false := by
      cases hcall : s.calls.get? id with
      | none => simp only [canProceed, hcall]
      | some call => exact hcalls (id, call) (Table.mem_entries_iff.2 hcall)
    rw [← isSome_proceed?] at hstuck
    simpa [step?] using hstuck

/-- When the run has ended, the second stop still waits, and nothing can happen before its time of
grace is over. -/
theorem exists_stoppedTwice : ∃ s : State Unit,
    (initial Options.standard someMorning).replay? stoppedTwice = some s ∧
      s.calls.get? 7 = some (.draining (40 * Duration.second) false) ∧ s.dispatched = [] ∧
        s.IsSettled := by
  obtain ⟨s, hs⟩ : ∃ s, (initial Options.standard someMorning).replay? stoppedTwice = some s :=
    Option.isSome_iff_exists.1 (by decide)
  have hcall : ((initial Options.standard someMorning).replay? stoppedTwice).bind
      (fun s => s.calls.get? 7) = some (.draining (40 * Duration.second) false) := rfl
  have hruns : ((initial Options.standard someMorning).replay? stoppedTwice).map (·.runs.entries) =
      some [] := by decide
  have hloops : ((initial Options.standard someMorning).replay? stoppedTwice).map
      (·.loops.entries) = some [] := by decide
  have hcalls : ((initial Options.standard someMorning).replay? stoppedTwice).map
      (fun s => s.calls.entries.all fun e => !s.canProceed e.1) = some true := by decide
  rw [hs, Option.bind_some] at hcall
  rw [hs, Option.map_some, Option.some.injEq] at hruns hloops hcalls
  refine ⟨s, hs, hcall, ?_, isSettled_of_idle hruns hloops (by simpa using hcalls)⟩
  rw [dispatched, hruns]
  rfl

/-- The second stop waits without a run, because the first one has returned in between. -/
theorem returns_when_finished_or_reopened_of_stoppedTwice :
    ∃ (s t t' : State Unit) (after : List (Event Unit)) (other : Nat),
      create? Options.standard someMorning = some (initial Options.standard someMorning :
        State Unit) ∧
      (initial Options.standard someMorning).replay? stoppedTwice = some s ∧
      s.calls.get? 7 = some (.draining (40 * Duration.second) false) ∧ s.IsSettled ∧
        s.dispatched = [] ∧
      (initial Options.standard someMorning).Occurs stoppedTwice (.step (.proceed 7)) t t' after ∧
      s.clock < 40 * Duration.second ∧ other ≠ 7 ∧ t'.Reopens after other := by
  have hcreate : create? Options.standard someMorning =
      some (initial Options.standard someMorning : State Unit) := rfl
  obtain ⟨s, hs, hcall, hempty, hsettled⟩ := exists_stoppedTwice
  obtain ⟨t, t', after, hoccurs, -, -, -, -, hwaits⟩ :=
    returns_when_finished_or_reopened hcreate hs hcall
  obtain ⟨hgrace, hreopened⟩ := hwaits hsettled
  obtain ⟨other, hne, hreopens⟩ := hreopened hempty
  exact ⟨s, t, t', after, other, hcreate, hs, hcall, hsettled, hempty, hoccurs, hgrace, hne,
    hreopens⟩

/-- A stop may wait while no dispatched run is left and nothing more can happen at the instant: the
return of another stop may prolong its wait. -/
theorem not_forall_dispatched_of_isDraining : ¬ ∀ (s : State Unit) (c : Nat), s.Reachable →
    s.IsSettled → s.IsDraining c → s.dispatched ≠ [] := by
  intro hall
  obtain ⟨s, hs, hcall, hempty, hsettled⟩ := exists_stoppedTwice
  exact hall s 7 ⟨Options.standard, someMorning, _, _, rfl, hs⟩ hsettled ⟨_, _, hcall⟩ hempty

end State

end CronDaemon.Scheduler
