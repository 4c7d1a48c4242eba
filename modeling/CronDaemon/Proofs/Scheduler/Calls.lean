import CronDaemon.Proofs.Scheduler.Course

/-!
# What calls are told

A change for a run tells the outcome of the run to the call that waits for it, wakes the stops when
no dispatched run is left, or breaks that call off, which frees the lock; so does a caller that
hangs up. A start that waits for its catch-up runs holds the lock, and a stop goes on as it is until
it takes a step of its own or is woken.
-/

namespace CronDaemon.Scheduler

open Job

/-- A stop, wherever it stands, or a call that has returned. -/
def Call.IsStop : Call → Prop
  | .stopping | .leaving _ | .draining .. | .returned _ => True
  | .triggering _ | .starting | .catchingUp => False

/-- A call that was opened and has not gone on yet. -/
def Call.IsFresh : Call → Prop
  | .triggering _ | .starting | .stopping => True
  | .catchingUp | .leaving _ | .draining .. | .returned _ => False

/-- What may be told to a call, when a change leaves the given runs dispatched. -/
inductive Call.Hears (dispatched : List Nat) : (Call → Call) → Prop
  | nothing : Hears dispatched id
  | woken (h : dispatched = []) : Hears dispatched Call.wake
  | outcome (run : Nat) (outcome : RunOutcome) : Hears dispatched fun call =>
    call.deliver run outcome

/-- Nothing that is told brings a start to its catch-up runs, or takes it away from them. -/
theorem Call.Hears.catchingUp_iff {dispatched : List Nat} {change : Call → Call}
    (h : Call.Hears dispatched change) (call : Call) : change call = .catchingUp ↔
    call = .catchingUp := by
  cases h with
  | nothing => exact Iff.rfl
  | woken | outcome => cases call <;> simp [Call.wake, Call.deliver]

/-- Only a call that waits for runs changes with what it is told. -/
theorem Call.Hears.eq_of_apply {dispatched : List Nat} {change : Call → Call}
    (h : Call.Hears dispatched change) {before call : Call} (he : change before = call)
    (htriggering : ∀ parts, call ≠ .triggering parts)
    (hdraining : ∀ limit woken, call ≠ .draining limit woken) : before = call := by
  subst he
  cases h with
  | nothing => rfl
  | woken =>
    cases before with
    | draining limit => exact absurd rfl (hdraining limit true)
    | _ => rfl
  | outcome =>
    cases before with
    | triggering => exact absurd rfl (htriggering _)
    | _ => rfl

/-- A stop learns only that all dispatched runs are finished. -/
theorem Call.Hears.stop_cases {dispatched : List Nat} {change : Call → Call}
    (h : Call.Hears dispatched change) {call : Call} (hstop : call.IsStop) :
    change call = call ∨ change call = call.wake ∧ dispatched = [] := by
  cases h with
  | nothing => exact .inl rfl
  | woken h => exact .inr ⟨rfl, h⟩
  | outcome => cases call <;> first | exact .inl rfl | exact hstop.elim

namespace State

variable {H : Type} {s s' s'' : State H} {event : Event H} {c : Nat} {owner : Owner} {call : Call}

/-- A change for the given owner tells calls of the runs that end, and nothing else; if the owner is
a call, this call may break off, in case of trouble, and then frees the lock. -/
structure Tends (trouble : Prop) (s s' : State H) (owner : Owner) : Prop where
  calls : ∀ c, (∃ change, Call.Hears s'.dispatched change ∧
      s'.calls.get? c = (s.calls.get? c).map change) ∨
    trouble ∧ owner = .call c ∧ ∃ fault,
      s'.calls.get? c = some (.returned (.refused (.broken fault)))
  lock : s'.lock.holder = s.lock.holder ∨ ∃ c fault, s.lock.holder = some c ∧
    s'.calls.get? c = some (.returned (.refused (.broken fault)))
  /-- A call that still holds the lock did not break off. -/
  holder : ∀ c, s'.lock.holder = some c → s.lock.holder = some c ∧
    ∃ change, Call.Hears s'.dispatched change ∧ s'.calls.get? c = (s.calls.get? c).map change

variable {trouble : Prop}

/-- A change that leaves the calls and the holder of the lock tells nothing. -/
theorem Tends.of_eq (hcalls : s'.calls = s.calls) (hlock : s'.lock.holder = s.lock.holder) :
    Tends trouble s s' owner where
  calls c := .inl ⟨id, .nothing, by rw [hcalls]; exact (congrFun Option.map_id _).symm⟩
  lock := .inl hlock
  holder c h := ⟨hlock ▸ h, id, .nothing, by rw [hcalls]; exact (congrFun Option.map_id _).symm⟩

/-- The calls before a change and who holds the lock are all it needs of the state before. -/
theorem Tends.of_frame (h : Tends trouble s' s'' owner) (hcalls : s'.calls = s.calls)
    (hlock : s'.lock.holder = s.lock.holder) : Tends trouble s s'' owner where
  calls c := hcalls ▸ h.calls c
  lock := hlock ▸ h.lock
  holder c hholder := hcalls ▸ hlock ▸ h.holder c hholder

/-- A change that leaves the lock and only tells calls of runs makes no call break off. -/
theorem Tends.of_hears (hlock : s'.lock = s.lock) (hcalls : ∀ c, ∃ change,
    Call.Hears s'.dispatched change ∧ s'.calls.get? c = (s.calls.get? c).map change) :
    Tends trouble s s' owner where
  calls c := .inl (hcalls c)
  lock := .inl (congrArg Lock.holder hlock)
  holder c h := ⟨hlock ▸ h, hcalls c⟩

/-- To wake the waiting stops leaves the dispatched runs. -/
theorem dispatched_wakeStops (s : State H) : s.wakeStops.dispatched = s.dispatched := by
  unfold wakeStops
  split <;> rfl

/-- To wake the waiting stops tells them that no dispatched run is left. -/
theorem Tends.wakeStops (s : State H) : Tends trouble s s.wakeStops owner := by
  by_cases hwake : (s.closed && s.dispatched.isEmpty) = true
  · have hempty : s.dispatched = [] := List.isEmpty_iff.1 (Bool.and_eq_true_iff.1 hwake).2
    refine Tends.of_hears ?_ fun c => ⟨Call.wake, .woken (s.dispatched_wakeStops.trans hempty), ?_⟩
    · rw [State.wakeStops, if_pos hwake]
    · rw [State.wakeStops, if_pos hwake]
      exact Table.lookup_map Call.wake c s.calls.entries
  · rw [State.wakeStops, if_neg hwake]
    exact Tends.of_eq rfl rfl

/-- A run that is dropped tells its outcome to the call that waits for it, or wakes the stops. -/
theorem Tends.finish (s : State H) (id : Nat) (run : Run) (outcome : RunOutcome) :
    Tends trouble s (s.finish id run outcome) owner := by
  unfold State.finish
  cases run.owner with
  | dispatched => exact (Tends.wakeStops _).of_frame rfl rfl
  | call caller =>
    refine Tends.of_hears rfl fun c => ?_
    simp only [Table.get?_modify]
    split
    · exact ⟨_, .outcome id outcome, rfl⟩
    · exact ⟨_, .nothing, (congrFun Option.map_id _).symm⟩

/-- A call that breaks off frees the lock if it holds it, and tells the other calls nothing. -/
theorem Tends.breakCall (htrouble : trouble) (s : State H) (caller : Nat) (fault : Fault) :
    Tends trouble s (s.breakCall caller fault) (.call caller) := by
  have hbroken : (s.breakCall caller fault).calls.get? caller =
      some (.returned (.refused (.broken fault))) := by
    rw [calls_breakCall, Table.get?_insert, if_pos rfl]
  have hothers : ∀ c, caller ≠ c → ∃ change,
      Call.Hears (s.breakCall caller fault).dispatched change ∧
      (s.breakCall caller fault).calls.get? c = (s.calls.get? c).map change := by
    intro c hne
    refine ⟨id, .nothing, ?_⟩
    rw [calls_breakCall, Table.get?_insert, if_neg hne]
    exact (congrFun Option.map_id _).symm
  have hlock : (s.breakCall caller fault).lock =
      if s.lock.holder = some caller then s.lock.release else s.lock := by
    rw [breakCall_eq]
  refine ⟨fun c => ?_, ?_, fun c hholder => ?_⟩
  · by_cases he : caller = c
    · subst he
      exact .inr ⟨htrouble, rfl, fault, hbroken⟩
    · exact .inl (hothers c he)
  · by_cases hholds : s.lock.holder = some caller
    · exact .inr ⟨caller, fault, hholds, hbroken⟩
    · rw [hlock, if_neg hholds]
      exact .inl rfl
  · by_cases hholds : s.lock.holder = some caller
    · rw [hlock, if_pos hholds] at hholder
      cases hholder
    · rw [hlock, if_neg hholds] at hholder
      exact ⟨hholder, hothers c fun he => hholds (he ▸ hholder)⟩

/-- So does a call on which its caller hangs up. -/
theorem Tends.hangUp (htrouble : trouble) (s : State H) (caller : Nat) :
    Tends trouble s (s.hangUp caller) (.call caller) :=
  (Tends.breakCall htrouble _ caller .hungUp).of_frame rfl rfl

/-- A run that breaks off tells nothing but that its call breaks off with it. -/
theorem Tends.breakRun (htrouble : trouble) (s : State H) (id : Nat) (run : Run) (fault : Fault) :
    Tends trouble s (s.breakRun id run fault) run.owner := by
  unfold State.breakRun
  cases run.owner with
  | dispatched =>
    obtain ⟨_, _, he⟩ := s.abandon_eq id
    exact (Tends.wakeStops _).of_frame (by rw [he]) (by rw [he])
  | call caller => exact Tends.breakCall htrouble s caller fault

/-- A run that ends tells its outcome, or breaks off in case of trouble. -/
theorem Tends.conclude (htrouble : ¬ s.IsUntroubled → trouble) (id : Nat) (run : Run)
    (result : Except JobError Unit) : Tends trouble s (s.conclude id run result) run.owner := by
  rcases s.conclude_cases id run result with
    ⟨-, he⟩ | ⟨fault, hnot, he⟩ | ⟨_, now, after, -, -, -, he⟩
  · rw [he]
    exact Tends.of_eq rfl rfl
  · rw [he]
    exact Tends.breakRun (htrouble hnot) s id run fault
  · rw [he, putDown]
    split <;> exact (Tends.finish _ id run _).of_frame rfl rfl

/-- A run that is launched tells nothing, unless its deadline cannot be reached. -/
theorem Tends.launch (htrouble : momentAfter? s.clock s.options.taskTimeout = none → trouble)
    (id : Nat) (run : Run) (token : Token) : Tends trouble s (s.launch id run token) run.owner := by
  unfold State.launch
  split
  · exact Tends.of_eq rfl rfl
  · next hnone => exact (Tends.breakRun (htrouble hnone) _ id run _).of_frame rfl rfl

/-- The first look at a run tells at most that the task is running already. -/
theorem Tends.begin (htrouble : ¬ s.IsUntroubled → trouble) (id : Nat) (run : Run) :
    Tends trouble s (s.begin id run) run.owner := by
  rcases begin_cases s id run with he | he | he
  · rw [he]
    exact Tends.of_eq rfl rfl
  · rw [he]
    exact (Tends.finish _ id run _).of_frame rfl rfl
  · rw [he]
    cases hspare : s.hasSparePermit with
    | true =>
      rw [accept_of_spare hspare]
      have hlaunch := Tends.launch (s := s.letPass id run)
        (fun h => htrouble (not_isUntroubled_of_momentAfter? h)) id run ⟨s.lifetime, false⟩
      exact hlaunch.of_frame rfl rfl
    | false =>
      rw [accept_of_not_spare hspare]
      exact Tends.of_eq rfl rfl

/-- The end of an attempt tells the outcome if it is the last one. -/
theorem Tends.endAttempt (htrouble : ¬ s.IsUntroubled → trouble) (id : Nat) (run : Run)
    (token : Token) (deadline : Moment) (number : Nat) (ending : Ending) :
    Tends trouble s (s.endAttempt id run token deadline number ending) run.owner := by
  have hconclude := Tends.conclude (s := s.note (.ended id run.record number ending s.clock))
    htrouble id run
  simp only [State.endAttempt]
  split
  · exact (hconclude _).of_frame rfl rfl
  · split
    · exact Tends.of_eq rfl rfl
    · exact (hconclude _).of_frame rfl rfl

/-- A start at its catch-up runs holds the lock. -/
def HoldsLock (s : State H) : Prop :=
  ∀ c, s.calls.get? c = some .catchingUp → s.lock.holder = some c

/-- A change that leaves the calls and the lock leaves every start with its lock. -/
theorem HoldsLock.of_eq (hs : s.HoldsLock) (hcalls : s'.calls = s.calls)
    (hlock : s'.lock = s.lock) : s'.HoldsLock := by
  intro c hc
  rw [hlock]
  exact hs c (hcalls ▸ hc)

/-- A start that is told something keeps the lock, unless it breaks off. -/
theorem HoldsLock.tend (hs : s.HoldsLock) (h : Tends trouble s s' owner) : s'.HoldsLock := by
  intro c hc
  have hholder : s.lock.holder = some c := by
    rcases h.calls c with ⟨change, hhears, hcalls⟩ | ⟨-, -, fault, hbroken⟩
    · rw [hcalls] at hc
      obtain ⟨call, hcall, hchange⟩ := Option.map_eq_some_iff.1 hc
      exact hs c ((hhears.catchingUp_iff call).1 hchange ▸ hcall)
    · rw [hc] at hbroken
      cases hbroken
  rcases h.lock with hsame | ⟨caller, fault, hfreed, hbroken⟩
  · exact hsame.trans hholder
  · rw [hholder] at hfreed
    cases hfreed
    rw [hc] at hbroken
    cases hbroken

/-- A call may enter a phase without catch-up runs, if it keeps the lock from no start that has
some. -/
theorem HoldsLock.setCall (hs : s.HoldsLock) (hcalls : s'.calls = s.calls.insert c call)
    (hcall : call ≠ .catchingUp)
    (hlock : s'.lock.holder = s.lock.holder ∨ s.lock.holder = none ∨ s.lock.holder = some c) :
    s'.HoldsLock := by
  intro other hother
  rw [hcalls, Table.get?_insert] at hother
  split at hother
  · exact absurd (Option.some.inj hother) hcall
  · next hne =>
    have hholder := hs other hother
    rcases hlock with hsame | hfree | hown
    · exact hsame.trans hholder
    · rw [hfree] at hholder
      cases hholder
    · rw [hown] at hholder
      cases hholder
      exact absurd rfl hne

/-- A start that gets the lock keeps it for its catch-up runs, or is refused or breaks off. -/
theorem HoldsLock.enterStart (hs : s.HoldsLock) (hnext : s.lock.isNext c = true) :
    (s.enterStart c).HoldsLock := by
  have hfree : s.lock.holder = none := holder_of_isNext hnext
  have htaken : ∀ other, s.calls.get? other ≠ some .catchingUp := by
    intro other hother
    have hholder := hs other hother
    rw [hfree] at hholder
    cases hholder
  rcases s.enterStart_cases c with he | ⟨records, journal, hcases⟩
  · rw [he]
    exact hs.setCall rfl (by simp) (.inr (.inl hfree))
  · let entered : State H := { s with lock := s.lock.take c, records := records, journal :=
      journal }
    have hentered : entered.HoldsLock := fun other hother => absurd hother (htaken other)
    rcases hcases with ⟨fault, he⟩ | he
    · rw [he]
      exact hentered.tend (Tends.breakCall trivial entered c fault)
    · obtain ⟨_, _, _, hcatchUp⟩ := entered.catchUp_eq c
      rw [he, show entered.catchUp c = _ from hcatchUp]
      intro other hother
      simp only [State.setCall, Table.get?_insert] at hother
      split at hother
      · next he =>
        subst he
        rfl
      · exact absurd hother (htaken other)

/-- Each event leaves the starts at their catch-up runs with the lock. -/
theorem HoldsLock.transition (hs : s.HoldsLock) (h : s.Transition event s') : s'.HoldsLock := by
  cases h with
  | refuse => exact hs
  | register | remove | setEnabled | runNow | setClock | elapse | leave | retry | revokeExecuting
  | revokeResting => exact hs.of_eq rfl rfl
  | trigger names =>
    have hadds := adds_askFor s.nextId names { s with nextId := s.nextId + 1 }
    refine hs.setCall (congrArg (fun calls : Table Nat Call => calls.insert s.nextId _) hadds.calls)
      (by simp) (.inl ?_)
    obtain ⟨_, _, he⟩ := askFor_eq s.nextId names { s with nextId := s.nextId + 1 }
    simp only [State.trigger, State.setCall, he]
  | start | stop => exact hs.setCall rfl (by simp) (.inl rfl)
  | begin => exact hs.tend (Tends.begin id _ _)
  | cancel => exact hs.tend ((Tends.conclude id _ _ _).of_frame rfl rfl)
  | acquire =>
    exact hs.tend ((Tends.launch not_isUntroubled_of_momentAfter? _ _ _).of_frame rfl rfl)
  | endAttempt ending => exact hs.tend (Tends.endAttempt id _ _ _ _ _ ending)
  | giveUp => exact hs.tend (Tends.conclude id _ _ _)
  | tick =>
    simp only [State.tick]
    split
    · exact hs.of_eq rfl rfl
    · next now _ =>
      obtain ⟨_, _, he⟩ := dispatchAll_eq s.due (s.note (.ticked _ s.due s.clock now))
      exact hs.of_eq (by rw [he]; rfl) (by rw [he]; rfl)
  | answer => exact hs.setCall rfl (by simp) (.inl rfl)
  | enterStart _ hnext => exact hs.enterStart hnext
  | openLoop hcall => exact hs.setCall rfl (by simp) (.inr (.inr (hs _ hcall)))
  | enterStop _ hnext =>
    simp only [State.enterStop]
    split <;> exact hs.setCall rfl (by simp) (.inr (.inl (holder_of_isNext hnext)))
  | drain =>
    have htends : Tends False s { s with running := false, closed := true }.wakeStops .dispatched :=
      (Tends.wakeStops _).of_frame rfl rfl
    exact (hs.tend htends).setCall rfl (by simp) (.inl rfl)
  | endStop => exact hs.setCall rfl (by simp) (.inl rfl)
  | hangUp => exact hs.tend (Tends.hangUp trivial s _)

/-- In every reachable state a start at its catch-up runs holds the lock. -/
theorem Reachable.holdsLock (hs : s.Reachable) : s.HoldsLock :=
  hs.induction (fun _ _ => nofun) fun _ _ _ hs htransition => hs.transition htransition

/-- Only a start at its catch-up runs holds the lock. -/
def HeldByStart (s : State H) : Prop :=
  ∀ c, s.lock.holder = some c → s.calls.get? c = some .catchingUp

/-- A change that leaves the calls and the lock leaves it with the same start. -/
theorem HeldByStart.of_eq (hs : s.HeldByStart) (hcalls : s'.calls = s.calls)
    (hlock : s'.lock = s.lock) : s'.HeldByStart := by
  intro c hc
  rw [hcalls]
  exact hs c (hlock ▸ hc)

/-- Nobody holds a lock that is free. -/
theorem HeldByStart.of_free (hfree : s.lock.holder = none) : s.HeldByStart := by
  intro c hc
  rw [hfree] at hc
  cases hc

/-- Whoever still holds the lock after a change for a run has not broken off. -/
theorem HeldByStart.tend (hs : s.HeldByStart) (h : Tends trouble s s' owner) : s'.HeldByStart := by
  intro c hc
  obtain ⟨hheld, change, hhears, hcalls⟩ := h.holder c hc
  rw [hcalls, hs c hheld]
  exact congrArg some ((hhears.catchingUp_iff _).2 rfl)

/-- A call that does not hold the lock may enter another phase. -/
theorem HeldByStart.setCall (hs : s.HeldByStart) (hcalls : s'.calls = s.calls.insert c call)
    (hlock : s'.lock.holder = s.lock.holder) (hnot : s.calls.get? c ≠ some .catchingUp) :
    s'.HeldByStart := by
  intro other hother
  have hheld := hs other (hlock ▸ hother)
  have hne : c ≠ other := fun he => hnot (he ▸ hheld)
  rw [hcalls, Table.get?_insert, if_neg hne, hheld]

/-- A start that gets the lock keeps it for its catch-up runs only. -/
theorem HeldByStart.enterStart (s : State H) (c : Nat) : (s.enterStart c).HeldByStart := by
  rcases s.enterStart_cases c with he | ⟨records, journal, hcases⟩
  · rw [he]
    exact .of_free rfl
  · let entered : State H := { s with lock := s.lock.take c, records := records, journal :=
      journal }
    rcases hcases with ⟨fault, he⟩ | he
    · refine .of_free ?_
      rw [he, breakCall_eq]
      exact congrArg Lock.holder (if_pos rfl)
    · obtain ⟨_, _, _, hcatchUp⟩ := entered.catchUp_eq c
      rw [he, show entered.catchUp c = _ from hcatchUp]
      intro other hother
      cases hother
      simp only [State.setCall, Table.get?_insert, if_true]

/-- Each event leaves the lock free or with a start at its catch-up runs. -/
theorem HeldByStart.transition (hs : s.HeldByStart) (hreachable : s.Reachable)
    (h : s.Transition event s') : s'.HeldByStart := by
  -- A request opens its call under a number that no call has.
  have hnew : s.calls.get? s.nextId ≠ some .catchingUp := by
    intro hcall
    have hlt := hreachable.isAwaited.call_lt s.nextId (by rw [Table.contains, hcall]; rfl)
    exact Nat.lt_irrefl _ hlt
  have hother : ∀ {c call}, s.calls.get? c = some call → call ≠ .catchingUp →
      s.calls.get? c ≠ some .catchingUp := by
    intro c call hcall hne he
    rw [hcall] at he
    exact hne (Option.some.inj he)
  cases h with
  | refuse => exact hs
  | register | remove | setEnabled | runNow | setClock | elapse | leave | retry | revokeExecuting
  | revokeResting => exact hs.of_eq rfl rfl
  | trigger names =>
    have hadds := adds_askFor s.nextId names { s with nextId := s.nextId + 1 }
    refine hs.setCall (congrArg (fun calls : Table Nat Call => calls.insert s.nextId _) hadds.calls)
      ?_ hnew
    obtain ⟨_, _, he⟩ := askFor_eq s.nextId names { s with nextId := s.nextId + 1 }
    simp only [State.trigger, State.setCall, he]
  | start | stop => exact hs.setCall rfl rfl hnew
  | begin => exact hs.tend (Tends.begin id _ _)
  | cancel => exact hs.tend ((Tends.conclude id _ _ _).of_frame rfl rfl)
  | acquire =>
    exact hs.tend ((Tends.launch not_isUntroubled_of_momentAfter? _ _ _).of_frame rfl rfl)
  | endAttempt ending => exact hs.tend (Tends.endAttempt id _ _ _ _ _ ending)
  | giveUp => exact hs.tend (Tends.conclude id _ _ _)
  | tick =>
    simp only [State.tick]
    split
    · exact hs.of_eq rfl rfl
    · next now _ =>
      obtain ⟨_, _, he⟩ := dispatchAll_eq s.due (s.note (.ticked _ s.due s.clock now))
      exact hs.of_eq (by rw [he]; rfl) (by rw [he]; rfl)
  | answer hcall => exact hs.setCall rfl rfl (hother hcall (by simp))
  | enterStart => exact HeldByStart.enterStart s _
  | openLoop => exact .of_free rfl
  | enterStop =>
    simp only [State.enterStop]
    split <;> exact .of_free rfl
  | drain hcall =>
    have htends : Tends False s { s with running := false, closed := true }.wakeStops .dispatched :=
      (Tends.wakeStops _).of_frame rfl rfl
    refine (hs.tend htends).setCall rfl rfl fun hcatching => ?_
    rcases htends.calls _ with ⟨change, hhears, hcalls⟩ | ⟨hfalse, -⟩
    · rw [hcatching, hcall, Option.map_some, eq_comm, Option.some.injEq,
        hhears.catchingUp_iff] at hcalls
      cases hcalls
    · exact hfalse
  | endStop hcall => exact hs.setCall rfl rfl (hother hcall (by simp))
  | hangUp => exact hs.tend (Tends.hangUp trivial s _)

/-- In every reachable state only a start at its catch-up runs holds the lock. -/
theorem Reachable.heldByStart (hs : s.Reachable) : s.HeldByStart :=
  hs.step_induction (fun _ _ => .of_free rfl) fun _ _ _ hreachable htransition hs =>
    hs.transition hreachable htransition

/-- A call on which its caller hangs up has returned, and frees the lock if it holds it. Of its runs
none goes on, and those that it does not wait for stay as they are. -/
theorem Reachable.of_hangUp (hs : s.Reachable) (h : s.fire? (.hangUp c) = some s') :
    s'.calls.get? c = some (.returned (.refused (.broken .hungUp))) ∧ s'.lock.holder ≠ some c ∧
      (∀ k run, s'.runs.get? k = some run → run.owner = .call c → run.phase = .stranded) ∧
      ∀ k run, s.runs.get? k = some run → run.owner ≠ .call c → s'.runs.get? k = some run := by
  have hs' : s'.Reachable := hs.fire? h
  obtain ⟨call, -, h⟩ := Option.bind_eq_some_iff.1 h
  split at h <;> cases h
  have hreturned : (s.hangUp c).calls.get? c =
      some (.returned (.refused (.broken .hungUp))) := by
    rw [State.hangUp, calls_breakCall, Table.get?_insert, if_pos rfl]
  refine ⟨hreturned, fun hholder => ?_, fun k run hrun howner => ?_, fun k run hrun hother => ?_⟩
  · have hheld := hs'.heldByStart c hholder
    rw [hreturned] at hheld
    cases hheld
  · by_contra hphase
    exact hs'.isAwaited.owner_ne hreturned (fun _ _ => id) k run hrun hphase howner
  · have hleaves : Leaves (Eq (.call c)) s (s.hangUp c) k :=
      (Leaves.breakCall rfl _ .hungUp).of_runs_eq rfl
    exact hleaves.eq_of_not_breaks hrun hother.symm

/-- The task of a trigger that is dropped while the handler executes stays running. -/
example : ((initial Options.standard (.ofNanos 0)).replay?
    [.request (.register (.new "backup" ())), .request (.trigger ["backup"]), .step (.begin 2),
      .hangUp 1]).bind (fun s => (s.records.get? 0).map fun record =>
        (record.status, s.runs.values.map (·.phase))) = some (.running, [.stranded]) := by decide

/-- A start leaves the other calls as they are. -/
theorem calls_enterStart (s : State H) {caller : Nat} (hne : caller ≠ c) :
    (s.enterStart caller).calls.get? c = s.calls.get? c := by
  rcases s.enterStart_cases caller with he | ⟨records, journal, ⟨fault, he⟩ | he⟩
  · simp only [he, State.reply, State.setCall, Table.get?_insert, if_neg hne]
  · simp only [he, calls_breakCall, Table.get?_insert, if_neg hne]
  · have hadds := adds_catchUp { s with
      lock := s.lock.take caller, records := records, journal := journal } caller
    simp only [he, State.setCall, Table.get?_insert, if_neg hne, hadds.calls]

/-- A call takes a step of its own, is told something, is opened by a request, or breaks off. -/
theorem Transition.calls_cases (h : s.Transition event s') (hs : s.Reachable) (c : Nat) :
    event = .step (.proceed c) ∨
      (∃ change, Call.Hears s'.dispatched change ∧ s'.calls.get? c = (s.calls.get? c).map change) ∨
      (s.calls.get? c = none ∧ ∃ call, s'.calls.get? c = some call ∧ call.IsFresh) ∨
      s.IsTroubledBy event ∧ (∃ call, s.calls.get? c = some call ∧ call.mayHangUp = true) ∧
        ∃ fault, s'.calls.get? c = some (.returned (.refused (.broken fault))) := by
  have hkept : s'.calls.get? c = s.calls.get? c → (∃ change, Call.Hears s'.dispatched change ∧
      s'.calls.get? c = (s.calls.get? c).map change) :=
    fun h => ⟨id, .nothing, h.trans (congrFun Option.map_id _).symm⟩
  have hsame : ∀ {caller : Nat} {other : Call}, caller ≠ c →
      (s.calls.insert caller other).get? c = s.calls.get? c := by
    intro caller other hne
    rw [Table.get?_insert, if_neg hne]
  -- A request opens its call under the next number, which no call has yet.
  have hopened : ∀ call : Call, call.IsFresh → s'.calls = s.calls.insert s.nextId call →
      (∃ change, Call.Hears s'.dispatched change ∧ s'.calls.get? c = (s.calls.get? c).map change) ∨
      (s.calls.get? c = none ∧ ∃ call, s'.calls.get? c = some call ∧ call.IsFresh) := by
    intro call hfresh hcalls
    by_cases he : s.nextId = c
    · subst he
      refine .inr ⟨Option.not_isSome_iff_eq_none.1 fun hsome => ?_, call, ?_, hfresh⟩
      · exact absurd (hs.isAwaited.call_lt s.nextId hsome) (Nat.lt_irrefl _)
      · rw [hcalls, Table.get?_insert, if_pos rfl]
    · exact .inl (hkept (hcalls ▸ hsame he))
  have htold : ∀ {s' : State H} {k : Nat} {run : Run}, s.runs.get? k = some run →
      run.phase ≠ .stranded → Tends (s.IsTroubledBy event) s s' run.owner →
      (∃ change, Call.Hears s'.dispatched change ∧ s'.calls.get? c = (s.calls.get? c).map change) ∨
      (s.calls.get? c = none ∧ ∃ call, s'.calls.get? c = some call ∧ call.IsFresh) ∨
      s.IsTroubledBy event ∧ (∃ call, s.calls.get? c = some call ∧ call.mayHangUp = true) ∧
        ∃ fault, s'.calls.get? c = some (.returned (.refused (.broken fault))) := by
    intro s' k run hrun hphase htends
    rcases htends.calls c with htold | ⟨htrouble, howner, hbroken⟩
    · exact .inl htold
    · obtain ⟨call, hcall, hawaits⟩ := hs.isAwaited.awaited k run c hrun hphase howner
      exact .inr (.inr ⟨htrouble, ⟨call, hcall, hawaits.mayHangUp⟩, hbroken⟩)
  have htrouble : ¬ s.IsUntroubled → s.IsTroubledBy event := .inl
  cases h with
  | refuse | register | remove | setEnabled | runNow | setClock | elapse | leave | retry
  | revokeExecuting | revokeResting => exact .inr (.inl (hkept rfl))
  | trigger names =>
    have hcalls := (adds_askFor s.nextId names { s with nextId := s.nextId + 1 }).calls
    have hinsert := congrArg (fun calls : Table Nat Call => calls.insert s.nextId
      (.triggering ({ s with nextId := s.nextId + 1 }.askFor s.nextId names).2)) hcalls
    exact .inr ((hopened _ (show Call.IsFresh (.triggering _) from trivial) hinsert).imp_right .inl)
  | start => exact .inr ((hopened .starting trivial rfl).imp_right .inl)
  | stop => exact .inr ((hopened .stopping trivial rfl).imp_right .inl)
  | begin hrun hphase => exact .inr (htold hrun (by rw [hphase]; simp) (Tends.begin htrouble _ _))
  | @cancel k run token hrun hphase =>
    have htends : Tends (s.IsTroubledBy _) _ _ run.owner :=
      Tends.conclude (s := s.dequeue k) htrouble k run (.error .cancelled)
    exact .inr (htold hrun (by rw [hphase]; simp) (htends.of_frame rfl rfl))
  | @acquire k run token hrun hphase =>
    have htends : Tends (s.IsTroubledBy _) _ _ run.owner :=
      Tends.launch (s := s.dequeue k) (fun h => htrouble (not_isUntroubled_of_momentAfter? h)) k
        run token
    exact .inr (htold hrun (by rw [hphase]; simp) (htends.of_frame rfl rfl))
  | endAttempt ending hrun hphase =>
    exact .inr (htold hrun (by rw [hphase]; simp)
      (Tends.endAttempt htrouble _ _ _ _ _ ending))
  | giveUp hrun hphase =>
    exact .inr (htold hrun (by rw [hphase]; simp) (Tends.conclude htrouble _ _ _))
  | tick =>
    refine .inr (.inl (hkept ?_))
    simp only [State.tick]
    split
    · rfl
    · simp only [(adds_dispatchAll _ _).calls]
      rfl
  | @answer caller | @openLoop caller | @endStop caller =>
    by_cases he : caller = c
    · exact .inl (by rw [he])
    · exact .inr (.inl (hkept (hsame he)))
  | @enterStart caller =>
    by_cases he : caller = c
    · exact .inl (by rw [he])
    · exact .inr (.inl (hkept (s.calls_enterStart he)))
  | @enterStop caller =>
    by_cases he : caller = c
    · exact .inl (by rw [he])
    · refine .inr (.inl (hkept ?_))
      simp only [State.enterStop]
      split <;> exact hsame he
  | @drain caller =>
    by_cases he : caller = c
    · exact .inl (by rw [he])
    · have htends :
          Tends False s { s with running := false, closed := true }.wakeStops .dispatched :=
        (Tends.wakeStops _).of_frame rfl rfl
      obtain ⟨change, hhears, hcalls⟩ := (htends.calls c).resolve_right fun h => h.1
      refine .inr (.inl ⟨change, hhears, ?_⟩)
      simp only [State.drain, State.setCall, Table.get?_insert, if_neg he, hcalls]
  | @hangUp caller call hcall hmay =>
    have htends : Tends True s (s.hangUp caller) (.call caller) := Tends.hangUp trivial s caller
    rcases htends.calls c with htold | ⟨-, hcaller, hbroken⟩
    · exact .inr (.inl htold)
    · cases hcaller
      exact .inr (.inr (.inr ⟨.inr ⟨c, rfl⟩, ⟨call, hcall, hmay⟩, hbroken⟩))

/-- A call takes a step of its own, or is told something, or breaks off. -/
theorem Transition.call_cases (h : s.Transition event s') (hs : s.Reachable)
    (hcall : s.calls.get? c = some call) :
    event = .step (.proceed c) ∨
      (∃ change, Call.Hears s'.dispatched change ∧ s'.calls.get? c = some (change call)) ∨
      s.IsTroubledBy event ∧ call.mayHangUp = true ∧
        ∃ fault, s'.calls.get? c = some (.returned (.refused (.broken fault))) := by
  rcases h.calls_cases hs c with hevent | ⟨change, hhears, hcalls⟩ | ⟨hnone, -⟩ |
    ⟨htrouble, ⟨call', hcall', hmay⟩, hbroken⟩
  · exact .inl hevent
  · exact .inr (.inl ⟨change, hhears, by rw [hcalls, hcall, Option.map_some]⟩)
  · rw [hcall] at hnone
    cases hnone
  · rw [hcall] at hcall'
    cases hcall'
    exact .inr (.inr ⟨htrouble, hmay, hbroken⟩)

/-- A start that is at its catch-up runs, or a stop that waits for its loop, has stood there before,
unless it takes a step of its own. -/
theorem Transition.stood_of_waits (h : s.Transition event s') (hs : s.Reachable)
    (hcall : s'.calls.get? c = some call) (hwaits : call = .catchingUp ∨ ∃ loop,
      call = .leaving loop) :
    event = .step (.proceed c) ∨ s.calls.get? c = some call := by
  rcases h.calls_cases hs c with hevent | ⟨change, hhears, hcalls⟩ | ⟨-, other, hother, hfresh⟩ |
    ⟨-, -, fault, hbroken⟩
  · exact .inl hevent
  · rw [hcalls] at hcall
    obtain ⟨before, hbefore, hchange⟩ := Option.map_eq_some_iff.1 hcall
    have he : before = call := by
      rcases hwaits with rfl | ⟨loop, rfl⟩ <;> exact hhears.eq_of_apply hchange nofun nofun
    exact .inr (he ▸ hbefore)
  · rw [hother] at hcall
    cases hcall
    rcases hwaits with rfl | ⟨loop, rfl⟩ <;> exact hfresh.elim
  · rw [hbroken] at hcall
    cases hcall
    rcases hwaits with he | ⟨loop, he⟩ <;> cases he

/-- A call that has returned had done so before, unless it takes a step of its own or breaks off. -/
theorem Transition.returned_cases (h : s.Transition event s') (hs : s.Reachable) {reply : Reply}
    (hcall : s'.calls.get? c = some (.returned reply)) :
    event = .step (.proceed c) ∨ s.calls.get? c = some (.returned reply) ∨
      ∃ fault, reply = .refused (.broken fault) := by
  rcases h.calls_cases hs c with hevent | ⟨change, hhears, hcalls⟩ | ⟨-, other, hother, hfresh⟩ |
    ⟨-, -, fault, hbroken⟩
  · exact .inl hevent
  · rw [hcalls] at hcall
    obtain ⟨before, hbefore, hchange⟩ := Option.map_eq_some_iff.1 hcall
    exact .inr (.inl (hhears.eq_of_apply hchange nofun nofun ▸ hbefore))
  · rw [hother] at hcall
    cases hcall
    exact hfresh.elim
  · rw [hbroken] at hcall
    cases hcall
    exact .inr (.inr ⟨fault, rfl⟩)

/-- A stop takes a step of its own, or hears that no dispatched run is left, or stays as it is. -/
theorem Transition.stop_cases (h : s.Transition event s') (hs : s.Reachable)
    (hcall : s.calls.get? c = some call) (hstop : call.IsStop) :
    event = .step (.proceed c) ∨ s'.calls.get? c = some call ∨
      s'.calls.get? c = some call.wake ∧ s'.dispatched = [] := by
  rcases h.call_cases hs hcall with
    hevent | ⟨change, hhears, hcalls⟩ | ⟨-, hmay, -⟩
  · exact .inl hevent
  · rw [hcalls]
    refine .inr ?_
    rcases hhears.stop_cases hstop with he | ⟨he, hempty⟩
    · exact .inl (congrArg some he)
    · exact .inr ⟨congrArg some he, hempty⟩
  · cases call <;> first | exact hstop.elim | cases hmay

/-- A call that has returned does nothing more. -/
theorem Transition.returned_stays (h : s.Transition event s') (hs : s.Reachable) {reply : Reply}
    (hcall : s.calls.get? c = some (.returned reply)) :
    s'.calls.get? c = some (.returned reply) := by
  rcases h.stop_cases hs hcall trivial with rfl | hsame | ⟨hsame, -⟩
  · cases h with
    | answer hcall' | enterStart hcall' | openLoop hcall' | enterStop hcall' | drain hcall'
    | endStop hcall' =>
      rw [hcall] at hcall'
      cases hcall'
  · exact hsame
  · exact hsame

/-- A start at its catch-up runs goes on with them until it opens its loop and returns, unless it
breaks off. -/
theorem Transition.catchingUp_cases (h : s.Transition event s') (hs : s.Reachable)
    (hcall : s.calls.get? c = some .catchingUp) :
    s'.calls.get? c = some (.returned .started) ∨ s'.calls.get? c = some .catchingUp ∨
      s.IsTroubledBy event ∧ ∃ fault,
        s'.calls.get? c = some (.returned (.refused (.broken fault))) := by
  rcases h.call_cases hs hcall with rfl | ⟨change, hhears, hcalls⟩ | ⟨htrouble, -, hbroken⟩
  · cases h with
    | openLoop =>
      exact .inl (by simp only [State.openLoop, reply, setCall, Table.get?_insert, if_true])
    | answer hcall' | enterStart hcall' | enterStop hcall' | drain hcall' | endStop hcall' =>
      rw [hcall] at hcall'
      cases hcall'
  · exact .inr (.inl (hcalls.trans (congrArg some ((hhears.catchingUp_iff _).2 rfl))))
  · exact .inr (.inr ⟨htrouble, hbroken⟩)

end State

end CronDaemon.Scheduler
