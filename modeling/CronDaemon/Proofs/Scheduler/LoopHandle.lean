import CronDaemon.Proofs.Scheduler.Calls
import CronDaemon.Proofs.Scheduler.OverlapGuard
import CronDaemon.Proofs.Scheduler.Regime
import CronDaemon.Proofs.Scheduler.TickTimes

/-!
# The loop handle and the flag

A start spawns its loop under the lock, and only if no loop handle is stored; a stop takes the
handle and ends the lifetime in one step. So a loop that lives is the one whose handle is stored,
and belongs to the current lifetime, or one on whose exit a stop waits; there are never two loops
that go on. The flag is set together with the handle, but a stop clears it only after the loop has
exited, long after it has freed the lock. A start that opens its loop in the meantime loses its flag
to that stop.
-/

namespace CronDaemon.Scheduler

/-- Whether a call is a start or a stop that has not returned. -/
def Call.isStartOrStop : Call → Bool
  | .starting | .catchingUp | .stopping | .leaving _ | .draining .. => true
  | .triggering _ | .returned _ => false

/-- The loops, the handle, the current lifetime and the flag of a scheduler. -/
structure Helm where
  loops : Table Nat TickLoop
  handle : Option Nat
  lifetime : Nat
  running : Bool

namespace State

variable {H : Type} {start s s' t : State H} {events : List (Event H)} {event : Event H} {c k : Nat}

/-- The loops, the handle, the current lifetime and the flag of a state. -/
def helm (s : State H) : Helm := ⟨s.loops, s.handle, s.lifetime, s.running⟩

/-- What one event may do to the loops, the handle, the current lifetime and the flag. -/
inductive Steers (s s' : State H) : Event H → Prop
  | keep {event : Event H} (hevent : ∀ id, event ≠ .step (.tick id)) (hhelm : s'.helm = s.helm) :
      Steers s s' event
  | tick {id : Nat} {loop : TickLoop} (next : Option Moment) (hloop : s.loops.get? id = some loop)
      (hreads : ∀ fault, s.reading ≠ .error fault)
      (hhelm :
        s'.helm = { s.helm with loops := s.loops.insert id { loop with nextTick := next } }) :
      Steers s s' (.step (.tick id))
  /-- A loop cannot read the clock. -/
  | breakOff {id : Nat} {fault : Fault} (hreading : s.reading = .error fault)
      (hhelm : s'.helm = { s.helm with loops := s.loops.erase id }) : Steers s s' (.step (.tick id))
  /-- A loop exits with its lifetime. -/
  | leave {id : Nat} {loop : TickLoop} (hloop : s.loops.get? id = some loop)
      (hended : s.ended.contains loop.lifetime = true)
      (hhelm : s'.helm = { s.helm with loops := s.loops.erase id }) :
      Steers s s' (.step (.leave id))
  /-- A start spawns its loop and returns. -/
  | openLoop {call : Nat} (hcall : s.calls.get? call = some .catchingUp)
      (hhelm : s'.helm = ⟨s.loops.insert s.nextId ⟨s.lifetime, none⟩, some s.nextId,
        s.lifetime, true⟩)
      (hreturns : s'.calls.get? call = some (.returned .started)) :
      Steers s s' (.step (.proceed call))
  /-- A stop takes the handle and ends the lifetime. -/
  | enterStop {call loop : Nat} (hhandle : s.handle = some loop)
      (hhelm : s'.helm = ⟨s.loops, none, s.lifetime + 1, s.running⟩)
      (hleaves : s'.calls.get? call = some (.leaving loop)) : Steers s s' (.step (.proceed call))
  /-- The loop of a stop has exited. -/
  | drain {call loop : Nat} (hcall : s.calls.get? call = some (.leaving loop))
      (hhelm : s'.helm = { s.helm with running := false }) : Steers s s' (.step (.proceed call))

/-- What leaves the frame and the regime leaves the helm. -/
theorem helm_of_eq (hframe : s'.frame = s.frame) (hregime : s'.regime = s.regime) :
    s'.helm = s.helm := by
  have hloops : s'.loops = s.loops := congrArg Frame.loops hframe
  have hhandle : s'.handle = s.handle := congrArg Regime.handle hregime
  have hlifetime : s'.lifetime = s.lifetime := congrArg Regime.lifetime hregime
  have hrunning : s'.running = s.running := congrArg Regime.running hregime
  rw [helm, hloops, hhandle, hlifetime, hrunning]
  rfl

/-- A stop whose loop has exited clears the flag. -/
theorem helm_drain (s : State H) (c : Nat) :
    (s.drain c).helm = { s.helm with running := false } := by
  have hwoken : { s with running := false, closed := true }.wakeStops.helm =
      { s.helm with running := false } := helm_of_eq (frame_wakeStops _) (regime_wakeStops _)
  exact hwoken

/-- An event that is no tick, no exit of a loop and no step of a call leaves all this alone. -/
theorem Transition.helm_eq (h : s.Transition event s') (htick : ∀ id, event ≠ .step (.tick id))
    (hleave : ∀ id, event ≠ .step (.leave id)) (hproceed : ∀ call, event ≠ .step (.proceed call)) :
    s'.helm = s.helm := by
  have hloops : s'.loops = s.loops := by
    have hchange := h.change
    generalize hframe : s'.frame = frame at hchange
    rw [show s'.loops = frame.loops from congrArg Frame.loops hframe]
    cases hchange with
    | tick | breakLoop => exact absurd rfl (htick _)
    | leave => exact absurd rfl (hleave _)
    | openLoop => exact absurd rfl (hproceed _)
    | keep | register | remove | setEnabled | setClock | pass | refuse | elapse => rfl
  have hturns := h.turns
  generalize hregime : s'.regime = regime at hturns
  have hhelm : s'.helm = ⟨s'.loops, regime.handle, regime.lifetime, regime.running⟩ := by
    rw [← hregime]
    rfl
  rw [hhelm, hloops]
  cases hturns with
  | keep => rfl
  | openLoop | enterStop | drain | endStop => exact absurd rfl (hproceed _)

/-- Each change of a scheduler changes the loops, the handle, the lifetime and the flag in one of
these ways. -/
theorem Transition.steers (h : s.Transition event s') : s.Steers s' event := by
  have hstands : (∀ id, event ≠ .step (.tick id)) → (∀ id, event ≠ .step (.leave id)) →
      (∀ call, event ≠ .step (.proceed call)) → s.Steers s' event :=
    fun htick hleave hproceed => .keep htick (h.helm_eq htick hleave hproceed)
  cases h with
  | refuse | register | remove | setEnabled | runNow | trigger | start | stop | setClock | begin
  | cancel | acquire | endAttempt | retry | giveUp | revokeExecuting | revokeResting | hangUp
  | elapse => exact hstands nofun nofun nofun
  | @tick id loop hloop =>
    cases hreading : s.reading with
    | error fault =>
      refine .breakOff hreading ?_
      simp only [State.tick, hreading]
      rfl
    | ok now =>
      obtain ⟨_, _, he⟩ := dispatchAll_eq s.due (s.note (.ticked id s.due s.clock now))
      refine .tick
        (some (tickAfter s.options.tickInterval.nanos (loop.nextTick.getD s.clock) s.clock))
        hloop (by simp [hreading]) ?_
      simp only [State.tick, hreading, he]
      rfl
  | leave hloop hended => exact .leave hloop hended rfl
  | answer | endStop => exact .keep (by simp) rfl
  | @enterStart call =>
    refine .keep (by simp) ?_
    rcases s.enterStart_cases call with he | ⟨records, journal, ⟨fault, he⟩ | he⟩
    · rw [he]
      rfl
    · rw [he, helm_of_eq (frame_breakCall _ call fault) (regime_breakCall _ call fault)]
      rfl
    · obtain ⟨_, _, _, hcatchUp⟩ := catchUp_eq { s with
        lock := s.lock.take call, records := records, journal := journal } call
      rw [he, hcatchUp]
      rfl
  | openLoop hcall =>
    exact .openLoop hcall rfl
      (by simp only [State.openLoop, reply, setCall, Table.get?_insert, if_true])
  | @enterStop call =>
    cases hhandle : s.handle with
    | none =>
      refine .keep (by simp) ?_
      simp only [State.enterStop, hhandle]
      simp only [helm, reply, setCall, hhandle]
    | some loop =>
      refine .enterStop hhandle ?_ ?_
      · simp only [State.enterStop, hhandle]
        rfl
      · simp only [State.enterStop, hhandle, setCall, Table.get?_insert, if_true]
  | drain hcall => exact .drain hcall (helm_drain s _)

/-- A stop that waits for its loop goes on to wait, or its loop has exited and it clears the
flag. -/
theorem Transition.leaving_cases (h : s.Transition event s') (hs : s.Reachable)
    (hcall : s.calls.get? c = some (.leaving k)) :
    s'.calls.get? c = some (.leaving k) ∨
      event = .step (.proceed c) ∧ s.loops.contains k = false ∧ s'.running = false := by
  rcases h.stop_cases hs hcall trivial with rfl | hsame | ⟨hsame, -⟩
  · cases h with
    | drain hcall' hexited =>
      rw [hcall] at hcall'
      cases hcall'
      exact .inr ⟨rfl, hexited, congrArg Helm.running (helm_drain s c)⟩
    | answer hcall' | enterStart hcall' | openLoop hcall' | enterStop hcall' | endStop hcall' =>
      rw [hcall] at hcall'
      cases hcall'
  · exact .inl hsame
  · exact .inl hsame

/-- A start that a step of its own brings to its catch-up runs has taken the lock. -/
theorem Transition.takesLock_of_catchingUp (h : s.Transition (.step (.proceed c)) s')
    (hcall : s'.calls.get? c = some .catchingUp) : s.TakesLock c := by
  cases h with
  | enterStart hstarting hnext =>
    cases hhandle : s.handle with
    | none => exact ⟨hstarting, hnext, hhandle⟩
    | some loop => simp [State.enterStart, hhandle, reply, setCall] at hcall
  | enterStop =>
    simp only [State.enterStop] at hcall
    split at hcall <;> simp [reply, setCall] at hcall
  | answer | openLoop | drain | endStop =>
    simp [State.openLoop, State.drain, State.endStop, reply, setCall] at hcall

/-- A stop that a step of its own brings to wait for a loop has taken the handle. -/
theorem Transition.handle_of_leaving (h : s.Transition (.step (.proceed c)) s')
    (hcall : s'.calls.get? c = some (.leaving k)) : s'.handle = none := by
  cases h with
  | enterStop =>
    simp only [State.enterStop] at hcall ⊢
    split
    · next hhandle => simp [hhandle, reply, setCall] at hcall
    · rfl
  | @enterStart _ hstarting =>
    rcases s.enterStart_cases c with he | ⟨records, journal, ⟨fault, he⟩ | he⟩ <;> rw [he] at hcall
    · simp [reply, setCall] at hcall
    · simp [calls_breakCall] at hcall
    · simp [setCall] at hcall
  | answer | openLoop | drain | endStop =>
    simp [State.openLoop, State.drain, State.endStop, reply, setCall] at hcall

/-- A loop that lives is the one whose handle is stored, and belongs to the current lifetime, or its
lifetime is over and a stop waits for its exit. No handle is stored while a start is at its catch-up
runs, and without one the flag is set only until such a stop goes on. -/
structure IsSteered (s : State H) : Prop where
  handle_lt : ∀ k, s.handle = some k → k < s.nextId
  vacant : ∀ c, s.calls.get? c = some .catchingUp → s.handle = none
  known : ∀ k loop, s.loops.get? k = some loop → (s.handle = some k ∧ loop.lifetime = s.lifetime) ∨
    (s.handle ≠ some k ∧ loop.lifetime < s.lifetime ∧ ∃ c, s.calls.get? c = some (.leaving k))
  cleared : s.handle = none → s.running = true → ∃ c k, s.calls.get? c = some (.leaving k)

/-- A change that moves neither the handle nor the lifetime, brings no loop and does not set the
flag. -/
theorem IsSteered.of_same (hs : s.IsSteered) (hreachable : s.Reachable) (h : s.Transition event s')
    (hhandle : s'.handle = s.handle) (hlifetime : s'.lifetime = s.lifetime)
    (hrunning : s'.running = true → s.running = true)
    (hloops : ∀ k loop', s'.loops.get? k = some loop' →
      ∃ loop, s.loops.get? k = some loop ∧ loop.lifetime = loop'.lifetime) : s'.IsSteered where
  handle_lt k hk :=
    Nat.lt_of_lt_of_le (hs.handle_lt k (hhandle ▸ hk)) (Ledger.Moves.nextId_le h.moves)
  vacant c hc := by
    rw [hhandle]
    rcases h.stood_of_waits hreachable hc (.inl rfl) with rfl | hstood
    · exact (h.takesLock_of_catchingUp hc).2.2
    · exact hs.vacant c hstood
  known k loop' hloop' := by
    obtain ⟨loop, hloop, he⟩ := hloops k loop' hloop'
    rw [hhandle, hlifetime, ← he]
    rcases hs.known k loop hloop with hstored | ⟨hnot, hended, c, hleaving⟩
    · exact .inl hstored
    · rcases h.leaving_cases hreachable hleaving with hstays | ⟨-, hexited, -⟩
      · exact .inr ⟨hnot, hended, c, hstays⟩
      · rw [Table.contains, hloop] at hexited
        cases hexited
  cleared hnone hset := by
    obtain ⟨c, k, hleaving⟩ := hs.cleared (hhandle ▸ hnone) (hrunning hset)
    rcases h.leaving_cases hreachable hleaving with hstays | ⟨-, -, hcleared⟩
    · exact ⟨c, k, hstays⟩
    · rw [hset] at hcleared
      cases hcleared

/-- A start that opens its loop stores the handle of a new one, in the current lifetime. -/
theorem IsSteered.openLoop (hs : s.IsSteered) (hreachable : s.Reachable) {call : Nat}
    (h : s.Transition (.step (.proceed call)) s') (hcall : s.calls.get? call = some .catchingUp)
    (hhelm : s'.helm = ⟨s.loops.insert s.nextId ⟨s.lifetime, none⟩, some s.nextId,
      s.lifetime, true⟩)
    (hreturns : s'.calls.get? call = some (.returned .started)) : s'.IsSteered := by
  have hloops : s'.loops = s.loops.insert s.nextId ⟨s.lifetime, none⟩ := congrArg Helm.loops hhelm
  have hhandle : s'.handle = some s.nextId := congrArg Helm.handle hhelm
  have hlifetime : s'.lifetime = s.lifetime := congrArg Helm.lifetime hhelm
  refine ⟨fun k hk => ?_, fun c hc => ?_, fun k loop hloop => ?_, fun hnone => ?_⟩
  · rw [hhandle, Option.some.injEq] at hk
    have hnew : s'.loops.get? k = some ⟨s.lifetime, none⟩ := by
      rw [hloops, ← hk, Table.get?_insert, if_pos rfl]
    exact (h.change.hasKnownLoops hreachable.hasKnownLoops).loop_lt hnew
  · -- The start that opens the loop holds the lock, and no other can be at its catch-up runs.
    rcases h.stood_of_waits hreachable hc (.inl rfl) with he | hstood
    · cases he
      rw [hreturns] at hc
      cases hc
    · have hholder := hreachable.holdsLock c hstood
      rw [hreachable.holdsLock call hcall] at hholder
      cases hholder
      rw [hreturns] at hc
      cases hc
  · rw [hhandle, hlifetime]
    rw [hloops, Table.get?_insert] at hloop
    split at hloop
    · next he =>
      cases hloop
      exact .inl ⟨congrArg some he, rfl⟩
    · next hne =>
      rcases hs.known k loop hloop with ⟨hstored, -⟩ | ⟨-, hended, c, hleaving⟩
      · rw [hs.vacant call hcall] at hstored
        cases hstored
      · rcases h.leaving_cases hreachable hleaving with hstays | ⟨-, hexited, -⟩
        · exact .inr ⟨fun he => hne (Option.some.inj he), hended, c, hstays⟩
        · rw [Table.contains, hloop] at hexited
          cases hexited
  · rw [hhandle] at hnone
    cases hnone

/-- A stop that takes the handle ends the lifetime of the loop and waits for it. -/
theorem IsSteered.enterStop (hs : s.IsSteered) (hreachable : s.Reachable) {call loop : Nat}
    (h : s.Transition (.step (.proceed call)) s') (hhandle : s.handle = some loop)
    (hhelm : s'.helm = ⟨s.loops, none, s.lifetime + 1, s.running⟩)
    (hleaves : s'.calls.get? call = some (.leaving loop)) : s'.IsSteered := by
  have hloops : s'.loops = s.loops := congrArg Helm.loops hhelm
  have hnone : s'.handle = none := congrArg Helm.handle hhelm
  have hlifetime : s'.lifetime = s.lifetime + 1 := congrArg Helm.lifetime hhelm
  refine ⟨fun k hk => ?_, fun _ _ => hnone, fun k tickLoop hloop => ?_,
    fun _ _ => ⟨call, loop, hleaves⟩⟩
  · rw [hnone] at hk
    cases hk
  · rw [hnone, hlifetime]
    rw [hloops] at hloop
    refine .inr ⟨nofun, ?_⟩
    rcases hs.known k tickLoop hloop with ⟨hstored, hcurrent⟩ | ⟨-, hended, c, hleaving⟩
    · rw [hhandle] at hstored
      cases hstored
      exact ⟨hcurrent ▸ Nat.lt_succ_self _, call, hleaves⟩
    · refine ⟨Nat.lt_succ_of_lt hended, ?_⟩
      rcases h.leaving_cases hreachable hleaving with hstays | ⟨-, hexited, -⟩
      · exact ⟨c, hstays⟩
      · rw [Table.contains, hloop] at hexited
        cases hexited

/-- Each event leaves the loops steered. -/
theorem IsSteered.transition (hs : s.IsSteered) (hreachable : s.Reachable)
    (h : s.Transition event s') : s'.IsSteered := by
  -- A loop that is there after an exit was there before.
  have hrest : ∀ id k loop, (s.loops.erase id).get? k = some loop →
      ∃ before, s.loops.get? k = some before ∧ before.lifetime = loop.lifetime := by
    intro id k loop hloop
    rw [Table.get?_erase] at hloop
    split at hloop
    · cases hloop
    · exact ⟨loop, hloop, rfl⟩
  cases h.steers with
  | keep _ hhelm =>
    refine hs.of_same hreachable h (congrArg Helm.handle hhelm) (congrArg Helm.lifetime hhelm)
      (fun hset => (congrArg Helm.running hhelm).symm.trans hset) fun k loop hloop =>
        ⟨loop, ?_, rfl⟩
    exact (congrArg (fun helm : Helm => helm.loops.get? k) hhelm).symm.trans hloop
  | @tick id loop next hloop _ hhelm =>
    refine hs.of_same hreachable h (congrArg Helm.handle hhelm) (congrArg Helm.lifetime hhelm)
      (fun hset => (congrArg Helm.running hhelm).symm.trans hset) fun k loop' hloop' => ?_
    rw [show s'.loops = _ from congrArg Helm.loops hhelm, Table.get?_insert] at hloop'
    split at hloop'
    · next he =>
      cases hloop'
      exact ⟨loop, he ▸ hloop, rfl⟩
    · exact ⟨loop', hloop', rfl⟩
  | @breakOff id _ _ hhelm | @leave id _ _ _ hhelm =>
    refine hs.of_same hreachable h (congrArg Helm.handle hhelm) (congrArg Helm.lifetime hhelm)
      (fun hset => (congrArg Helm.running hhelm).symm.trans hset) fun k loop hloop => ?_
    exact hrest id k loop ((congrArg (fun helm : Helm => helm.loops.get? k) hhelm).symm.trans hloop)
  | openLoop hcall hhelm hreturns => exact hs.openLoop hreachable h hcall hhelm hreturns
  | enterStop hhandle hhelm hleaves => exact hs.enterStop hreachable h hhandle hhelm hleaves
  | drain _ hhelm =>
    refine hs.of_same hreachable h (congrArg Helm.handle hhelm) (congrArg Helm.lifetime hhelm)
      (fun hset => ?_) fun k loop hloop => ⟨loop, ?_, rfl⟩
    · rw [show s'.running = false from congrArg Helm.running hhelm] at hset
      cases hset
    · exact (congrArg (fun helm : Helm => helm.loops.get? k) hhelm).symm.trans hloop

/-- In every reachable state the loops are steered. -/
theorem Reachable.isSteered (hs : s.Reachable) : s.IsSteered :=
  hs.step_induction (fun _ _ => ⟨nofun, nofun, nofun, nofun⟩)
    fun _ _ _ hreachable h hs => hs.transition hreachable h

/-- The loop was opened while a stop waited for another one to exit. -/
def OpenedInStop (start : State H) (events : List (Event H)) (k : Nat) : Prop :=
  ∃ call t t' after, start.Occurs events (.step (.proceed call)) t t' after ∧
    t.calls.get? call = some .catchingUp ∧ t.nextId = k ∧
    ∃ c loop, t.calls.get? c = some (.leaving loop)

/-- The loop finds at a tick that the clock cannot be read. -/
def FailsTick (s : State H) (event : Event H) (k : Nat) : Prop :=
  event = .step (.tick k) ∧ ∃ fault, s.reading = .error fault

/-- The loop broke off at a tick, since the clock could not be read. -/
def LoopBreaksOff (start : State H) (events : List (Event H)) (k : Nat) : Prop :=
  ∃ event t t' after, start.Occurs events event t t' after ∧ t.FailsTick event k

/-- What was opened in a stop stays so. -/
theorem OpenedInStop.snoc (h : start.OpenedInStop events k) (event : Event H) :
    start.OpenedInStop (events ++ [event]) k := by
  obtain ⟨call, t, t', after, hoccurs, hrest⟩ := h
  exact ⟨call, t, t', after ++ [event], hoccurs.snoc event, hrest⟩

/-- A loop that was opened in a stop was so before, or is opened by the last event. -/
theorem OpenedInStop.of_snoc (hs : start.replay? events = some s)
    (h : start.OpenedInStop (events ++ [event]) k) : start.OpenedInStop events k ∨
      s.nextId = k ∧ ∃ c loop, s.calls.get? c = some (.leaving loop) := by
  obtain ⟨call, t, t', after, hoccurs, hcall, hnext, hleaving⟩ := h
  rcases hoccurs.of_snoc with ⟨rest, -, hearlier⟩ | ⟨-, -, ht⟩
  · exact .inl ⟨call, t, t', rest, hearlier, hcall, hnext, hleaving⟩
  · rw [hs] at ht
    cases ht
    exact .inr ⟨hnext, hleaving⟩

/-- A loop that was opened has a number that is used. -/
theorem OpenedInStop.lt (h : start.OpenedInStop events k)
    (hreplay : start.replay? events = some s) : k < s.nextId := by
  obtain ⟨call, t, t', after, hoccurs, hcall, rfl, -⟩ := h
  have hproceed : t.proceed? call = some t' := hoccurs.fires
  simp only [proceed?, hcall] at hproceed
  split at hproceed <;> cases hproceed
  exact Ledger.Moves.nextId_le (replay?_moves (hoccurs.replay? hreplay))

/-- A loop that broke off stays so. -/
theorem LoopBreaksOff.snoc (h : start.LoopBreaksOff events k) (event : Event H) :
    start.LoopBreaksOff (events ++ [event]) k := by
  obtain ⟨tick, t, t', after, hoccurs, hfails⟩ := h
  exact ⟨tick, t, t', after ++ [event], hoccurs.snoc event, hfails⟩

/-- A loop that broke off did so before, or does by the last event. -/
theorem LoopBreaksOff.of_snoc (hs : start.replay? events = some s)
    (h : start.LoopBreaksOff (events ++ [event]) k) :
    start.LoopBreaksOff events k ∨ s.FailsTick event k := by
  obtain ⟨tick, t, t', after, hoccurs, hfails⟩ := h
  rcases hoccurs.of_snoc with ⟨rest, -, hearlier⟩ | ⟨he, -, ht⟩
  · exact .inl ⟨tick, t, t', rest, hearlier, hfails⟩
  · rw [hs] at ht
    cases ht
    exact .inr (he ▸ hfails)

/-- A loop that broke off has a number that is used. -/
theorem LoopBreaksOff.lt (hstart : start.Reachable) (h : start.LoopBreaksOff events k)
    (hreplay : start.replay? events = some s) : k < s.nextId := by
  obtain ⟨event, t, t', after, hoccurs, rfl, -⟩ := h
  have hstep : t.step? (.tick k) = some t' := hoccurs.fires
  obtain ⟨loop, hloop, -⟩ := Option.bind_eq_some_iff.1 hstep
  have hlt := (hoccurs.reachable hstart).hasKnownLoops.loop_lt hloop
  have hfirst : t.nextId ≤ t'.nextId :=
    Ledger.Moves.nextId_le (transition_of_fire? hoccurs.fires).moves
  have hrest : t'.nextId ≤ s.nextId :=
    Ledger.Moves.nextId_le (replay?_moves (hoccurs.replay? hreplay))
  exact Nat.lt_of_lt_of_le hlt (Nat.le_trans hfirst hrest)

/-- What has become of the loop whose handle is stored, and of the flag that was set with it. -/
structure Watches (start : State H) (events : List (Event H)) (s : State H) (k : Nat) : Prop where
  flag : s.running = true ∨ start.OpenedInStop events k
  /-- A stop that waits for a loop waits for an earlier one. -/
  leaving : ∀ c loop, s.calls.get? c = some (.leaving loop) → start.OpenedInStop events k
  cleared : start.OpenedInStop events k →
    s.running = false ∨ ∃ c loop, s.calls.get? c = some (.leaving loop)
  alive : s.loops.contains k = true ∨ start.LoopBreaksOff events k
  gone : start.LoopBreaksOff events k → s.loops.contains k = false

/-- A change that leaves the handle of the loop in its place. The flag may be cleared by a stop that
has waited for an earlier loop, and the loop may break off. -/
theorem Watches.of_same (hw : start.Watches events s k) (hs : start.replay? events = some s)
    (hreachable : s.Reachable) (h : s.Transition event s') (hstored : s.handle = some k)
    (hhandle : s'.handle = s.handle)
    (hrunning : s'.running = s.running ∨
      s'.running = false ∧ ∃ c loop, s.calls.get? c = some (.leaving loop))
    (hloops : ¬ s.FailsTick event k ∧ s'.loops.contains k = s.loops.contains k ∨
      s.FailsTick event k ∧ s'.loops.contains k = false)
    (hfire : s.fire? event = some s') : start.Watches (events ++ [event]) s' k := by
  have hold : start.OpenedInStop (events ++ [event]) k → start.OpenedInStop events k := by
    intro hopened
    rcases hopened.of_snoc hs with hearlier | ⟨hnext, -⟩
    · exact hearlier
    · exact absurd (hreachable.isSteered.handle_lt k hstored) (hnext ▸ Nat.lt_irrefl _)
  refine ⟨?_, fun c loop hleaving => ?_, fun hopened => ?_, ?_, fun hbreaks => ?_⟩
  · rcases hrunning with hsame | ⟨-, c, loop, hleaving⟩
    · rw [hsame]
      exact hw.flag.imp_right fun hopened => hopened.snoc event
    · exact .inr ((hw.leaving c loop hleaving).snoc event)
  · rcases h.stood_of_waits hreachable hleaving (.inr ⟨loop, rfl⟩) with rfl | hstood
    · -- A stop that had just taken the handle would have left none.
      rw [← hhandle, h.handle_of_leaving hleaving] at hstored
      cases hstored
    · exact (hw.leaving c loop hstood).snoc event
  · rcases hrunning with hsame | ⟨hcleared, -⟩
    · rcases hw.cleared (hold hopened) with hcleared | ⟨c, loop, hleaving⟩
      · exact .inl (hsame.trans hcleared)
      · rcases h.leaving_cases hreachable hleaving with hstays | ⟨-, -, hcleared⟩
        · exact .inr ⟨c, loop, hstays⟩
        · exact .inl hcleared
    · exact .inl hcleared
  · rcases hloops with ⟨-, hsame⟩ | ⟨hfails, -⟩
    · rw [hsame]
      exact hw.alive.imp_right fun hbreaks => hbreaks.snoc event
    · exact .inr ⟨event, s, s', [], Occurs.last hs hfire, hfails⟩
  · rcases hloops with ⟨hnot, hsame⟩ | ⟨-, hgone⟩
    · exact hsame.trans (hw.gone ((hbreaks.of_snoc hs).resolve_right hnot))
    · exact hgone

/-- A start that opens a loop stores its handle and sets the flag. -/
theorem Watches.openLoop (hstart : start.Reachable) (hs : start.replay? events = some s)
    {call : Nat} (hfire : s.fire? (.step (.proceed call)) = some s')
    (hcall : s.calls.get? call = some .catchingUp)
    (hhelm : s'.helm = ⟨s.loops.insert s.nextId ⟨s.lifetime, none⟩, some s.nextId,
      s.lifetime, true⟩)
    (hreturns : s'.calls.get? call = some (.returned .started)) :
    start.Watches (events ++ [.step (.proceed call)]) s' s.nextId := by
  have h := transition_of_fire? hfire
  have hreachable : s.Reachable := hstart.replay? hs
  have halive : s'.loops.contains s.nextId = true := by
    rw [show s'.loops = _ from congrArg Helm.loops hhelm, Table.contains, Table.get?_insert,
      if_pos rfl]
    rfl
  refine ⟨.inl (congrArg Helm.running hhelm), fun c loop hleaving => ?_, fun hopened => ?_,
    .inl halive, fun hbreaks => ?_⟩
  · refine ⟨call, s, s', [], Occurs.last hs hfire, hcall, rfl, c, loop, ?_⟩
    rcases h.stood_of_waits hreachable hleaving (.inr ⟨loop, rfl⟩) with he | hstood
    · cases he
      rw [hreturns] at hleaving
      cases hleaving
    · exact hstood
  · rcases hopened.of_snoc hs with hearlier | ⟨-, c, loop, hleaving⟩
    · exact absurd (hearlier.lt hs) (Nat.lt_irrefl _)
    · rcases h.leaving_cases hreachable hleaving with hstays | ⟨-, -, hcleared⟩
      · exact .inr ⟨c, loop, hstays⟩
      · exact .inl hcleared
  · rcases hbreaks.of_snoc hs with hearlier | ⟨he, -⟩
    · exact absurd (hearlier.lt hstart hs) (Nat.lt_irrefl _)
    · cases he

/-- In the course of a history the loop whose handle is stored goes on unless it breaks off, and the
flag stays set unless the loop was opened in the course of a stop. -/
theorem watches_of_replay? (hstart : start.Reachable) (hfirst : start.handle = none)
    (h : start.replay? events = some s) (hstored : s.handle = some k) :
    start.Watches events s k := by
  refine history_induction (motive := fun events s => ∀ k, s.handle = some k →
    start.Watches events s k) (fun k hk => ?_) ?_ h k hstored
  · rw [hfirst] at hk
    cases hk
  · intro before event s s' hs hfire ih k hstored
    have hreachable : s.Reachable := hstart.replay? hs
    have h := transition_of_fire? hfire
    have hcontains : ∀ {helm : Helm}, s'.helm = helm →
        s'.loops.contains k = helm.loops.contains k :=
      fun hhelm => congrArg (fun helm : Helm => helm.loops.contains k) hhelm
    -- A handle is stored only when its loop is opened; after any other event it was stored before.
    cases h.steers with
    | keep hevent hhelm =>
      have hhandle : s'.handle = s.handle := congrArg Helm.handle hhelm
      have hold : s.handle = some k := hhandle ▸ hstored
      exact (ih k hold).of_same hs hreachable h hold hhandle (.inl (congrArg Helm.running hhelm))
        (.inl ⟨fun hfails => hevent k hfails.1, hcontains hhelm⟩) hfire
    | @tick id loop next hloop hreads hhelm =>
      have hhandle : s'.handle = s.handle := congrArg Helm.handle hhelm
      have hold : s.handle = some k := hhandle ▸ hstored
      refine (ih k hold).of_same hs hreachable h hold hhandle (.inl (congrArg Helm.running hhelm))
        (.inl ⟨fun hfails => ?_, ?_⟩) hfire
      · obtain ⟨fault, hreading⟩ := hfails.2
        exact hreads fault hreading
      · rw [hcontains hhelm, Table.contains, Table.get?_insert]
        split
        · next he =>
          subst he
          rw [Table.contains, hloop]
          rfl
        · rfl
    | @breakOff id fault hreading hhelm =>
      have hhandle : s'.handle = s.handle := congrArg Helm.handle hhelm
      have hold : s.handle = some k := hhandle ▸ hstored
      refine (ih k hold).of_same hs hreachable h hold hhandle
        (.inl (congrArg Helm.running hhelm)) ?_ hfire
      rw [hcontains hhelm, Table.contains, Table.get?_erase]
      split
      · next he => exact .inr ⟨⟨by rw [he], fault, hreading⟩, rfl⟩
      · next hne =>
        refine .inl ⟨fun hfails => ?_, rfl⟩
        cases hfails.1
        exact hne rfl
    | @leave id loop hloop hended hhelm =>
      have hhandle : s'.handle = s.handle := congrArg Helm.handle hhelm
      have hold : s.handle = some k := hhandle ▸ hstored
      refine (ih k hold).of_same hs hreachable h hold hhandle (.inl (congrArg Helm.running hhelm))
        (.inl ⟨fun hfails => (by cases hfails.1), ?_⟩) hfire
      rw [hcontains hhelm, Table.contains, Table.get?_erase, if_neg]
      · rfl
      · -- The lifetime of the loop whose handle is stored is not over.
        rintro rfl
        rw [List.contains_eq_mem, decide_eq_true_eq, hreachable.mem_ended_iff] at hended
        rcases hreachable.isSteered.known id loop hloop with ⟨-, hcurrent⟩ | ⟨hnot, -⟩
        · exact absurd hended (hcurrent ▸ Nat.lt_irrefl _)
        · exact hnot hold
    | openLoop hcall hhelm hreturns =>
      have hnew : some s.nextId = some k := (congrArg Helm.handle hhelm).symm.trans hstored
      cases hnew
      exact .openLoop hstart hs hfire hcall hhelm hreturns
    | enterStop _ hhelm =>
      have hnone : none = some k := (congrArg Helm.handle hhelm).symm.trans hstored
      cases hnone
    | @drain call loop hcall hhelm =>
      have hhandle : s'.handle = s.handle := congrArg Helm.handle hhelm
      have hold : s.handle = some k := hhandle ▸ hstored
      exact (ih k hold).of_same hs hreachable h hold hhandle
        (.inr ⟨congrArg Helm.running hhelm, call, loop, hcall⟩)
        (.inl ⟨fun hfails => (by cases hfails.1), hcontains hhelm⟩) hfire

/-- No start and no stop is in progress. -/
def IsIdle (s : State H) : Prop := ∀ c call, s.calls.get? c = some call → call.isStartOrStop = false

theorem isIdle_of_all (h : s.calls.entries.all (fun e => !e.2.isStartOrStop) = true) :
    s.IsIdle := by
  intro c call hcall
  have hentry := List.all_eq_true.1 h _ (Table.mem_entries_iff.2 hcall)
  rwa [Bool.not_eq_true'] at hentry

/-- There are never two live loops whose lifetime is not over. While no start and no stop is in
progress the flag is set only if a loop handle is stored, and no loop but the one of the handle
lives. Then the flag is set exactly if a handle is stored, and a handle is stored exactly if one
loop lives, unless the loop of the handle was opened while a stop waited for the exit of the one
before it, or has broken off at a tick at which the clock could not be read. -/
theorem running_iff_handle_iff_loop {options : Options} {now : Instant}
    (hcreate : create? options now = some start) (hreplay : start.replay? events = some s) :
    (∀ k k' loop loop', s.loops.get? k = some loop → s.loops.get? k' = some loop' →
      s.ended.contains loop.lifetime = false → s.ended.contains loop'.lifetime = false → k = k') ∧
    (s.IsIdle →
      (s.running = true → s.handle.isSome = true) ∧
      (∀ k, s.loops.contains k = true → s.handle = some k) ∧
      ((s.running = true ↔ s.handle.isSome = true) ∧
          (s.handle.isSome = true ↔ ∃ k, s.loops.contains k = true ∧
            ∀ k', s.loops.contains k' = true → k' = k) ↔
        ∀ k, s.handle = some k → ¬ start.OpenedInStop events k ∧
          ¬ start.LoopBreaksOff events k)) := by
  have hstart : start.Reachable := .of_create? hcreate
  have hs : s.Reachable := hstart.replay? hreplay
  have hsteered := hs.isSteered
  -- A loop whose handle is not stored belongs to a lifetime that is over.
  have hstored : ∀ k loop, s.loops.get? k = some loop → s.ended.contains loop.lifetime = false →
      s.handle = some k := by
    intro k loop hloop hlive
    rcases hsteered.known k loop hloop with ⟨hstored, -⟩ | ⟨-, hended, -⟩
    · exact hstored
    · rw [List.contains_eq_mem, decide_eq_false_iff_not, hs.mem_ended_iff] at hlive
      exact absurd hended hlive
  refine ⟨fun k k' loop loop' hloop hloop' hlive hlive' => ?_, fun hidle => ?_⟩
  · have he := hstored k' loop' hloop' hlive'
    rw [hstored k loop hloop hlive, Option.some.injEq] at he
    exact he
  · have hnone : ∀ c k, s.calls.get? c ≠ some (.leaving k) := fun c k hleaving =>
      nomatch hidle c _ hleaving
    have hflag : s.running = true → s.handle.isSome = true := by
      intro hset
      refine Option.ne_none_iff_isSome.1 fun hvacant => ?_
      obtain ⟨c, k, hleaving⟩ := hsteered.cleared hvacant hset
      exact hnone c k hleaving
    have honly : ∀ k, s.loops.contains k = true → s.handle = some k := by
      intro k hlives
      obtain ⟨loop, hloop⟩ := Option.isSome_iff_exists.1 hlives
      rcases hsteered.known k loop hloop with ⟨hstored, -⟩ | ⟨-, -, c, hleaving⟩
      · exact hstored
      · exact absurd hleaving (hnone c k)
    have hwatches : ∀ k, s.handle = some k → start.Watches events s k := fun k =>
      watches_of_replay? hstart (eq_initial_of_create? hcreate ▸ rfl) hreplay
    refine ⟨hflag, honly, ⟨fun ⟨hrunning, hloops⟩ k hk => ⟨fun hopened => ?_, fun hbreaks => ?_⟩,
      fun hsound => ⟨⟨hflag, fun hsome => ?_⟩, ⟨fun hsome => ?_, fun ⟨k, hlives, _⟩ => ?_⟩⟩⟩⟩
    · rcases (hwatches k hk).cleared hopened with hcleared | ⟨c, loop, hleaving⟩
      · rw [hrunning.2 (by rw [hk]; rfl)] at hcleared
        cases hcleared
      · exact hnone c loop hleaving
    · obtain ⟨k', hlives, -⟩ := hloops.1 (by rw [hk]; rfl)
      have he := honly k' hlives
      rw [hk, Option.some.injEq] at he
      rw [← he, (hwatches k hk).gone hbreaks] at hlives
      cases hlives
    · obtain ⟨k, hk⟩ := Option.isSome_iff_exists.1 hsome
      exact (hwatches k hk).flag.resolve_right (hsound k hk).1
    · obtain ⟨k, hk⟩ := Option.isSome_iff_exists.1 hsome
      refine ⟨k, (hwatches k hk).alive.resolve_right (hsound k hk).2, fun k' hlives => ?_⟩
      have he := honly k' hlives
      rw [hk, Option.some.injEq] at he
      exact he.symm
    · rw [honly k hlives]
      rfl

/-- A scheduler is started, stopped and started again, one call after the other. -/
def startedAgain : List (Event Unit) :=
  [.request .start, .step (.proceed 0), .step (.proceed 0), .request .stop, .step (.proceed 2),
    .step (.leave 1), .step (.proceed 2), .step (.proceed 2), .request .start, .step (.proceed 3),
    .step (.proceed 3)]

theorem running_iff_handle_iff_loop_of_startedAgain :
    ∃ start s, create? Options.standard someMorning = some start ∧
      start.replay? startedAgain = some s ∧ s.IsIdle ∧ s.running = true ∧ s.handle = some 4 ∧
      (∃ k, s.loops.contains k = true ∧ ∀ k', s.loops.contains k' = true → k' = k) ∧
      ¬ start.OpenedInStop startedAgain 4 ∧ ¬ start.LoopBreaksOff startedAgain 4 := by
  have hcreate : create? Options.standard someMorning =
      some (initial Options.standard someMorning : State Unit) := rfl
  obtain ⟨s, hs⟩ : ∃ s, (initial Options.standard someMorning).replay? startedAgain = some s :=
    Option.isSome_iff_exists.1 (by decide)
  have hshown : ((initial Options.standard someMorning).replay? startedAgain).map
      (fun s => (s.running, s.handle, s.loops.contains 4)) = some (true, some 4, true) := by decide
  have hcalls : ((initial Options.standard someMorning).replay? startedAgain).all
      (fun s => s.calls.entries.all (fun e => !e.2.isStartOrStop)) = true := by decide
  rw [hs, Option.map_some, Option.some.injEq, Prod.mk.injEq, Prod.mk.injEq] at hshown
  rw [hs, Option.all_some] at hcalls
  obtain ⟨hrunning, hhandle, hlives⟩ := hshown
  have hidle : s.IsIdle := isIdle_of_all hcalls
  obtain ⟨-, hrest⟩ := running_iff_handle_iff_loop hcreate hs
  obtain ⟨-, honly, hiff⟩ := hrest hidle
  have hsome : s.handle.isSome = true := by
    rw [hhandle]
    rfl
  have hone : ∃ k, s.loops.contains k = true ∧ ∀ k', s.loops.contains k' = true → k' = k := by
    refine ⟨4, hlives, fun k' hlives' => ?_⟩
    have he := honly k' hlives'
    rw [hhandle, Option.some.injEq] at he
    exact he.symm
  exact ⟨_, s, hcreate, hs, hidle, hrunning, hhandle, hone,
    hiff.1 ⟨iff_of_true hrunning hsome, iff_of_true hsome hone⟩ 4 hhandle⟩

/-- A start waits for the lock while a stop takes the handle, and opens its loop while the stop
waits for the exit of the one before it. -/
def startedInStop : List (Event Unit) :=
  [.request .start, .request .stop, .request .start, .step (.proceed 0), .step (.proceed 0),
    .step (.proceed 1), .step (.proceed 2), .step (.proceed 2), .step (.leave 3),
      .step (.proceed 1),
    .step (.proceed 1)]

/-- When all the calls have returned a handle is stored and its loop ticks, but the flag is not
set. -/
theorem not_forall_running_iff_handle :
    ¬ ∀ s : State Unit, s.Reachable → s.IsIdle → (s.running = true ↔ s.handle.isSome = true) := by
  intro hall
  obtain ⟨s, hs⟩ : ∃ s, (initial Options.standard someMorning).replay? startedInStop = some s :=
    Option.isSome_iff_exists.1 (by decide)
  have hshown : ((initial Options.standard someMorning).replay? startedInStop).map
      (fun s => (s.running, s.handle)) = some (false, some 4) := by decide
  have hcalls : ((initial Options.standard someMorning).replay? startedInStop).all
      (fun s => s.calls.entries.all (fun e => !e.2.isStartOrStop)) = true := by decide
  rw [hs, Option.map_some, Option.some.injEq, Prod.mk.injEq] at hshown
  rw [hs, Option.all_some] at hcalls
  have hreachable : s.Reachable := ⟨Options.standard, someMorning, _, startedInStop, rfl, hs⟩
  have hrunning := (hall s hreachable (isIdle_of_all hcalls)).2 (by rw [hshown.2]; rfl)
  rw [hshown.1] at hrunning
  cases hrunning

end State

end CronDaemon.Scheduler
