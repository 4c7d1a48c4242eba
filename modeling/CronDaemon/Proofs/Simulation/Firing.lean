import CronDaemon.Proofs.Scheduler.FirstLooks
import CronDaemon.Simulation.Session

/-!
# Sessions fire events

A simulated scheduler gets from one state to the next by events of the scheduler and in no other
way: a turn takes steps, a move of the clock lets time pass, and a command makes its request before
anything else happens. So whatever a session tells after its commands, it tells of a state that the
scheduler can get into by the requests of these commands, in their order.

The turn of a call lasts until none of its runs can go on, so that a start has looked at all its
catch-up runs before anybody else has a turn.
-/

namespace CronDaemon

namespace Scheduler

variable {H : Type}

/-- The request of an event. -/
def Event.request? : Event H → Option (Request H)
  | .request asked => some asked
  | .step _ | .hangUp _ | .elapse _ => none

namespace State

variable {s s' s'' : State H} {requests requests' : List (Request H)}

/-- A scheduler gets from one state to another by events that make these requests, in their order.
No caller hangs up, and everybody looks at runs in turn. -/
inductive Fires (s : State H) : List (Request H) → State H → Prop
  | refl : Fires s [] s
  | snoc {requests : List (Request H)} {event : Event H} {s' s'' : State H}
      (h : Fires s requests s') (hfire : s'.fire? event = some s'')
      (hwaits : ∀ call, event ≠ .hangUp call) (hturn : s'.LooksInTurn event) :
      Fires s (requests ++ event.request?.toList) s''

/-- What leads from one state to the next and on from there makes the requests of both ways. -/
theorem Fires.trans (h : s.Fires requests s') (h' : s'.Fires requests' s'') :
    s.Fires (requests ++ requests') s'' := by
  induction h' with
  | refl => rwa [List.append_nil]
  | snoc _ hfire hwaits hturn ih =>
    rw [← List.append_assoc]
    exact ih.snoc hfire hwaits hturn

/-- Whatever is fired is the course of a history. -/
theorem Fires.exists_events (h : s.Fires requests s') :
    ∃ events, s.replay? events = some s' ∧ events.filterMap Event.request? = requests ∧
      (∀ call, .hangUp call ∉ events) ∧
      ∀ event t t' after, s.Occurs events event t t' after → t.LooksInTurn event := by
  induction h with
  | refl =>
    exact ⟨[], rfl, rfl, fun _ => List.not_mem_nil,
      fun _ _ _ _ hoccurs => absurd hoccurs not_occurs_nil⟩
  | @snoc requests event s' s'' _ hfire hwaits hturn ih =>
    obtain ⟨events, hreplay, rfl, hnone, hlooks⟩ := ih
    refine ⟨events ++ [event], replay?_append_iff.2 ⟨s', hreplay, replay?_singleton_iff.2 hfire⟩,
      ?_, fun call hmem => ?_, fun event' t t' after hoccurs => ?_⟩
    · rw [List.filterMap_append]
      cases hrequest : event.request? <;> simp [hrequest]
    · rcases List.mem_append.1 hmem with hmem | hmem
      · exact hnone call hmem
      · exact hwaits call (List.mem_singleton.1 hmem).symm
    · rcases hoccurs.snoc_cases hreplay hfire with ⟨rest, hearlier⟩ | ⟨rfl, rfl, -⟩
      · exact hlooks event' t t' rest hearlier
      · exact hturn

/-- Whatever is fired leads from reachable states to reachable ones. -/
theorem Fires.reachable (h : s.Fires requests s') (hs : s.Reachable) : s'.Reachable := by
  obtain ⟨events, hreplay, -⟩ := h.exists_events
  exact hs.replay? hreplay

/-- The steps of a turn are fired, if nobody but the call whose turn it is has still to look at
runs. -/
theorem Drives.fires {turn : Option Nat} (h : s.Drives turn s') (hs : s.Reachable)
    (hlooked : ∀ c k, turn ≠ some c → ¬ s.IsPending c k) : s.Fires [] s' := by
  induction h with
  | refl => exact .refl
  | @tail t t' hbefore hlast ih =>
    obtain ⟨step, hstep, hallows⟩ := hlast
    have hfire : t.fire? (.step step) = some t' := hstep
    refine ih.snoc hfire (by simp) fun c j k run hpending he hrun => ?_
    cases he
    refine hallows.own c k run (Classical.not_not.1 fun hother => ?_) rfl hrun
    exact hlooked c j hother (Drives.isPending_of hbefore hs hpending)

/-- Where all starts have looked at their runs, a scheduler gets from one state to another by events
that make these requests, and all starts have looked at their runs then. -/
def Leads (s : State H) (requests : List (Request H)) (s' : State H) : Prop :=
  s.Reachable → s.HasLooked → s'.HasLooked ∧ s.Fires requests s'

theorem Leads.refl (s : State H) : s.Leads [] s := fun _ hlooked => ⟨hlooked, .refl⟩

/-- Requests that lead on from where others have led follow them in one history. -/
theorem Leads.trans (h : s.Leads requests s') (h' : s'.Leads requests' s'') :
    s.Leads (requests ++ requests') s'' := by
  intro hs hlooked
  obtain ⟨hlooked', hfires⟩ := h hs hlooked
  obtain ⟨hlooked'', hfires'⟩ := h' (hfires.reachable hs) hlooked'
  exact ⟨hlooked'', hfires.trans hfires'⟩

/-- What happens without a request does not count after one. -/
theorem Leads.andThen (h : s.Leads requests s') (h' : s'.Leads [] s'') : s.Leads requests s'' := by
  simpa using h.trans h'

/-- The turn of somebody who is no call. -/
theorem Drives.leads (h : s.Drives none s') : s.Leads [] s' := by
  intro hs hlooked
  exact ⟨fun c k hpending => hlooked c k (h.isPending_of hs hpending),
    h.fires hs fun c k _ => hlooked c k⟩

/-- An event that is no step and no hang-up. -/
theorem leads_of_fire? {event : Event H} (hfire : s.fire? event = some s')
    (hwaits : ∀ call, event ≠ .hangUp call) (hstep : ∀ step, event ≠ .step step) :
    s.Leads event.request?.toList s' := by
  intro hs hlooked
  refine ⟨fun c k hpending => hlooked c k ?_, Fires.refl.snoc hfire hwaits ?_⟩
  · exact (transition_of_fire? hfire).isPending_of hs (hstep _) hpending
  · exact fun c j _ _ hpending => absurd hpending (hlooked c j)

/-- Time passes without a request. -/
theorem leads_elapse (s : State H) (time : Moment) : s.Leads [] (s.elapse time) := by
  have hfire : s.fire? (.elapse time) = some (s.elapse time) := rfl
  exact leads_of_fire? hfire (by simp) (by simp)

/-- A request that is served is made. -/
theorem Leads.of_serve {request : Request H} (h : s.serve request = .ok s') :
    s.Leads [request] s' := by
  have hfire : s.fire? (.request request) = some s' := by rw [fire?, h]
  exact leads_of_fire? hfire (by simp) (by simp)

/-- A refused request changes nothing. -/
theorem Leads.of_refused {request : Request H} {e : Job.SchedulerError}
    (h : s.serve request = .error e) : s.Leads [request] s := by
  have hfire : s.fire? (.request request) = some s := by rw [fire?, h]
  exact leads_of_fire? hfire (by simp) (by simp)

end State

end Scheduler

namespace Simulation

open Job Scheduler

namespace World

variable {turn : Option Nat}

/-- A step that is not possible is not taken. -/
theorem drives_step (w : World) {step : Step} (h : w.scheduler.Allows turn step) :
    w.scheduler.Drives turn (w.step step).scheduler := by
  unfold World.step
  split
  · next s hstep => exact .single ⟨step, hstep, h⟩
  · exact .refl

/-- What a handler sees as it is entered changes nothing about the scheduler. -/
theorem scheduler_enter (w : World) (id : Nat) (run : Run) (record : Record Handler) (token : Token)
    (deadline : Moment) (attempt : Nat) (behaviours : List Behaviour) :
    (w.enter id run record token deadline attempt behaviours).scheduler = w.scheduler := rfl

/-- A handler that returns ends an attempt. -/
theorem drives_exit (w : World) (id : Nat) (task : String) (scene : Scene) (token : Token)
    (deadline : Moment) (ending : Ending) :
    w.scheduler.Drives turn (w.exit id task scene token deadline ending).scheduler :=
  drives_step { w.note task (.finish scene.call (w.scheduler.isCancelled token)
    (deadline ≤ w.scheduler.clock)) with scenes := w.scenes.erase id } (.of_ne (by simp) (by simp))

/-- A run that executes takes a step, or its handler plays on. -/
theorem drives_execute (w : World) (id : Nat) (run : Run) (record : Record Handler) (token : Token)
    (deadline : Moment) (attempt : Nat) :
    w.scheduler.Drives turn (w.execute id run record token deadline attempt).scheduler := by
  unfold execute
  split
  · exact w.drives_step (.of_ne (by simp) (by simp))
  · exact w.drives_step (.of_ne (by simp) (by simp))
  · split
    · rw [scheduler_enter]
      exact .refl
    · split
      · exact .refl
      · exact .refl
      · exact w.drives_exit ..

/-- What a run does next is a step, or nothing to the scheduler. -/
theorem drives_advanceRun (w : World) {id : Nat} (run : Run) (hown : w.scheduler.IsOwn turn id) :
    w.scheduler.Drives turn (w.advanceRun id run).scheduler := by
  unfold advanceRun
  split
  · refine w.drives_step ⟨by simp, fun c k other hturn he hother => ?_⟩
    cases he
    exact (hown c hturn).2 other hother
  · exact w.drives_step (.of_ne (by simp) (by simp))
  · split
    · exact .refl
    · exact w.drives_execute ..
  · split
    · exact w.drives_step (.of_ne (by simp) (by simp))
    · exact w.drives_step (.of_ne (by simp) (by simp))
  · exact .refl

/-- The turn of a run takes steps. -/
theorem drives_turnRun (id fuel : Nat) (w : World) (hown : w.scheduler.IsOwn turn id) :
    w.scheduler.Drives turn (turnRun id fuel w).scheduler := by
  induction fuel generalizing w with
  | zero => exact .refl
  | succ fuel ih =>
    unfold turnRun
    split
    · exact .refl
    · next run hrun =>
      split
      · have hfirst := w.drives_advanceRun run hown
        exact hfirst.trans (ih _ (hfirst.isOwn hown))
      · exact .refl

/-- After its turn a run has been looked at. -/
theorem not_isPending_turnRun {c id fuel : Nat} (hfuel : 0 < fuel) {w : World}
    (hs : w.scheduler.Reachable) (hown : w.scheduler.IsOwn turn id) :
    ¬ (turnRun id fuel w).scheduler.IsPending c id := by
  obtain ⟨fuel, rfl⟩ := Nat.exists_eq_succ_of_ne_zero (Nat.ne_of_gt hfuel)
  intro hpending
  obtain ⟨-, run, hrun, -, hspawned⟩ :=
    (drives_turnRun id (fuel + 1) w hown).isPending_of hs hpending
  -- The run waits for its first look, which is the first step of its turn.
  obtain ⟨s, hstep⟩ : ∃ s, w.scheduler.step? (.begin id) = some s :=
    ⟨w.scheduler.begin id run, by simp [State.step?, State.begin?, hrun, hspawned]⟩
  have hturn : turnRun id (fuel + 1) w = turnRun id fuel { w with scheduler := s } := by
    simp only [turnRun, hrun, canRun, advanceRun, hspawned, World.step, hstep, if_true]
  have hlooked : w.scheduler.Drives turn s := by
    have hfirst := w.drives_advanceRun run hown
    simpa only [advanceRun, hspawned, World.step, hstep] using hfirst
  rw [hturn] at hpending
  have hrest := drives_turnRun id fuel { w with scheduler := s } (hlooked.isOwn hown)
  exact hs.not_isPending_of_begin hstep (hrest.isPending_of (hs.step? hstep) hpending)

/-- The turns of some runs take steps. -/
theorem drives_turnRuns {ids : List Nat} {w : World}
    (hown : ∀ id ∈ ids, w.scheduler.IsOwn turn id) :
    w.scheduler.Drives turn (ids.foldl (fun w id => w.turnRun id turnLimit) w).scheduler := by
  induction ids generalizing w with
  | nil => exact .refl
  | cons id ids ih =>
    have hfirst := drives_turnRun id turnLimit w (hown id List.mem_cons_self)
    refine hfirst.trans (ih fun other hmem => ?_)
    exact hfirst.isOwn (hown other (List.mem_cons_of_mem _ hmem))

/-- After the turns of some runs none of these is to be looked at. -/
theorem not_isPending_turnRuns {c k : Nat} {ids : List Nat} {w : World}
    (hs : w.scheduler.Reachable) (hown : ∀ id ∈ ids, w.scheduler.IsOwn turn id) (hmem : k ∈ ids) :
    ¬ (ids.foldl (fun w id => w.turnRun id turnLimit) w).scheduler.IsPending c k := by
  induction ids generalizing w with
  | nil => cases hmem
  | cons id ids ih =>
    have hfirst := drives_turnRun id turnLimit w (hown id List.mem_cons_self)
    have hrest : ∀ other ∈ ids, (turnRun id turnLimit w).scheduler.IsOwn turn other :=
      fun other hmem => hfirst.isOwn (hown other (List.mem_cons_of_mem _ hmem))
    have hs' := hfirst.reachable hs
    rcases List.mem_cons.1 hmem with rfl | hmem
    · intro hpending
      exact not_isPending_turnRun (Nat.succ_pos _) hs (hown k List.mem_cons_self)
        ((drives_turnRuns hrest).isPending_of hs' hpending)
    · exact ih hs' hrest hmem

/-- The runs of a call are its own. -/
theorem isOwn_of_mem_runsOf {s : State Handler} (hs : s.Reachable) {c k : Nat}
    (hmem : k ∈ runsOf s c) : s.IsOwn (some c) k := by
  rintro _ ⟨⟩
  obtain ⟨⟨_, run⟩, hentry, rfl⟩ := List.mem_map.1 hmem
  obtain ⟨hentry, howner⟩ := List.mem_filter.1 hentry
  have hrun := Table.mem_entries_iff.1 hentry
  refine ⟨hs.run_lt hrun, fun run' hrun' => ?_⟩
  rw [hrun] at hrun'
  cases hrun'
  exact of_decide_eq_true howner

/-- What a start has still to look at is among its runs. -/
theorem mem_runsOf_of_isPending {s : State Handler} {c k : Nat} (h : s.IsPending c k) :
    k ∈ runsOf s c := by
  obtain ⟨run, hrun, howner, -⟩ := h.spawned
  exact List.mem_map.2 ⟨(k, run), List.mem_filter.2
    ⟨Table.mem_entries_iff.2 hrun, decide_eq_true howner⟩, rfl⟩

/-- The turn of a call takes steps of its runs and of its own. It ends when all its runs have been
looked at, unless it is too short for that. -/
theorem fires_turnCall (c fuel : Nat) {w : World} (hs : w.scheduler.Reachable)
    (hlooked : ∀ other k, other ≠ c → ¬ w.scheduler.IsPending other k) :
    w.scheduler.Fires [] (turnCall c fuel w).scheduler ∧
      (∀ other k, other ≠ c → ¬ (turnCall c fuel w).scheduler.IsPending other k) ∧
      (2 ≤ fuel ∨ w.scheduler.HasBegun c ∧ (1 ≤ fuel ∨ ∀ k, ¬ w.scheduler.IsPending c k) →
        ∀ k, ¬ (turnCall c fuel w).scheduler.IsPending c k) := by
  induction fuel generalizing w with
  | zero =>
    refine ⟨.refl, hlooked, ?_⟩
    rintro (hlong | ⟨-, hlong | hnone⟩)
    · exact absurd hlong (by simp)
    · exact absurd hlong (by simp)
    · exact hnone
  | succ fuel ih =>
    have hown : ∀ id ∈ runsOf w.scheduler c, w.scheduler.IsOwn (some c) id :=
      fun _ => isOwn_of_mem_runsOf hs
    have hdrives := drives_turnRuns hown
    have hfires := hdrives.fires hs fun other k hne => hlooked other k fun he => hne (he ▸ rfl)
    unfold turnCall
    dsimp only
    generalize hmid : (runsOf w.scheduler c).foldl (fun w run => w.turnRun run turnLimit) w = mid
    rw [hmid] at hdrives hfires
    have hreachable := hdrives.reachable hs
    have hothers : ∀ other k, other ≠ c → ¬ mid.scheduler.IsPending other k :=
      fun other k hne hpending => hlooked other k hne (hdrives.isPending_of hs hpending)
    have hdone : ∀ k, ¬ mid.scheduler.IsPending c k := fun k hpending =>
      not_isPending_turnRuns hs hown
        (mem_runsOf_of_isPending (hdrives.isPending_of hs hpending)) (hmid ▸ hpending)
    split
    · next hcan =>
      obtain ⟨s, hstep⟩ : ∃ s, mid.scheduler.step? (.proceed c) = some s :=
        Option.isSome_iff_exists.1 ((mid.scheduler.isSome_proceed? c).trans hcan)
      have hfire : mid.scheduler.fire? (.step (.proceed c)) = some s := hstep
      have htransition := State.transition_of_step? hstep
      have hworld : mid.step (.proceed c) = { mid with scheduler := s } := by
        simp only [World.step, hstep]
      rw [hworld]
      obtain ⟨hrest, hothers', hlast⟩ := ih (w := { mid with scheduler := s })
        (hreachable.step? hstep) fun other k hne hpending => hothers other k hne
          (htransition.isPending_of hreachable (by simpa using hne.symm) hpending)
      have hproceeds : mid.scheduler.Fires [] s :=
        State.Fires.refl.snoc hfire (by simp) fun _ _ _ _ _ he => by cases he
      refine ⟨hfires.trans (hproceeds.trans hrest), hothers', fun hlong => hlast (.inr ?_)⟩
      refine ⟨htransition.hasBegun_of_proceed, ?_⟩
      rcases Nat.eq_zero_or_pos fuel with rfl | hpos
      · -- The call goes on in the last round, and it does not make its pass there.
        refine .inr fun k hpending => ?_
        obtain ⟨hbegun, -⟩ := hlong.resolve_left (by simp)
        obtain ⟨call, hcall, hne⟩ := hdrives.hasBegun hs hbegun
        rw [(htransition.takesLock_of_catchingUp hpending.waits).1, Option.some.injEq] at hcall
        exact hne hcall.symm
      · exact .inl hpos
    · exact ⟨hfires, hothers, fun _ => hdone⟩

/-- After the turn of a call all starts have looked at their runs. -/
theorem leads_turnCall (c : Nat) (w : World) :
    w.scheduler.Leads [] (turnCall c turnLimit w).scheduler := by
  intro hs hlooked
  obtain ⟨hfires, hothers, hown⟩ :=
    fires_turnCall c turnLimit hs fun other k _ => hlooked other k
  refine ⟨fun other k => ?_, hfires⟩
  by_cases he : other = c
  · subst he
    exact hown (.inl (by decide)) k
  · exact hothers other k he

/-- The turn of a loop is a step. -/
theorem leads_turnLoop (w : World) (id : Nat) : w.scheduler.Leads [] (w.turnLoop id).scheduler := by
  unfold turnLoop
  split
  · exact .refl _
  · split
    · exact (w.drives_step (.of_ne (by simp) (by simp))).leads
    · exact (w.drives_step (.of_ne (by simp) (by simp))).leads

/-- The turn of a fiber takes steps of the scheduler and does nothing else to it. -/
theorem leads_turn (w : World) (fiber : Fiber) : w.scheduler.Leads [] (w.turn fiber).scheduler := by
  cases fiber with
  | run id => exact (drives_turnRun id turnLimit w (State.isOwn_none _ id)).leads
  | watchdog id => exact (w.drives_step (.of_ne (by simp) (by simp))).leads
  | loop id => exact w.leads_turnLoop id
  | call id => exact leads_turnCall id w

/-- What can happen at one instant happens by turns. -/
theorem leads_settleFor (fuel : Nat) (w : World) :
    w.scheduler.Leads [] (settleFor fuel w).scheduler := by
  induction fuel generalizing w with
  | zero => exact .refl _
  | succ fuel ih =>
    unfold settleFor
    dsimp only
    split
    · exact .refl _
    · next fiber rest _ =>
      -- Timers and queues are no part of the scheduler.
      exact (leads_turn { w.setTimers.wake with ready := rest } fiber).andThen (ih _)

/-- All that can happen at one instant is fired. -/
theorem leads_settle (w : World) : w.scheduler.Leads [] w.settle.scheduler :=
  leads_settleFor turnLimit w

/-- As the clock moves, time passes. -/
theorem leads_moveTo (w : World) (moment : Moment) :
    w.scheduler.Leads [] (w.moveTo moment).scheduler :=
  State.leads_elapse w.scheduler _

/-- As the clock moves on, steps are taken and time passes. -/
theorem leads_runFor (done : World → Bool) (limit : Moment) (fuel : Nat) (w : World) :
    w.scheduler.Leads [] (runFor done limit fuel w).scheduler := by
  induction fuel generalizing w with
  | zero => exact .refl _
  | succ fuel ih =>
    unfold runFor
    dsimp only
    split
    · exact w.leads_settle
    · exact (w.leads_settle.andThen (leads_moveTo _ _)).andThen (ih _)

/-- So it is until a limit. -/
theorem leads_runUntil (w : World) (done : World → Bool) (limit : Moment) :
    w.scheduler.Leads [] (w.runUntil done limit).scheduler :=
  leads_runFor done limit (limit - w.scheduler.clock + 1) w

/-- A request is made before anything else happens. -/
theorem leads_serve (w : World) (request : Request Handler) :
    w.scheduler.Leads [request] (w.serve request).1.scheduler := by
  unfold World.serve
  split
  · next s hserve =>
    exact (State.Leads.of_serve hserve).andThen (leads_settle { w with scheduler := s })
  · next e hserve => exact .of_refused hserve

/-- To wait for a call until a limit lets happen what can. -/
theorem leads_awaitUntil (w : World) (demand : Demand) (call : Nat) (limit : Moment) :
    w.scheduler.Leads [] (w.awaitUntil demand call limit).1.scheduler := by
  have hruns := w.leads_runUntil (fun w => (w.reply? call).isSome) limit
  unfold awaitUntil
  dsimp only
  split
  · exact hruns
  · exact hruns

/-- To wait for a call makes no request. -/
theorem leads_await (w : World) (demand : Demand) (call : Nat) :
    w.scheduler.Leads [] (w.await demand call).1.scheduler :=
  w.leads_awaitUntil demand call _

end World

/-- The request that a command makes, if it makes one. -/
def Command.request? : Command → Option (Request Handler)
  | .request asked => some asked
  | .await demand | .background _ demand => some demand.request
  | .look _ | .join _ | .advance _ => none

/-- What is told after a command is what the state shows. -/
structure Observation.Shows (observation : Observation) (s : State Handler) : Prop where
  clock : observation.clock = s.clock
  running : observation.running = s.running
  tasks : observation.tasks = s.list

namespace Session

/-- What is answered leaves the world. -/
theorem world_answering (session : Session) (result : World × Answer) :
    (session.answering result).1.world = result.1 := rfl

/-- A command leads from one state of the scheduler to another by events that make its request. -/
theorem leads_perform (session : Session) (command : Command) :
    session.world.scheduler.Leads command.request?.toList
      (session.perform command).1.world.scheduler := by
  -- Rewriting keeps the wait for a demand folded, whose limit is not to be computed.
  cases command with
  | request request =>
    rw [perform, world_answering]
    exact session.world.leads_serve request
  | look query => exact .refl _
  | await demand =>
    have hserve := session.world.leads_serve demand.request
    rw [perform, world_answering]
    exact hserve.andThen (World.leads_await _ _ _)
  | background key demand => exact session.world.leads_serve demand.request
  | join key =>
    rw [perform]
    split
    · exact .refl _
    · rw [world_answering]
      exact session.world.leads_await _ _
  | advance time =>
    rw [perform, world_answering]
    exact session.world.leads_runUntil _ _

/-- What is told after a command is shown by the state to which it leads. -/
theorem shows_observe (session : Session) (command : Command) :
    (session.observe command).2.Shows (session.observe command).1.world.scheduler := ⟨rfl, rfl, rfl⟩

/-- What a session tells after a command is shown by a state to which the scheduler gets by the
requests of the commands so far. -/
theorem exists_leads_of_run {session : Session} {commands : List Command} {i : Nat}
    {observation : Observation} (h : (session.run commands)[i]? = some observation) :
    ∃ s, session.world.scheduler.Leads ((commands.take (i + 1)).filterMap Command.request?) s ∧
      observation.Shows s := by
  induction commands generalizing session i with
  | nil => cases h
  | cons command commands ih =>
    have hfirst := session.leads_perform command
    have hfilter : ((command :: commands).take (i + 1)).filterMap Command.request? =
        command.request?.toList ++ (commands.take i).filterMap Command.request? := by
      rw [List.take_succ_cons, List.filterMap_cons]
      cases command.request? <;> rfl
    rw [hfilter]
    cases i with
    | zero =>
      cases h
      refine ⟨_, ?_, session.shows_observe command⟩
      rw [List.take_zero, List.filterMap_nil, List.append_nil]
      exact hfirst
    | succ i =>
      have hlater : ((session.observe command).1.run commands)[i]? = some observation := h
      obtain ⟨s, hrest, hshows⟩ := ih hlater
      exact ⟨s, hfirst.trans hrest, hshows⟩

/-- A session with a scheduler in which nothing has happened yet tells of states that the scheduler
can get into by the requests of the commands so far, so that what is proved of all histories holds
of what it tells. In these histories no caller hangs up, and every start looks at its runs first. -/
theorem exists_history_of_run {options : Options} {now : Instant} {start : State Handler}
    (hcreate : State.create? options now = some start) {commands : List Command} {i : Nat}
    {observation : Observation} (h : ((ofScheduler start).run commands)[i]? = some observation) :
    ∃ events s, start.replay? events = some s ∧
      events.filterMap Event.request? = (commands.take (i + 1)).filterMap Command.request? ∧
      observation.Shows s ∧ (∀ call, .hangUp call ∉ events) ∧
      ∀ c during t t' u u', start.Starts events c during t t' u u' → t'.LooksFirst c during := by
  obtain ⟨s, hleads, hshows⟩ := exists_leads_of_run h
  have hlooked : start.HasLooked := by
    rintro c k ⟨hwaits, -⟩
    rw [State.eq_initial_of_create? hcreate] at hwaits
    cases hwaits
  obtain ⟨-, hfires⟩ := hleads (.of_create? hcreate) hlooked
  obtain ⟨events, hreplay, hrequests, hwaits, hturn⟩ := hfires.exists_events
  exact ⟨events, s, hreplay, hrequests, hshows, hwaits,
    fun c during t t' u u' hstarts => hstarts.looksFirst hturn⟩

/-- So a start that has returned in a session has caught up once on each task that was overdue and
at rest and may not be skipped. -/
theorem caughtUpOn_of_run {options : Options} {now : Instant} {start : State Handler}
    (hcreate : State.create? options now = some start) {commands : List Command} {i : Nat}
    {observation : Observation} (h : ((ofScheduler start).run commands)[i]? = some observation) :
    ∃ events s, start.replay? events = some s ∧
      events.filterMap Event.request? = (commands.take (i + 1)).filterMap Command.request? ∧
      observation.Shows s ∧ ∀ c, s.calls.get? c = some (.returned .started) →
        ∃ during t t' u u' now new, start.Starts events c during t t' u u' ∧
          t.reading = .ok now ∧ u.journal = new ++ t.journal ∧
          ∀ number record, (number, record) ∈ t.tasks →
            record.IsOverdue now t.options.catchUpWindow → record.skippable = false →
              record.status ≠ .running →
              ∃ id, caughtUpOn new number = [id] ∧ u.timesRecorded number id = 1 := by
  obtain ⟨events, s, hreplay, hrequests, hshows, -, hlooks⟩ := exists_history_of_run hcreate h
  refine ⟨events, s, hreplay, hrequests, hshows, fun c hreturns => ?_⟩
  have hnone : ∀ call, start.calls.get? c ≠ some call := by
    intro call hcall
    rw [State.eq_initial_of_create? hcreate] at hcall
    cases hcall
  obtain ⟨during, t, t', u, u', hstarts⟩ :=
    State.exists_starts (.of_create? hcreate) hnone hreplay hreturns
  have hcatchesUp := hstarts.catchesUp
  obtain ⟨now, hpass⟩ := hcatchesUp.makesPass
  obtain ⟨hidle, -⟩ := hstarts.openLoop_eq
  obtain ⟨new, hnew⟩ := hcatchesUp.journal_suffix
  refine ⟨during, t, t', u, u', now, new, hstarts, hpass.reading, hnew.symm,
    fun number record hmem hoverdue hrequired hrest => ?_⟩
  exact hcatchesUp.caughtUpOn_of_looksFirst hidle hpass hnew.symm
    ⟨record, hmem, hoverdue, hrequired⟩ (hlooks c during t t' u u' hstarts)
    (State.mem_tasks_iff.1 hmem).2 hrest

end Session

end Simulation

end CronDaemon
