import CronDaemon.Proofs.Scheduler.Grades
import CronDaemon.Proofs.Scheduler.Independence
import CronDaemon.Proofs.Scheduler.ReferenceTimes

/-!
# The order of the tasks

The registry lists the tasks in some order, and ticks, refreshes and catch-up passes go by it.
Without a worker pool none of it can be seen, as long as nothing makes a run or a start break off:
tasks that are registered at one moment may be registered in another order, the registry may be
listed anew at any time, and runs of different tasks may take their steps in another order, and each
task is in the same state with the same calls of its handler, and each request has the same answer.

A start that breaks off is the exception: it has computed the next runs of the tasks that are listed
before the one whose next run it cannot compute, and not those of the tasks behind it.
-/

namespace CronDaemon

open Job

namespace Scheduler

/-- A call that has returned is the same under other numbers, and no other one becomes it. -/
theorem Call.renamed_eq_returned_iff {ρ : Equiv.Perm Nat} {call : Call} {reply : Reply} :
    call.renamed ρ = .returned reply ↔ call = .returned reply := by
  cases call <;> simp [Call.renamed]

namespace State

variable {H : Type} {s s' t t' u u' : State H} {cue : Cue H} {cues cues' : List (Cue H)}
  {log log' : Answers}

/-! ### Views that do not depend on the order -/

/-- What can be seen of the tasks, the scheduler and its calls is the same in both states, apart
from the order in which tasks are listed. -/
structure ShowsSame (s s' : State H) : Prop where
  tasks : ∀ id, s'.get? id = s.get? id
  attempts : ∀ id, s'.attemptsOf (some id) = s.attemptsOf (some id)
  ids : s'.taskIds.Perm s.taskIds
  list : s'.list.Perm s.list
  running : s'.status.running = s.status.running
  timezone : s'.status.timezone = s.status.timezone
  health : s'.status.health = s.status.health
  replies : ∀ c reply, s'.calls.get? c = some (.returned reply) ↔
    s.calls.get? c = some (.returned reply)

theorem Mirrors.perm_list {ρ : Equiv.Perm Nat} (h : Mirrors ρ s s') : s'.list.Perm s.list := by
  have hlist := h.perm_tasks.map fun e => e.2.snapshot
  rw [List.map_map] at hlist
  exact hlist

theorem Mirrors.perm_taskIds {ρ : Equiv.Perm Nat} (h : Mirrors ρ s s') :
    s'.taskIds.Perm s.taskIds := by
  have hids := h.registry.perm_entries.map (·.1)
  rw [List.map_map] at hids
  exact hids

theorem Resembles.showsSame (h : s.Resembles s') : s.ShowsSame s' := by
  obtain ⟨ρ, h⟩ := h
  refine ⟨fun id => ?_, fun id => h.attempts (some id), h.perm_taskIds, h.perm_list,
    h.same State.running, h.same fun b => b.options.zone.name, ?_, fun c reply => ?_⟩
  · rw [get?, get?, h.task? id, Option.map_map]
    rfl
  · exact Health.overall_perm (h.perm_list.map (·.health))
  · rw [show s'.calls.get? c = (s.calls.get? c).map (Call.renamed ρ) from h.calls c,
      Option.map_eq_some_iff]
    simp only [Call.renamed_eq_returned_iff, exists_eq_right]

theorem Resembles.isUntroubled (h : s.Resembles s') (hcalm : s.IsUntroubled) : s'.IsUntroubled := by
  obtain ⟨ρ, h⟩ := h
  exact h.isUntroubled hcalm

/-- The same is possible in states that resemble each other. -/
theorem Resembles.isSome_obey? (h : s.Resembles s') (hs : s.Reachable) (hcalm : s.IsUntroubled)
    (hpool : s.pool = none) (cue : Cue H) : (s'.obey? cue).isSome = (s.obey? cue).isSome := by
  have hrel := h.obey? hs hcalm hpool cue
  generalize s.obey? cue = made at hrel
  generalize s'.obey? cue = made' at hrel
  cases hrel <;> rfl

/-- Where nothing more can happen at an instant, nothing can in a state that resembles it. -/
theorem Resembles.isSettled (h : s.Resembles s') (hs : s.Reachable) (hcalm : s.IsUntroubled)
    (hpool : s.pool = none) (hsettled : s.IsSettled) : s'.IsSettled := by
  have hcue : ∀ step cue, s.event? cue = some (.step step) → s'.event? cue = some (.step step) →
      (∀ id ending, step ≠ .endAttempt id ending) → s'.step? step = none := by
    intro step cue hevent hevent' hnot
    have hsame := h.isSome_obey? hs hcalm hpool cue
    rw [State.obey?, State.obey?, hevent, hevent', Option.bind_some, Option.bind_some] at hsame
    change (s'.step? step).isSome = (s.step? step).isSome at hsame
    rw [hsettled step hnot] at hsame
    exact Option.isNone_iff_eq_none.1 (Option.isSome_eq_false_iff.1 hsame)
  obtain ⟨ρ, h⟩ := h
  have hrun : ∀ (step : RunStep) (id : Nat), (∀ ending, step ≠ .endAttempt ending) →
      s'.step? (step.on id) = none := by
    intro step id hnot
    obtain ⟨k, rfl⟩ := ρ.surjective id
    cases hk : s.runs.get? k with
    | none =>
      have hk' : s'.runs.get? (ρ k) = none := by rw [h.runs k, hk, Option.map_none]
      cases step <;> simp only [RunStep.on, step?, hk', Option.bind_none]
    | some run =>
      have hnone : s.step? (step.on k) = none := by
        refine hsettled _ fun id ending he => ?_
        cases step with
        | endAttempt ending' => exact hnot ending' rfl
        | begin | acquire | retry | giveUp | revoke => cases he
      have hrel := h.step? hs hcalm hpool hk step
      rw [hnone] at hrel
      generalize s'.step? (step.on (ρ k)) = made at hrel
      cases hrel
      rfl
  intro step hnot
  cases step with
  | begin id => exact hrun .begin id (by simp)
  | acquire id => exact hrun .acquire id (by simp)
  | endAttempt id ending => exact absurd rfl (hnot id ending)
  | retry id => exact hrun .retry id (by simp)
  | giveUp id => exact hrun .giveUp id (by simp)
  | revoke id canceller => exact hrun (.revoke canceller) id (by simp)
  | tick loop => exact hcue _ (.tick loop) rfl rfl hnot
  | leave loop => exact hcue _ (.leave loop) rfl rfl hnot
  | proceed call => exact hcue _ (.proceed call) rfl rfl hnot

/-! ### Plays -/

/-- The registry lists the same tasks in some order. -/
def IsRelisted (s t : State H) : Prop :=
  ∃ registry, (∀ id, registry.get? id = s.registry.get? id) ∧ t = { s with registry := registry }

theorem IsRelisted.resembles (h : s.IsRelisted t) : s.Resembles t := by
  obtain ⟨registry, hsame, rfl⟩ := h
  refine ⟨1, { Mirrors.refl s with bare := rfl, registry := fun id => ?_ }⟩
  rw [Equiv.Perm.one_apply, hsame]
  exact (congrFun Option.map_id _).symm

/-- The cues can be obeyed one after the other from `s` to `u`, with these answers. Before each of
them the registry may come to list the tasks in another order. -/
inductive Plays : State H → List (Cue H) → Answers → State H → Prop
  | done (s : State H) : Plays s [] [] s
  | relist {s t u : State H} {cues : List (Cue H)} {log : Answers} (h : s.IsRelisted t)
    (rest : Plays t cues log u) : Plays s cues log u
  | obey {s t u : State H} {cue : Cue H} {cues : List (Cue H)} {log : Answers}
    (h : s.obey? cue = some t) (rest : Plays t cues log u) :
    Plays s (cue :: cues) (s.answer cue ++ log) u

/-- The cues can be obeyed one after the other from `s` to `u`, with these answers, and at each of
them nothing makes anything break off. -/
inductive Follows : State H → List (Cue H) → Answers → State H → Prop
  | done (s : State H) : Follows s [] [] s
  | obey {s t u : State H} {cue : Cue H} {cues : List (Cue H)} {log : Answers}
      (hcalm : s.IsUntroubled)
    (h : s.obey? cue = some t) (rest : Follows t cues log u) :
    Follows s (cue :: cues) (s.answer cue ++ log) u

/-- A history is told by cues: each of them stands for the event in its place. -/
inductive Recounts : State H → List (Event H) → List (Cue H) → Answers → State H → Prop
  | done (s : State H) : Recounts s [] [] [] s
  | fire {s t u : State H} {event : Event H} {events : List (Event H)} {cue : Cue H}
      {cues : List (Cue H)}
    {log : Answers} (hevent : s.event? cue = some event) (h : s.fire? event = some t)
    (rest : Recounts t events cues log u) :
    Recounts s (event :: events) (cue :: cues) (s.answer cue ++ log) u

/-- Cues in another order: neighbours that are independent have changed places. -/
inductive Rearranges : List (Cue H) → List (Cue H) → Prop
  | refl (cues : List (Cue H)) : Rearranges cues cues
  | cons (cue : Cue H) {cues cues' : List (Cue H)} (h : Rearranges cues cues') :
    Rearranges (cue :: cues) (cue :: cues')
  | swap {a b : Cue H} (h : Independent a b) (cues : List (Cue H)) :
    Rearranges (a :: b :: cues) (b :: a :: cues)
  | trans {cues cues' cues'' : List (Cue H)} (h : Rearranges cues cues')
      (h' : Rearranges cues' cues'') :
    Rearranges cues cues''

/-- The answers about one task, in the order in which they were given. -/
def answersAbout (id : String) (log : Answers) : List (Except SchedulerError Unit) :=
  (log.filter fun answer => answer.1 = id).map (·.2)

theorem answersAbout_append (id : String) (log log' : Answers) :
    answersAbout id (log ++ log') = answersAbout id log ++ answersAbout id log' := by
  rw [answersAbout, List.filter_append, List.map_append]
  rfl

theorem answersAbout_singleton (id : String) (answer : String × Except SchedulerError Unit) :
    answersAbout id [answer] = if answer.1 = id then [answer.2] else [] := by
  simp only [answersAbout, List.filter_cons, List.filter_nil, decide_eq_true_eq]
  split <;> rfl

/-- The answers to independent cues are about different tasks. -/
theorem Independent.answersAbout_comm {a b : Cue H} (h : Independent a b) (s : State H)
    (id : String) :
    answersAbout id (s.answer a ++ s.answer b) = answersAbout id (s.answer b ++ s.answer a) := by
  cases h with
  | @register spec spec' hne =>
    simp only [answer_register, answersAbout_append, answersAbout_singleton]
    by_cases hid : spec.id = id
    · have hid' : spec'.id ≠ id := fun h => hne (hid.trans h.symm)
      simp only [if_neg hid', List.append_nil, List.nil_append]
    · simp only [if_neg hid, List.append_nil, List.nil_append]
  | run => rfl

/-! ### Histories in other words -/

/-- Each run stands somewhere among the runs of its task. -/
theorem exists_cue_of_run (hs : s.Reachable) {id : Nat} {run : Run}
    (hrun : s.runs.get? id = some run)
    (step : RunStep) : ∃ cue, s.event? cue = some (.step (step.on id)) := by
  obtain ⟨record, hrecord⟩ := hs.record_of_run hrun
  have hmem : id ∈ s.runsOf record.id :=
    mem_runsIn_iff.2 ⟨run, hrun, by rw [idsOf, hrecord, Option.map_some]⟩
  obtain ⟨place, hplace⟩ := List.mem_iff_getElem?.1 hmem
  exact ⟨.run record.id place step, by rw [event?, hplace, Option.map_some]⟩

/-- Each event can be told by a cue, unless a caller hangs up. -/
theorem exists_cue {event : Event H} (hs : s.Reachable) (h : s.fire? event = some t)
    (hwaits : ∀ call, event ≠ .hangUp call) : ∃ cue, s.event? cue = some event := by
  have hrun : ∀ {id : Nat} {f : Run → Option (State H)}, (s.runs.get? id).bind f = some t →
      ∃ run, s.runs.get? id = some run := fun h =>
    (Option.bind_eq_some_iff.1 h).imp fun _ => And.left
  cases event with
  | request request => exact ⟨.request request, rfl⟩
  | elapse time => exact ⟨.elapse time, rfl⟩
  | hangUp call => exact absurd rfl (hwaits call)
  | step step =>
    cases step with
    | begin id =>
      obtain ⟨run, hrun⟩ := hrun h
      exact exists_cue_of_run hs hrun .begin
    | acquire id =>
      obtain ⟨run, hrun⟩ := hrun h
      exact exists_cue_of_run hs hrun .acquire
    | endAttempt id ending =>
      obtain ⟨run, hrun⟩ := hrun h
      exact exists_cue_of_run hs hrun (.endAttempt ending)
    | retry id =>
      obtain ⟨run, hrun⟩ := hrun h
      exact exists_cue_of_run hs hrun .retry
    | giveUp id =>
      obtain ⟨run, hrun⟩ := hrun h
      exact exists_cue_of_run hs hrun .giveUp
    | revoke id canceller =>
      obtain ⟨run, hrun⟩ := hrun h
      exact exists_cue_of_run hs hrun (.revoke canceller)
    | tick loop => exact ⟨.tick loop, rfl⟩
    | leave loop => exact ⟨.leave loop, rfl⟩
    | proceed call => exact ⟨.proceed call, rfl⟩

/-- Each history in which no caller hangs up can be told by cues. -/
theorem exists_recounts {events : List (Event H)} (hs : s.Reachable)
    (h : s.replay? events = some u) (hwaits : ∀ call, .hangUp call ∉ events) :
    ∃ cues log, s.Recounts events cues log u := by
  induction events generalizing s with
  | nil =>
    cases h
    exact ⟨[], [], .done _⟩
  | cons event events ih =>
    rw [replay?_cons] at h
    obtain ⟨t, hfire, hrest⟩ := Option.bind_eq_some_iff.1 h
    obtain ⟨cue, hevent⟩ := exists_cue hs hfire fun call he => hwaits call (he ▸ List.mem_cons_self)
    obtain ⟨cues, log, hrecounts⟩ := ih (hs.fire? hfire) hrest fun call hmem =>
      hwaits call (List.mem_cons_of_mem _ hmem)
    exact ⟨cue :: cues, _, .fire hevent hfire hrecounts⟩

/-- A history in which nothing makes anything break off is followed. -/
theorem Recounts.follows {events : List (Event H)} (h : s.Recounts events cues log u)
    (hcalm : s.StaysUntroubled events) : s.Follows cues log u := by
  induction h with
  | done s => exact .done s
  | fire hevent hfire _ ih =>
    obtain ⟨hnow, hlater⟩ := hcalm.of_cons hfire
    exact .obey hnow (by rw [obey?, hevent, Option.bind_some, hfire]) (ih hlater)

/-! ### Plays go on alike -/

/-- What is followed from one state is followed from every state that resembles it. -/
theorem Follows.lockstep (h : s.Follows cues log u) (hs : s.Reachable) (hpool : s.pool = none)
    (halike : s.Resembles s') : ∃ u', s'.Follows cues log u' ∧ u.Resembles u' := by
  induction h generalizing s' with
  | done s => exact ⟨s', .done s', halike⟩
  | @obey s t u cue cues log hcalm hobey _ ih =>
    have hrel := halike.obey? hs hcalm hpool cue
    rw [hobey] at hrel
    generalize hobey' : s'.obey? cue = made at hrel
    cases hrel with
    | some halike' =>
      obtain ⟨u', hfollows, hend⟩ := ih (hs.obey? hobey) (pool_eq_none_of_obey? hpool hobey) halike'
      rw [← halike.answer hs]
      exact ⟨u', .obey (halike.isUntroubled hcalm) hobey' hfollows, hend⟩

theorem Follows.plays (h : s.Follows cues log u) : s.Plays cues log u := by
  induction h with
  | done s => exact .done s
  | obey _ hobey _ ih => exact .obey hobey ih

/-- A play of cues that are followed from a state that resembles its own ends alike, with the same
answers, in whatever order the registry lists the tasks. -/
theorem Plays.lockstep (h' : s'.Plays cues log' u') (h : s.Follows cues log u) (hs : s.Reachable)
    (hpool : s.pool = none) (halike : s.Resembles s') : log' = log ∧ u.Resembles u' := by
  induction h' generalizing s log with
  | done s' =>
    cases h
    exact ⟨rfl, halike⟩
  | relist hrelisted _ ih => exact ih h hs hpool (halike.trans hrelisted.resembles)
  | @obey s' t' u' cue cues log' hobey' _ ih =>
    cases h with
    | obey hcalm hobey hrest =>
      have hrel := halike.obey? hs hcalm hpool cue
      rw [hobey, hobey'] at hrel
      cases hrel with
      | some halike' =>
        obtain ⟨rfl, hend⟩ := ih hrest (hs.obey? hobey) (pool_eq_none_of_obey? hpool hobey) halike'
        rw [halike.answer hs]
        exact ⟨rfl, hend⟩

theorem Follows.reachable (h : s.Follows cues log u) (hs : s.Reachable) : u.Reachable := by
  induction h with
  | done => exact hs
  | obey _ hobey _ ih => exact ih (hs.obey? hobey)

theorem Follows.pool (h : s.Follows cues log u) (hpool : s.pool = none) : u.pool = none := by
  induction h with
  | done => exact hpool
  | obey _ hobey _ ih => exact ih (pool_eq_none_of_obey? hpool hobey)

theorem Follows.of_append {before after : List (Cue H)} (h : s.Follows (before ++ after) log u) :
    ∃ t log₁ log₂, s.Follows before log₁ t ∧ t.Follows after log₂ u := by
  induction before generalizing s log with
  | nil => exact ⟨s, [], log, .done s, h⟩
  | cons cue before ih =>
    cases h with
    | obey hcalm hobey hrest =>
      obtain ⟨t, log₁, log₂, hbefore, hafter⟩ := ih hrest
      exact ⟨t, _, log₂, .obey hcalm hobey hbefore, hafter⟩

/-- Cues that are followed are followed in another order as well, and end alike. -/
theorem Rearranges.follows (h : Rearranges cues cues') (hs : s.Reachable) (hpool : s.pool = none)
    (hfollows : s.Follows cues log u) : ∃ log' u', s.Follows cues' log' u' ∧ u.Resembles u' ∧
      ∀ id, answersAbout id log' = answersAbout id log := by
  induction h generalizing s log u with
  | refl => exact ⟨log, u, hfollows, .refl u, fun _ => rfl⟩
  | cons cue _ ih =>
    cases hfollows with
    | obey hcalm hobey hrest =>
      obtain ⟨log', u', hfollows', halike, hanswers⟩ :=
        ih (hs.obey? hobey) (pool_eq_none_of_obey? hpool hobey) hrest
      refine ⟨_, u', .obey hcalm hobey hfollows', halike, fun id => ?_⟩
      rw [answersAbout_append, answersAbout_append, hanswers]
  | @swap a b hind cues =>
    cases hfollows with
    | obey hcalm hobey hrest =>
      cases hrest with
      | obey hcalm' hobey' hrest =>
        obtain ⟨t₁', t₂', hcommutes⟩ := commutes_of_independent hs hcalm hpool hind hobey hobey'
        have hreachable := (hs.obey? hobey).obey? hobey'
        have hpooled := pool_eq_none_of_obey? (pool_eq_none_of_obey? hpool hobey) hobey'
        obtain ⟨u', hfollows', halike⟩ := hrest.lockstep hreachable hpooled hcommutes.alike
        refine ⟨_, u', .obey hcalm hcommutes.first
          (.obey hcommutes.untroubled hcommutes.second hfollows'), halike, fun id => ?_⟩
        rw [hcommutes.answer_second, hcommutes.answer_first, ← List.append_assoc,
          ← List.append_assoc,
          answersAbout_append, answersAbout_append id (s.answer a ++ s.answer b),
          hind.answersAbout_comm s id]
  | trans _ _ ih ih' =>
    obtain ⟨log₁, u₁, hfollows₁, halike₁, hanswers₁⟩ := ih hs hpool hfollows
    obtain ⟨log₂, u₂, hfollows₂, halike₂, hanswers₂⟩ := ih' hs hpool hfollows₁
    exact ⟨log₂, u₂, hfollows₂, halike₁.trans halike₂, fun id => (hanswers₂ id).trans
      (hanswers₁ id)⟩

/-- Without a worker limit the order of the tasks cannot be seen. Tell a history, at whose events
nothing makes anything break off, without the numbers of runs; take it in another order, in which
registrations of different tasks at one moment and steps of runs of different tasks have changed
places, and list the registry anew at will. Each such play goes on to its end, and in the end each
task, the calls of its handler, the status, the replies to calls and the answers to requests are the
same, and the same is possible next. Since nothing changes places with the passing of time, this is
so at each moment. -/
theorem showsSame_of_rearranges {start : State H} {options : Options} {now : Instant}
    {events : List (Event H)} (hcreate : create? options now = some start)
    (hunlimited : options.maxConcurrentTasks = none) (h : start.replay? events = some s)
    (hcalm : start.StaysUntroubled events) :
    (∃ cues log, start.Recounts events cues log s) ∧
    ∀ cues log, start.Recounts events cues log s → ∀ cues', Rearranges cues cues' →
      (∀ before after log₁ t, cues' = before ++ after → start.Plays before log₁ t →
        ∃ log₂ s', t.Plays after log₂ s') ∧
      ∀ log' s', start.Plays cues' log' s' → s.ShowsSame s' ∧
        (∀ id, answersAbout id log' = answersAbout id log) ∧
        (s.IsUntroubled → (∀ cue, (s'.obey? cue).isSome = (s.obey? cue).isSome) ∧
          (s.IsSettled → s'.IsSettled)) := by
  have hstart : start.Reachable := .of_create? hcreate
  have hpool : start.pool = none := by
    have hpooled := (options_of_replay? hcreate (show start.replay? [] = some start from rfl)).2
    rw [hunlimited] at hpooled
    exact Option.isNone_iff_eq_none.1 (Option.isSome_eq_false_iff.1 hpooled)
  refine ⟨exists_recounts hstart h hcalm.awaited, fun cues log hrecounts cues' hrearranges => ?_⟩
  have hfollows := hrecounts.follows hcalm
  -- The rearranged cues can be followed to a like state. Every play of them keeps in step with that
  -- one way to follow them, wherever it lists the registry anew.
  obtain ⟨log', u, hfollows', halike, hanswers⟩ := hrearranges.follows hstart hpool hfollows
  refine ⟨fun before after log₁ t hcues hplays => ?_, fun log'' s' hplays => ?_⟩
  · subst hcues
    obtain ⟨t', _, log₂, hbefore, hafter⟩ := hfollows'.of_append
    obtain ⟨-, hsofar⟩ := hplays.lockstep hbefore hstart hpool (.refl start)
    obtain ⟨s', hrest, -⟩ :=
      hafter.lockstep (hbefore.reachable hstart) (hbefore.pool hpool) hsofar
    exact ⟨log₂, s', hrest.plays⟩
  · obtain ⟨rfl, hend⟩ := hplays.lockstep hfollows' hstart hpool (.refl start)
    have hsame := halike.trans hend
    have hs := hfollows.reachable hstart
    have hpooled := hfollows.pool hpool
    exact ⟨hsame.showsSame, hanswers, fun hcalm => ⟨hsame.isSome_obey? hs hcalm hpooled,
      hsame.isSettled hs hcalm hpooled⟩⟩

/-- A task that is to run every minute, and last ran two days ago. -/
def everyMinute : TaskSpec Unit :=
  { TaskSpec.new "sync" () with
    schedule := some "* * * * *", lastRun := some (.ofNanos 1718272800000000000) }

/-- Two tasks are registered, a start catches up on both, and the loop is opened. -/
def caughtUpTwice : List (Event Unit) :=
  [.request (.register everyHour), .request (.register everyMinute), .request .start,
    .step (.proceed 2),
    .step (.begin 3), .step (.begin 4), .step (.endAttempt 3 (.completed "done")),
    .step (.endAttempt 4 (.completed "done")), .step (.proceed 2)]

theorem caughtUpTwice_staysUntroubled :
    (initial Options.standard someMorning).StaysUntroubled caughtUpTwice := by
  have hcalm : ∀ n < 9, ((initial Options.standard someMorning).replay? (caughtUpTwice.take n)).all
      (fun s => (momentAfter? s.clock s.options.taskTimeout).isSome &&
        s.reading == .ok someMorning && s.records.entries.all fun e =>
          (nextRun s.options.zone e.2.schedule (.ok someMorning)).isOk) = true := by
    decide +kernel
  refine ⟨fun n hn s hs => ?_, fun call => by simp [caughtUpTwice]⟩
  have h := hcalm n hn
  rw [hs, Option.all_some, Bool.and_eq_true, Bool.and_eq_true, beq_iff_eq, List.all_eq_true] at h
  obtain ⟨⟨hdeadline, hreading⟩, hnext⟩ := h
  refine ⟨hdeadline, someMorning, hreading, fun number record hrecord => ?_⟩
  have hok := hnext _ (Table.mem_entries_iff.2 hrecord)
  generalize nextRun s.options.zone record.schedule (.ok someMorning) = made at hok
  cases made with
  | ok next => exact ⟨next, rfl⟩
  | error fault => cases hok

/-- A request is told by itself. -/
theorem eq_request_of_event? {request : Request H} (h : s.event? cue = some (.request request)) :
    cue = .request request := by
  cases cue with
  | request request' =>
    cases h
    rfl
  | run task place step =>
    obtain ⟨id, -, he⟩ := Option.map_eq_some_iff.1 h
    cases he
  | tick | leave | proceed | elapse => cases h

/-- The tasks may be registered in the other order, and the start catches up on both alike. -/
theorem showsSame_of_rearranges_of_caughtUpTwice :
    ∃ s s' cues log log',
      create? Options.standard someMorning = some (initial Options.standard someMorning :
        State Unit) ∧
      (initial Options.standard someMorning).Recounts caughtUpTwice
        (.request (.register everyHour) :: .request (.register everyMinute) :: cues) log s ∧
      (initial Options.standard someMorning).Plays
        (.request (.register everyMinute) :: .request (.register everyHour) :: cues) log' s' ∧
      s.ShowsSame s' := by
  have hcreate : create? Options.standard someMorning =
      some (initial Options.standard someMorning : State Unit) := rfl
  obtain ⟨s, hs⟩ : ∃ s, (initial Options.standard someMorning).replay? caughtUpTwice = some s :=
    Option.isSome_iff_exists.1 (by decide +kernel)
  obtain ⟨⟨told, log, hrecounts⟩, hsame⟩ :=
    showsSame_of_rearranges hcreate rfl hs caughtUpTwice_staysUntroubled
  obtain ⟨cues, rfl⟩ : ∃ cues, told =
      .request (.register everyHour) :: .request (.register everyMinute) :: cues := by
    cases id hrecounts with
    | fire hfirst _ hrest =>
      cases hrest with
      | fire hsecond _ _ =>
        exact ⟨_, by rw [eq_request_of_event? hfirst, eq_request_of_event? hsecond]⟩
  have hswap :
      Rearranges (.request (.register everyHour) :: .request (.register everyMinute) :: cues)
      (.request (.register everyMinute) :: .request (.register everyHour) :: cues) :=
    .swap (.register (by decide)) cues
  obtain ⟨hgoes, hends⟩ := hsame _ log hrecounts _ hswap
  obtain ⟨log', s', hplays⟩ := hgoes [] _ [] _ rfl (.done _)
  exact ⟨s, s', cues, log, log', hcreate, hrecounts, hplays, (hends log' s' hplays).1⟩

/-- Noon on the first day of June in the last year of the calendar. -/
def lastSummer : Instant := .ofNanos 8210248430400000000000

/-- Two tasks are registered, the clock is set, and a start gets the lock. -/
def startedLate (first second : TaskSpec Unit) : List (Cue Unit) :=
  [.request (.register first), .request (.register second), .request (.setClock lastSummer),
    .request .start, .proceed 2]

theorem exists_plays_of_foldlM (h : cues.foldlM obey? s = some u) : ∃ log, s.Plays cues log u := by
  induction cues generalizing s with
  | nil =>
    cases h
    exact ⟨[], .done _⟩
  | cons cue cues ih =>
    obtain ⟨t, hobey, hrest⟩ := Option.bind_eq_some_iff.1 h
    obtain ⟨log, hplays⟩ := ih hrest
    exact ⟨_, .obey hobey hplays⟩

/-- Where neither runs nor loops are left and no call can go on, nothing more can happen. -/
theorem exists_startedLate {first second : TaskSpec Unit} {next : Option Instant}
    (hlook : ((startedLate first second).foldlM obey? (initial Options.standard someMorning)).map
      (fun s : State Unit => (s.runs.entries.isEmpty && s.loops.entries.isEmpty &&
        s.calls.entries.all fun e => !s.canProceed e.1, (s.get? "backup").map (·.nextRun))) =
          some (true, some next)) :
    ∃ log s, (initial Options.standard someMorning).Plays (startedLate first second) log s ∧
      s.IsSettled ∧ (s.get? "backup").map (·.nextRun) = some next := by
  obtain ⟨s, hs, hview⟩ := Option.map_eq_some_iff.1 hlook
  simp only [Prod.mk.injEq, Bool.and_eq_true, List.isEmpty_iff] at hview
  obtain ⟨⟨⟨hruns, hloops⟩, hcalls⟩, hnext⟩ := hview
  obtain ⟨log, hplays⟩ := exists_plays_of_foldlM hs
  exact ⟨log, s, hplays, isSettled_of_idle hruns hloops (by simpa using hcalls), hnext⟩

/-- The order of the tasks can be seen after a start that breaks off: at the end of the calendar the
next run of one task cannot be computed, and the other one has got a new next run exactly if it is
listed before. -/
theorem not_forall_showsSame_of_rearranges :
    ¬ ∀ (options : Options) (now : Instant) (start s s' : State Unit) (cues cues' : List (Cue Unit))
      (log log' : Answers), create? options now = some start → options.maxConcurrentTasks = none →
      start.Plays cues log s → Rearranges cues cues' → start.Plays cues' log' s' → s.IsSettled →
      s'.IsSettled → s.ShowsSame s' := by
  intro hall
  -- Listed behind the other task, this one keeps the next run of its registration.
  have hbehind := @exists_startedLate everyMinute everyHour (some (.ofNanos 1718449200000000000))
    (by decide +kernel)
  have hbefore := @exists_startedLate everyHour everyMinute (some (.ofNanos 8210248434000000000000))
    (by decide +kernel)
  obtain ⟨log, s, hplays, hsettled, hnext⟩ := hbehind
  obtain ⟨log', s', hplays', hsettled', hnext'⟩ := hbefore
  have hsame := hall Options.standard someMorning _ s s' _ _ log log' rfl rfl hplays
    (.swap (.register (by decide)) _) hplays' hsettled hsettled'
  rw [hsame.tasks "backup", hnext] at hnext'
  cases hnext'

end State

end Scheduler

end CronDaemon
