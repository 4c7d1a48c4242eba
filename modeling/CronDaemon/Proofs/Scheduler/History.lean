import CronDaemon.Proofs.Scheduler.Frame
import Mathlib.Data.List.Induction

/-!
# Histories

A history is a list of events that leads from one state to another. Numbers are not used again, so
what has a number keeps it through a history: the records keep their ids, and a run stays on its
record with its trigger and its owner. Every record goes back to a registration in the history, and
every run to the event that spawned it on a record that was registered then; what is scheduled was
found due by a tick.
-/

namespace CronDaemon.Scheduler

open Job

/-- A run may have become another one in the course of time. -/
structure Run.Continues (run run' : Run) : Prop where
  record : run'.record = run.record
  trigger : run'.trigger = run.trigger
  owner : run'.owner = run.owner
  /-- A run that has not passed the guard had not done so before. -/
  spawned : run'.phase = .spawned → run.phase = .spawned
  /-- A run that has broken off stays as it is. -/
  stranded : run.phase = .stranded → run'.phase = .stranded

theorem Run.Continues.refl (run : Run) : run.Continues run := ⟨rfl, rfl, rfl, id, id⟩

/-- What a run became may become another one in turn. -/
theorem Run.Continues.trans {a b c : Run} (h : a.Continues b) (h' : b.Continues c) :
    a.Continues c where
  record := h'.record.trans h.record
  trigger := h'.trigger.trans h.trigger
  owner := h'.owner.trans h.owner
  spawned hc := h.spawned (h'.spawned hc)
  stranded ha := h'.stranded (h.stranded ha)

/-- A run that goes on has not broken off. -/
theorem Phase.ne_stranded_of_isActive {phase : Phase} (h : phase.isActive = true) :
    phase ≠ .stranded := by
  rintro rfl
  cases h

/-- A run that has not broken off may enter any phase behind the guard. -/
theorem Run.Continues.of_setPhase {run : Run} {phase : Phase} (h : phase ≠ .spawned)
    (hlive : run.phase ≠ .stranded) : run.Continues { run with phase := phase } :=
  ⟨rfl, rfl, rfl, fun hphase => absurd hphase h, fun hphase => absurd hphase hlive⟩

namespace Ledger

variable {H : Type} {l l' : Ledger H} {trouble : Prop}

/-- A move that strands a run only in some trouble does so only in a wider one. -/
theorem Move.mono {trouble' : Prop} (h : trouble → trouble') (move : Move trouble l l') :
    Move trouble' l l' := by
  cases move with
  | skip => exact .skip
  | remark entry he => exact .remark entry he
  | enroll record spec clock now he hclock => exact .enroll record spec clock now he hclock
  | edit number change he => exact .edit number change he
  | refresh number before after now hbefore he => exact .refresh number before after now hbefore he
  | spawn record trigger owner he => exact .spawn record trigger owner he
  | drop id run hrun he => exact .drop id run hrun he
  | pass id run record phase moment now hrun hspawned hrecord hfree he =>
    exact .pass id run record phase moment now hrun hspawned hrecord hfree he
  | advance id run phase hrun hactive he => exact .advance id run phase hrun hactive he
  | strand id run htrouble hrun hactive => exact .strand id run (h htrouble) hrun hactive
  | record id run result now before after hrun hactive hbefore he =>
    exact .record id run result now before after hrun hactive hbefore he

/-- So do any number of moves. -/
theorem Moves.mono {trouble' : Prop} (h : trouble → trouble') (moves : Moves trouble l l') :
    Moves trouble' l l' := by
  induction moves with
  | refl => exact .refl
  | tail _ move ih => exact .tail ih (move.mono h)

/-- A move uses up numbers and frees none. -/
theorem Move.nextId_le (move : Move trouble l l') : l.nextId ≤ l'.nextId := by
  cases move with
  | skip | enroll | spawn => exact Nat.le_succ _
  | remark | edit | refresh | drop | pass | advance | strand | record => exact Nat.le_refl _

/-- Moves use up numbers and free none. -/
theorem Moves.nextId_le (moves : Moves trouble l l') : l.nextId ≤ l'.nextId := by
  induction moves with
  | refl => exact Nat.le_refl _
  | tail _ move ih => exact Nat.le_trans ih move.nextId_le

/-- The runs after one of them entered a phase behind the guard were there before. -/
theorem continues_of_setPhase {id k : Nat} {run run' : Run} {phase : Phase}
    (hrun : l.runs.get? id = some run) (hlive : run.phase ≠ .stranded) (h : phase ≠ .spawned)
    (hk : (l.runs.modify id fun run => { run with phase := phase }).get? k = some run') :
    ∃ run, l.runs.get? k = some run ∧ run.Continues run' := by
  rw [Table.get?_modify] at hk
  split at hk
  · next he =>
    subst he
    rw [hrun] at hk
    cases hk
    exact ⟨run, hrun, .of_setPhase h hlive⟩
  · exact ⟨run', hk, .refl run'⟩

/-- The runs after one of them was dropped were there before. -/
theorem continues_of_erase {id k : Nat} {run' : Run} (hk : (l.runs.erase id).get? k = some run') :
    ∃ run, l.runs.get? k = some run ∧ run.Continues run' := by
  rw [Table.get?_erase] at hk
  split at hk
  · cases hk
  · exact ⟨run', hk, .refl run'⟩

/-- A run whose number was used before a move was there before the move. -/
theorem Move.run_continues (move : Move trouble l l') {k : Nat} {run' : Run} (hlt : k < l.nextId)
    (hk : l'.runs.get? k = some run') : ∃ run, l.runs.get? k = some run ∧ run.Continues run' := by
  cases move with
  | skip | remark | enroll | edit | refresh => exact ⟨run', hk, .refl run'⟩
  | spawn record trigger owner h =>
    rw [Table.get?_insert, if_neg (Nat.ne_of_gt hlt)] at hk
    exact ⟨run', hk, .refl run'⟩
  | drop | record => exact continues_of_erase hk
  | pass id run record phase moment now hrun hspawned hrecord hfree h =>
    exact continues_of_setPhase hrun (by rw [hspawned]; simp) (Phase.ne_spawned_of_isActive h) hk
  | advance id run phase hrun hactive h =>
    exact continues_of_setPhase hrun (Phase.ne_stranded_of_isActive hactive)
      (Phase.ne_spawned_of_isActive h) hk
  | strand id run htrouble hrun hactive =>
    exact continues_of_setPhase hrun (Phase.ne_stranded_of_isActive hactive) (by simp) hk

/-- A run whose number was used before some moves was there before them. -/
theorem Moves.run_continues (moves : Moves trouble l l') {k : Nat} {run' : Run} (hlt : k < l.nextId)
    (hk : l'.runs.get? k = some run') : ∃ run, l.runs.get? k = some run ∧ run.Continues run' := by
  induction moves generalizing run' with
  | refl => exact ⟨run', hk, .refl run'⟩
  | tail moves move ih =>
    obtain ⟨mid, hmid, hlast⟩ :=
      move.run_continues (Nat.lt_of_lt_of_le hlt (Moves.nextId_le moves)) hk
    obtain ⟨run, hrun, hfirst⟩ := ih hmid
    exact ⟨run, hrun, hfirst.trans hlast⟩

/-- A move adds to the journal and takes nothing out. -/
theorem Move.journal_suffix (move : Move trouble l l') : l.journal <:+ l'.journal := by
  cases move with
  | skip | edit | spawn | drop | advance | strand => exact List.suffix_refl _
  | remark | enroll | refresh | pass | record => exact List.suffix_cons _ _

/-- Moves add to the journal and take nothing out. -/
theorem Moves.journal_suffix (moves : Moves trouble l l') : l.journal <:+ l'.journal := by
  induction moves with
  | refl => exact List.suffix_refl _
  | tail _ move ih => exact ih.trans move.journal_suffix

end Ledger

/-- A record carries the id of the spec that it is made of. -/
theorem Record.id_ofSpec {H : Type} {zone : Zone} {clock : Except Fault Instant} {spec : TaskSpec H}
    {record : Record H} (h : Record.ofSpec zone clock spec = .ok record) : record.id = spec.id := by
  unfold Record.ofSpec at h
  grind

namespace Frame

variable {H : Type} {f f' : Frame H} {event : Event H}

/-- Only a request sets the wall clock; otherwise time goes forward. -/
theorem Change.clock (h : f.Change event f') :
    (∃ now, event = .request (.setClock now)) ∨ f'.epoch = f.epoch ∧ f.clock ≤ f'.clock := by
  cases h with
  | setClock now => exact .inl ⟨now, rfl⟩
  | elapse time => exact .inr ⟨rfl, Nat.le_add_right _ _⟩
  | keep | register | remove | setEnabled | pass | refuse | tick | breakLoop | leave | openLoop =>
    exact .inr ⟨rfl, Nat.le_refl _⟩

/-- What a record says of its task stays, except that requests may enable or disable it while it is
registered. -/
theorem Change.profile (h : f.Change event f') {number : Nat} {profile : Record H}
    (hprofile : f.profiles number = some profile) (hlt : number < f.nextId) :
    ∃ profile', f'.profiles number = some profile' ∧
      (profile' = profile ∨ ∃ name enabled, event = .request (.setEnabled name enabled) ∧
        f.registry.get? name = some number ∧ profile' = { profile with enabled := enabled }) := by
  cases h with
  | register h => exact ⟨profile, by simp [hprofile, Nat.ne_of_gt hlt], .inl rfl⟩
  | @setEnabled name k enabled hk =>
    by_cases he : k = number
    · subst he
      exact ⟨_, by simp [hprofile], .inr ⟨name, enabled, rfl, hk, rfl⟩⟩
    · exact ⟨profile, by simp [he, hprofile], .inl rfl⟩
  | keep | remove | setClock | pass | refuse | tick | breakLoop | leave | openLoop | elapse =>
    exact ⟨profile, hprofile, .inl rfl⟩

/-- Only a registration makes a record. -/
theorem Change.profile_new (h : f.Change event f') {number : Nat} {profile : Record H}
    (hprofile : f'.profiles number = some profile) (hnew : f.profiles number = none) :
    ∃ spec clock record, event = .request (.register spec) ∧ number = f.nextId ∧
      Record.ofSpec f.options.zone clock spec = .ok record ∧ profile = record.profile := by
  cases h with
  | @register spec clock record h =>
    by_cases he : f.nextId = number
    · subst he
      refine ⟨spec, clock, record, rfl, rfl, h, ?_⟩
      simpa [eq_comm] using hprofile
    · simp [he, hnew] at hprofile
  | @setEnabled name k enabled hk =>
    by_cases he : k = number
    · subst he
      simp [hnew] at hprofile
    · simp [he, hnew] at hprofile
  | keep | remove | setClock | pass | refuse | tick | breakLoop | leave | openLoop | elapse =>
    rw [hnew] at hprofile
    cases hprofile

/-- Only a first look at a run and a tick leave marks. -/
theorem Change.marks (h : f.Change event f') :
    f'.marks = f.marks ∨ (∃ id, event = .step (.begin id)) ∨
      ∃ loop due now, f'.marks = .ticked loop due f.clock now :: f.marks := by
  cases h with
  | pass id | refuse id => exact .inr (.inl ⟨id, rfl⟩)
  | tick due now => exact .inr (.inr ⟨_, due, now, rfl⟩)
  | keep | register | remove | setEnabled | setClock | breakLoop | leave | openLoop | elapse =>
    exact .inl rfl

end Frame

namespace State

variable {H : Type} {start s s' t t' u : State H} {event : Event H} {events after : List (Event H)}

/-- A history of two parts leads through the state between them. -/
theorem replay?_append_iff {a b : List (Event H)} :
    s.replay? (a ++ b) = some u ↔ ∃ t, s.replay? a = some t ∧ t.replay? b = some u := by
  simp only [replay?, List.foldlM_append, Option.bind_eq_bind, Option.bind_eq_some_iff]

theorem replay?_singleton_iff : s.replay? [event] = some u ↔ s.fire? event = some u := by
  simp [replay?]

/-- What holds at first and is kept by each event of a history holds at its end. -/
theorem history_induction {motive : List (Event H) → State H → Prop} (hstart : motive [] start)
    (hkept : ∀ before event t t', start.replay? before = some t → t.fire? event = some t' →
      motive before t → motive (before ++ [event]) t')
    (h : start.replay? events = some s) : motive events s := by
  induction events using List.reverseRecOn generalizing s with
  | nil =>
    cases h
    exact hstart
  | append_singleton before event ih =>
    obtain ⟨t, ht, hlast⟩ := replay?_append_iff.1 h
    exact hkept before event t s ht (replay?_singleton_iff.1 hlast) (ih ht)

/-- A history moves the ledger. -/
theorem replay?_moves (h : s.replay? events = some u) :
    Ledger.Moves True s.ledger u.ledger := by
  refine history_induction (motive := fun _ u => Ledger.Moves True s.ledger u.ledger) .refl ?_ h
  intro _ _ t t' _ hfire hmoves
  exact hmoves.trans ((transition_of_fire? hfire).moves.mono fun _ => trivial)

/-- An event takes nothing out of the journal. -/
theorem Transition.journal_suffix (h : s.Transition event s') : s.journal <:+ s'.journal :=
  Ledger.Moves.journal_suffix h.moves

/-- Nor does a history. -/
theorem journal_suffix_of_replay? (h : s.replay? events = some u) : s.journal <:+ u.journal :=
  Ledger.Moves.journal_suffix (replay?_moves h)

/-- What a history leads to from a reachable state is reachable. -/
theorem Reachable.replay? (hs : s.Reachable) (h : s.replay? events = some u) : u.Reachable := by
  obtain ⟨options, now, start, before, hcreate, hbefore⟩ := hs
  exact ⟨options, now, start, before ++ events, hcreate, replay?_append_iff.2 ⟨s, hbefore, h⟩⟩

/-- So is what one event leads to. -/
theorem Reachable.fire? (hs : s.Reachable) (h : s.fire? event = some u) : u.Reachable :=
  hs.replay? (replay?_singleton_iff.2 h)

/-- So is what one step leads to. -/
theorem Reachable.step? {step : Step} (hs : s.Reachable) (h : s.step? step = some u) :
    u.Reachable :=
  hs.fire? (show s.fire? (.step step) = some u from h)

/-- What holds of every initial state and is kept by each transition from a reachable state holds of
every reachable state. -/
theorem Reachable.step_induction {motive : State H → Prop}
    (hinitial : ∀ options now, motive (initial options now))
    (hkept : ∀ s event s', s.Reachable → s.Transition event s' → motive s → motive s')
    (hs : s.Reachable) : motive s := by
  obtain ⟨options, now, start, events, hcreate, hreplay⟩ := hs
  have hstart : start.Reachable := .of_create? hcreate
  have hfirst : motive start := eq_initial_of_create? hcreate ▸ hinitial options now
  exact history_induction (motive := fun _ s => motive s) hfirst
    (fun _ event t t' ht hfire => hkept t event t' (hstart.replay? ht) (transition_of_fire? hfire))
    hreplay

/-- An event of a history, with the states before and after it and the events that follow. -/
structure Occurs (start : State H) (events : List (Event H)) (event : Event H) (t t' : State H)
    (after : List (Event H)) : Prop where
  split : ∃ before, events = before ++ event :: after ∧ start.replay? before = some t
  fires : t.fire? event = some t'

/-- The last event of a history happens in it. -/
theorem Occurs.last {before : List (Event H)} (h : start.replay? before = some t)
    (hfire : t.fire? event = some t') : start.Occurs (before ++ [event]) event t t' [] :=
  ⟨⟨before, rfl, h⟩, hfire⟩

/-- What happens in a history happens in every longer one. -/
theorem Occurs.snoc (h : start.Occurs events event t t' after) (last : Event H) :
    start.Occurs (events ++ [last]) event t t' (after ++ [last]) := by
  obtain ⟨before, rfl, hbefore⟩ := h.split
  exact ⟨⟨before, by simp, hbefore⟩, h.fires⟩

/-- The events after one that happens lead from the state after it to the end. -/
theorem Occurs.replay? (h : start.Occurs events event t t' after)
    (hreplay : start.replay? events = some s) : t'.replay? after = some s := by
  obtain ⟨before, rfl, hbefore⟩ := h.split
  obtain ⟨t₀, ht₀, hrest⟩ := replay?_append_iff.1 hreplay
  rw [hbefore] at ht₀
  cases ht₀
  rwa [replay?_cons, h.fires] at hrest

/-- What happens in a history happens in a reachable state. -/
theorem Occurs.reachable (h : start.Occurs events event t t' after) (hstart : start.Reachable) :
    t.Reachable := by
  obtain ⟨before, -, hbefore⟩ := h.split
  exact hstart.replay? hbefore

/-- An event of a history follows a part of it. -/
theorem Occurs.exists_take (h : start.Occurs events event t t' after) :
    ∃ n < events.length, start.replay? (events.take n) = some t := by
  obtain ⟨before, rfl, hbefore⟩ := h.split
  exact ⟨before.length, by simp, by simpa using hbefore⟩

/-- What happens in a part of a history happens in the history. -/
theorem Occurs.within {during rest : List (Event H)} {event' : Event H} {v v' : State H}
    (h : start.Occurs events event t t' (during ++ rest))
    (h' : t'.Occurs during event' v v' after) :
    start.Occurs events event' v v' (after ++ rest) := by
  obtain ⟨before, rfl, hbefore⟩ := h.split
  obtain ⟨mid, rfl, hmid⟩ := h'.split
  refine ⟨⟨before ++ event :: mid, by simp, replay?_append_iff.2 ⟨t, hbefore, ?_⟩⟩, h'.fires⟩
  rw [replay?_cons, h.fires]
  exact hmid

/-- What happened in a history with one more event happened before, or is that event. -/
theorem Occurs.of_snoc {last : Event H} (h : start.Occurs (events ++ [last]) event t t' after) :
    (∃ rest, after = rest ++ [last] ∧ start.Occurs events event t t' rest) ∨
      event = last ∧ after = [] ∧ start.replay? events = some t := by
  obtain ⟨before, he, hbefore⟩ := h.split
  rcases List.eq_nil_or_concat after with rfl | ⟨rest, final, rfl⟩
  · obtain ⟨rfl, hlast⟩ := List.append_inj' he rfl
    exact .inr ⟨(List.singleton_inj.1 hlast).symm, rfl, hbefore⟩
  · rw [List.concat_eq_append, ← List.cons_append, ← List.append_assoc] at he
    obtain ⟨rfl, hlast⟩ := List.append_inj' he rfl
    rw [List.concat_eq_append, ← List.singleton_inj.1 hlast]
    exact .inl ⟨rest, rfl, ⟨before, rfl, hbefore⟩, h.fires⟩

/-- What happened in a history with one more event happened before, or is that event, between the
states that this leads from and to. -/
theorem Occurs.snoc_cases {last : Event H} (h : start.Occurs (events ++ [last]) event t t' after)
    (hs : start.replay? events = some s) (hfire : s.fire? last = some s') :
    (∃ rest, start.Occurs events event t t' rest) ∨ event = last ∧ t = s ∧ t' = s' := by
  rcases h.of_snoc with ⟨rest, -, hearlier⟩ | ⟨rfl, -, ht⟩
  · exact .inl ⟨rest, hearlier⟩
  · rw [hs] at ht
    cases ht
    have hfires := h.fires
    rw [hfire] at hfires
    cases hfires
    exact .inr ⟨rfl, rfl, rfl⟩

/-- Nothing happens in an empty history. -/
theorem not_occurs_nil : ¬ start.Occurs [] event t t' after := by
  intro h
  obtain ⟨before, he, -⟩ := h.split
  cases before <;> cases he

/-- The frame tells the profile of each record. -/
theorem profile_of_get? {number : Nat} {record : Record H}
    (h : s.records.get? number = some record) : s.frame.profiles number = some record.profile := by
  simp [frame, profilesOf, h]

/-- Each profile that the frame tells is that of a record. -/
theorem get?_of_profile {number : Nat} {profile : Record H}
    (h : s.frame.profiles number = some profile) :
    ∃ record, s.records.get? number = some record ∧ record.profile = profile :=
  Option.map_eq_some_iff.1 h

/-- The ledger tells of each record whether its task is running. -/
theorem isRunning?_of_get? {number : Nat} {record : Record H}
    (h : s.records.get? number = some record) :
    s.ledger.isRunning? number = some (decide (record.status = .running)) := by
  simp only [Ledger.isRunning?, show s.ledger.records.get? number = some record from h]
  rfl

/-- The ledger tells of each run its record, and whether it has passed the guard. -/
theorem standing?_of_get? {id : Nat} {run : Run} (h : s.runs.get? id = some run) :
    s.ledger.standing? id = some (run.record, decide (run.phase ≠ .spawned)) := by
  simp only [Ledger.standing?, show s.ledger.runs.get? id = some run from h]
  rfl

/-- Each record has a number that is used. -/
theorem Reachable.record_lt (hs : s.Reachable) {number : Nat} {record : Record H}
    (h : s.records.get? number = some record) : number < s.nextId :=
  hs.isSound.fresh.record_lt (isRunning?_of_get? h)

/-- Each run has a number that is used. -/
theorem Reachable.run_lt (hs : s.Reachable) {id : Nat} {run : Run} (h : s.runs.get? id = some run) :
    id < s.nextId :=
  hs.isSound.fresh.run_lt (standing?_of_get? h)

/-- Every run stands on a record. -/
theorem Reachable.record_of_run (hs : s.Reachable) {id : Nat} {run : Run}
    (h : s.runs.get? id = some run) : ∃ record, s.records.get? run.record = some record := by
  obtain ⟨c, hc⟩ := hs.isSound.fresh.known (standing?_of_get? h)
  obtain ⟨record, hrecord, -⟩ := Option.map_eq_some_iff.1 hc
  exact ⟨record, hrecord⟩

/-- Records stay, and keep their ids. -/
theorem Transition.record_stays (h : s.Transition event s') (hs : s.Reachable) {number : Nat}
    {record : Record H} (hrecord : s.records.get? number = some record) :
    ∃ record', s'.records.get? number = some record' ∧ record'.id = record.id := by
  obtain ⟨profile', hprofile', hcases⟩ :=
    h.change.profile (profile_of_get? hrecord) (hs.record_lt hrecord)
  obtain ⟨record', hrecord', rfl⟩ := get?_of_profile hprofile'
  refine ⟨record', hrecord', ?_⟩
  show record'.profile.id = record.profile.id
  rcases hcases with he | ⟨name, enabled, -, -, he⟩ <;> rw [he]

/-- Records keep their ids through a history. -/
theorem Reachable.id_eq (hs : s.Reachable) (h : s.replay? events = some u) {number : Nat}
    {record : Record H} (hrecord : s.records.get? number = some record) :
    ∃ record', u.records.get? number = some record' ∧ record'.id = record.id := by
  refine history_induction (motive := fun _ u => ∃ record', u.records.get? number = some record' ∧
    record'.id = record.id) ⟨record, hrecord, rfl⟩ ?_ h
  rintro before event t t' ht hfire ⟨mid, hmid, hid⟩
  obtain ⟨record', hrecord', he⟩ := (transition_of_fire? hfire).record_stays (hs.replay? ht) hmid
  exact ⟨record', hrecord', he.trans hid⟩

/-- What a registration that succeeds leaves. -/
theorem eq_of_register {spec : TaskSpec H} (h : s.register spec = .ok s') :
    ∃ fresh, Record.ofSpec s.options.zone s.reading spec = .ok fresh ∧
      s' = { s with
        records := s.records.insert s.nextId fresh
        registry := s.registry.insert spec.id s.nextId
        nextId := s.nextId + 1 }.note (.registered s.nextId s.now) := by
  unfold State.register at h
  split at h
  · cases h
  · next fresh hfresh =>
    cases h
    exact ⟨fresh, hfresh, rfl⟩

/-- A registration that succeeds makes a fresh record under the next number. -/
theorem exists_fresh_of_register {spec : TaskSpec H} (h : s.register spec = .ok s') :
    ∃ fresh, Record.ofSpec s.options.zone s.reading spec = .ok fresh ∧
      s'.records = s.records.insert s.nextId fresh ∧
      s'.journal = .registered s.nextId s.now :: s.journal := by
  obtain ⟨fresh, hfresh, rfl⟩ := eq_of_register h
  exact ⟨fresh, hfresh, rfl, rfl⟩

/-- Every record was made by a registration in the history. -/
theorem exists_registration (hstart : ∀ number, start.records.get? number = none)
    (h : start.replay? events = some s) {number : Nat} {record : Record H}
    (hrecord : s.records.get? number = some record) :
    ∃ spec t t' after, start.Occurs events (.request (.register spec)) t t' after ∧
      t.register spec = .ok t' ∧ t.nextId = number := by
  refine history_induction (motive := fun events s => ∀ number record,
    s.records.get? number = some record → ∃ spec t t' after,
      start.Occurs events (.request (.register spec)) t t' after ∧ t.register spec = .ok t' ∧
      t.nextId = number) ?_ ?_ h number record hrecord
  · intro number record hrecord
    rw [hstart] at hrecord
    cases hrecord
  · intro before event t t' ht hfire ih number record hrecord
    cases hold : t.records.get? number with
    | some old =>
      obtain ⟨spec, u, u', after, hoccurs, hrest⟩ := ih number old hold
      exact ⟨spec, u, u', after ++ [event], hoccurs.snoc event, hrest⟩
    | none =>
      have htransition := transition_of_fire? hfire
      obtain ⟨spec, -, -, rfl, rfl, -, -⟩ :=
        htransition.change.profile_new (profile_of_get? hrecord) (by simp [frame, profilesOf, hold])
      cases htransition with
      | refuse => exact absurd hold (by simp [hrecord])
      | register hfresh =>
        refine ⟨spec, t, _, [], Occurs.last ht hfire, ?_, rfl⟩
        simp only [State.register, hfresh]

end State

end CronDaemon.Scheduler
