import CronDaemon.Proofs.Scheduler.Ledger

/-!
# Sound ledgers

A ledger is sound if no number is used twice, if the journal and the runs agree on which runs are
outstanding, and if each record says that its task is running exactly while one run holds it. Every
move keeps a ledger sound; only a run that passes the guard or is recorded changes which runs hold a
record.
-/

namespace CronDaemon.Scheduler

open Job

namespace Ledger

variable {H : Type} {l l' : Ledger H} {trouble : Prop}

/-- Whether a record says that its task is running, if there is such a record. -/
def isRunning? (l : Ledger H) (record : Nat) : Option Bool :=
  (l.records.get? record).map fun record => record.status = .running

/-- The record of a run, and whether the run has passed the guard, if there is such a run. -/
def standing? (l : Ledger H) (id : Nat) : Option (Nat × Bool) :=
  (l.runs.get? id).map fun run => (run.record, run.phase ≠ .spawned)

/-- The run has passed the guard of the record, and is not recorded. -/
def Holds (l : Ledger H) (record id : Nat) : Prop := l.standing? id = some (record, true)

/-- No number in use is used again, and every run stands on a record. -/
structure IsFresh (l : Ledger H) : Prop where
  record_lt : ∀ {r b}, l.isRunning? r = some b → r < l.nextId
  run_lt : ∀ {id r b}, l.standing? id = some (r, b) → id < l.nextId
  known : ∀ {id r b}, l.standing? id = some (r, b) → ∃ c, l.isRunning? r = some c
  passed_lt : ∀ {id r}, HasPassed l.journal r id → id < l.nextId

/-- The journal and the runs agree on which runs are outstanding. -/
structure IsKept (l : Ledger H) : Prop where
  not_passed : ∀ {id r r'}, l.standing? id = some (r, false) → ¬ HasPassed l.journal r' id
  passed_of_recorded : ∀ {id}, IsRecorded l.journal id → ∃ r, HasPassed l.journal r id
  outstanding_iff : ∀ {r id}, IsOutstanding l.journal r id ↔ l.Holds r id

/-- A record says that its task is running exactly while one run holds it. -/
structure IsGuarded (l : Ledger H) : Prop where
  running_iff : ∀ {r b}, l.isRunning? r = some b → (b = true ↔ ∃ id, l.Holds r id)
  unique : ∀ {r id id'}, l.Holds r id → l.Holds r id' → id = id'

/-- What is true of the ledger of every reachable state. -/
structure IsSound (l : Ledger H) : Prop where
  fresh : l.IsFresh
  kept : l.IsKept
  guarded : l.IsGuarded

/-- Numbers stay fresh through a change that uses up those of new records and runs. -/
theorem IsFresh.mono (hl : l.IsFresh) (hnext : l.nextId ≤ l'.nextId)
    (hrecords : ∀ r b, l'.isRunning? r = some b → (∃ c, l.isRunning? r = some c) ∨ r < l'.nextId)
    (hstay : ∀ r b, l.isRunning? r = some b → ∃ c, l'.isRunning? r = some c)
    (hruns : ∀ id r b, l'.standing? id = some (r, b) →
      (∃ c, l.standing? id = some (r, c)) ∨ id < l'.nextId ∧ ∃ c, l.isRunning? r = some c)
    (hpassed : ∀ r id, HasPassed l'.journal r id → HasPassed l.journal r id ∨ id < l'.nextId) :
    l'.IsFresh where
  record_lt h := by
    rcases hrecords _ _ h with ⟨c, hc⟩ | hlt
    · exact Nat.lt_of_lt_of_le (hl.record_lt hc) hnext
    · exact hlt
  run_lt h := by
    rcases hruns _ _ _ h with ⟨c, hc⟩ | ⟨hlt, -⟩
    · exact Nat.lt_of_lt_of_le (hl.run_lt hc) hnext
    · exact hlt
  known h := by
    rcases hruns _ _ _ h with ⟨c, hc⟩ | ⟨-, c, hc⟩
    · obtain ⟨d, hd⟩ := hl.known hc
      exact hstay _ _ hd
    · exact hstay _ _ hc
  passed_lt h := by
    rcases hpassed _ _ h with hold | hlt
    · exact Nat.lt_of_lt_of_le (hl.passed_lt hold) hnext
    · exact hlt

/-- The journal stays in agreement with the runs as long as no run comes to hold a record or leaves
it. -/
theorem IsKept.congr (hl : l.IsKept)
    (hspawned : ∀ id r, l'.standing? id = some (r, false) →
      l.standing? id = some (r, false) ∨ ∀ r', ¬ HasPassed l.journal r' id)
    (hholds : ∀ r id, l'.Holds r id ↔ l.Holds r id)
    (hpassed : ∀ r id, HasPassed l'.journal r id ↔ HasPassed l.journal r id)
    (hrecorded : ∀ id, IsRecorded l'.journal id ↔ IsRecorded l.journal id) : l'.IsKept where
  not_passed h := by
    rw [hpassed]
    rcases hspawned _ _ h with hold | hnot
    · exact hl.not_passed hold
    · exact hnot _
  passed_of_recorded h := by
    obtain ⟨r, hr⟩ := hl.passed_of_recorded ((hrecorded _).1 h)
    exact ⟨r, (hpassed _ _).2 hr⟩
  outstanding_iff := by
    intro r id
    rw [IsOutstanding, hpassed, hrecorded, hholds]
    exact hl.outstanding_iff

/-- The guard stays right as long as no run comes to hold a record or leaves it. -/
theorem IsGuarded.congr (hl : l.IsGuarded)
    (hrecords : ∀ r b, l'.isRunning? r = some b →
      l.isRunning? r = some b ∨ b = false ∧ ∀ id, ¬ l.Holds r id)
    (hholds : ∀ r id, l'.Holds r id ↔ l.Holds r id) : l'.IsGuarded where
  running_iff := by
    intro r b h
    simp only [hholds]
    rcases hrecords _ _ h with hold | ⟨rfl, hnot⟩
    · exact hl.running_iff hold
    · simp [hnot]
  unique h h' := hl.unique ((hholds _ _).1 h) ((hholds _ _).1 h')

/-- The journal and the runs still agree once a run has passed the guard. -/
theorem IsKept.pass (hl : l.IsKept) {id record : Nat}
    (hrun : l.standing? id = some (record, false))
    (hruns : ∀ k, l'.standing? k = if id = k then some (record, true) else l.standing? k)
    (hpassed : ∀ r k, HasPassed l'.journal r k ↔ k = id ∧ r = record ∨ HasPassed l.journal r k)
    (hrecorded : ∀ k, IsRecorded l'.journal k ↔ IsRecorded l.journal k) : l'.IsKept where
  not_passed := by
    intro k r r' h
    rw [hruns] at h
    split at h
    · simp at h
    · next hne =>
      rw [hpassed]
      rintro (⟨rfl, -⟩ | hold)
      · exact hne rfl
      · exact hl.not_passed h hold
  passed_of_recorded h := by
    obtain ⟨r, hr⟩ := hl.passed_of_recorded ((hrecorded _).1 h)
    exact ⟨r, (hpassed _ _).2 (.inr hr)⟩
  outstanding_iff := by
    intro r k
    have hnew : ∀ r', ¬ HasPassed l.journal r' id := fun r' => hl.not_passed hrun
    have hunrecorded : ¬ IsRecorded l.journal id := by
      intro h
      obtain ⟨r', hr'⟩ := hl.passed_of_recorded h
      exact hnew r' hr'
    rw [IsOutstanding, hpassed, hrecorded, Holds, hruns]
    by_cases hk : id = k
    · subst hk
      simp [hnew, hunrecorded, eq_comm]
    · have hk' : k ≠ id := fun e => hk e.symm
      simp only [hk, hk', if_false, false_and, false_or]
      exact hl.outstanding_iff

/-- A run that passes the guard of a record becomes the only one that holds it. -/
theorem IsGuarded.pass (hl : l.IsGuarded) {id record : Nat}
    (hfree : l.isRunning? record = some false)
    (hrecords : ∀ r, l'.isRunning? r = if record = r then some true else l.isRunning? r)
    (hruns : ∀ k, l'.standing? k = if id = k then some (record, true) else l.standing? k)
    (hrun : l.standing? id = some (record, false)) : l'.IsGuarded := by
  have hnone : ∀ k, ¬ l.Holds record k := by
    intro k hk
    exact Bool.false_ne_true ((hl.running_iff hfree).2 ⟨k, hk⟩)
  have hholds : ∀ r k, l'.Holds r k ↔ k = id ∧ r = record ∨ l.Holds r k := by
    intro r k
    simp only [Holds, hruns]
    by_cases hk : id = k
    · subst hk
      simp [hrun, eq_comm]
    · have hk' : k ≠ id := fun e => hk e.symm
      simp [hk, hk']
  constructor
  · intro r b h
    rw [hrecords] at h
    split at h
    · next he =>
      subst he
      cases h
      simp [hholds]
    · next hne =>
      have hne' : r ≠ record := fun e => hne e.symm
      simp only [hholds, hne', and_false, false_or]
      exact hl.running_iff h
  · intro r k k' h h'
    rcases (hholds _ _).1 h with ⟨rfl, rfl⟩ | h <;> rcases (hholds _ _).1 h' with ⟨rfl, he⟩ | h'
    · rfl
    · exact absurd h' (hnone _)
    · exact absurd (he ▸ h) (hnone _)
    · exact hl.unique h h'

/-- The journal and the runs still agree once a run was recorded. -/
theorem IsKept.record (hl : l.IsKept) {id record : Nat} (hrun : l.Holds record id)
    (hruns : ∀ k, l'.standing? k = if id = k then none else l.standing? k)
    (hpassed : ∀ r k, HasPassed l'.journal r k ↔ HasPassed l.journal r k)
    (hrecorded : ∀ k, IsRecorded l'.journal k ↔ k = id ∨ IsRecorded l.journal k) : l'.IsKept where
  not_passed := by
    intro k r r' h
    rw [hruns] at h
    split at h
    · cases h
    · rw [hpassed]
      exact hl.not_passed h
  passed_of_recorded := by
    intro k h
    simp only [hpassed]
    rcases (hrecorded _).1 h with rfl | hold
    · exact ⟨record, (hl.outstanding_iff.2 hrun).1⟩
    · exact hl.passed_of_recorded hold
  outstanding_iff := by
    intro r k
    rw [IsOutstanding, hpassed, hrecorded, Holds, hruns]
    by_cases hk : id = k
    · simp [hk]
    · have hk' : k ≠ id := fun e => hk e.symm
      simp only [hk, hk', if_false, false_or]
      exact hl.outstanding_iff

/-- A run that is recorded leaves the record it held to the next one. -/
theorem IsGuarded.record (hl : l.IsGuarded) {id record : Nat} (hrun : l.Holds record id)
    (hrecords : ∀ r, l'.isRunning? r = if record = r then some false else l.isRunning? r)
    (hruns : ∀ k, l'.standing? k = if id = k then none else l.standing? k) : l'.IsGuarded := by
  have hholds : ∀ r k, l'.Holds r k ↔ r ≠ record ∧ l.Holds r k := by
    intro r k
    rw [Holds, hruns]
    by_cases hk : id = k
    · subst hk
      simp only [if_true, reduceCtorEq, false_iff, not_and]
      intro hne h
      have hsame : some (r, true) = some (record, true) := h.symm.trans hrun
      simp at hsame
      exact hne hsame
    · simp only [hk, if_false]
      refine ⟨fun h => ⟨?_, h⟩, fun h => h.2⟩
      rintro rfl
      exact hk (hl.unique hrun h)
  constructor
  · intro r b h
    rw [hrecords] at h
    split at h
    · next he =>
      subst he
      cases h
      simp [hholds]
    · next hne =>
      have hne' : r ≠ record := fun e => hne e.symm
      simp only [hholds, hne', ne_eq, not_false_eq_true, true_and]
      exact hl.running_iff h
  · intro r k k' h h'
    exact hl.unique ((hholds _ _).1 h).2 ((hholds _ _).1 h').2

/-- A change of one record that leaves it as it is whether its task is running. -/
theorem isRunning?_insert_of_iff {record : Nat} {before after : Record H}
    (hbefore : l.records.get? record = some before)
    (h : after.status = .running ↔ before.status = .running)
    (hl' : l'.records = l.records.insert record after) (r : Nat) :
    l'.isRunning? r = l.isRunning? r := by
  simp only [isRunning?, hl', Table.get?_insert]
  split
  · next he =>
    subst he
    simp [hbefore, h]
  · rfl

/-- A record that is put in tells whether its own task is running. -/
theorem isRunning?_insert {record : Nat} {after : Record H}
    (hl' : l'.records = l.records.insert record after) (r : Nat) :
    l'.isRunning? r =
      if record = r then some (decide (after.status = .running)) else l.isRunning? r := by
  simp only [isRunning?, hl', Table.get?_insert]
  split <;> rfl

/-- An edit of a record leaves whether its task is running. -/
theorem isRunning?_edit {number : Nat} {change : Record H → Record H}
    (h : ∀ record : Record H, record.Edit (change record))
    (hl' : l'.records = l.records.modify number change) (r : Nat) :
    l'.isRunning? r = l.isRunning? r := by
  simp only [isRunning?, hl', Table.get?_modify]
  split
  · next he =>
    subst he
    simp [Option.map_map, Function.comp_def, (h _).status_eq_running_iff]
  · rfl

/-- A run that is put in stands on its own record. -/
theorem standing?_insert {id : Nat} {run : Run} (hl' : l'.runs = l.runs.insert id run) (k : Nat) :
    l'.standing? k =
      if id = k then some (run.record, decide (run.phase ≠ .spawned)) else l.standing? k := by
  simp only [standing?, hl', Table.get?_insert]
  split <;> rfl

/-- A run that is dropped stands nowhere. -/
theorem standing?_erase {id : Nat} (hl' : l'.runs = l.runs.erase id) (k : Nat) :
    l'.standing? k = if id = k then none else l.standing? k := by
  simp only [standing?, hl', Table.get?_erase]
  split <;> rfl

/-- A run that enters a phase behind the guard has passed it. -/
theorem standing?_setPhase {id : Nat} {run : Run} {phase : Phase}
    (hrun : l.runs.get? id = some run)
    (hl' : l'.runs = l.runs.modify id fun run => { run with phase := phase }) (k : Nat) :
    l'.standing? k =
      if id = k then some (run.record, decide (phase ≠ .spawned)) else l.standing? k := by
  simp only [standing?, hl', Table.get?_modify]
  split
  · next he =>
    subst he
    rw [hrun]
    rfl
  · rfl

/-- A ledger is sound if it tells the same as a sound one. -/
theorem IsSound.congr (hl : l.IsSound) (hnext : l.nextId ≤ l'.nextId)
    (hrecords : ∀ r, l'.isRunning? r = l.isRunning? r)
    (hruns : ∀ id, l'.standing? id = l.standing? id)
    (hpassed : ∀ r id, HasPassed l'.journal r id ↔ HasPassed l.journal r id)
    (hrecorded : ∀ id, IsRecorded l'.journal id ↔ IsRecorded l.journal id) : l'.IsSound where
  fresh := by
    refine hl.fresh.mono hnext (fun r b h => .inl ⟨b, hrecords r ▸ h⟩) (fun r b h => ⟨b, ?_⟩)
      (fun id r b h => .inl ⟨b, hruns id ▸ h⟩) (fun r id h => .inl ((hpassed r id).1 h))
    rw [hrecords]
    exact h
  kept := by
    refine hl.kept.congr (fun id r h => .inl (hruns id ▸ h)) (fun r id => ?_) hpassed hrecorded
    rw [Holds, hruns, Holds]
  guarded := by
    refine hl.guarded.congr (fun r b h => .inl (hrecords r ▸ h)) (fun r id => ?_)
    rw [Holds, hruns, Holds]

/-- A run that goes on is past the guard of its record. -/
theorem holds_of_active {id : Nat} {run : Run} (hrun : l.runs.get? id = some run)
    (h : run.phase.isActive = true) : l.Holds run.record id := by
  simp [Holds, standing?, hrun, Phase.ne_spawned_of_isActive h]

/-- A run that was not looked at yet has not passed the guard. -/
theorem standing?_of_spawned {id : Nat} {run : Run} (hrun : l.runs.get? id = some run)
    (h : run.phase = .spawned) : l.standing? id = some (run.record, false) := by
  simp [standing?, hrun, h]

/-- A run that goes on or breaks off behind the guard still holds its record. -/
theorem standing?_setPhase_of_active {id : Nat} {run : Run} {phase : Phase}
    (hrun : l.runs.get? id = some run) (hactive : run.phase.isActive = true)
    (h : phase ≠ .spawned)
    (hl' : l'.runs = l.runs.modify id fun run => { run with phase := phase }) (k : Nat) :
    l'.standing? k = l.standing? k := by
  rw [standing?_setPhase hrun hl']
  split
  · next he =>
    subst he
    rw [show l.standing? id = some (run.record, true) from holds_of_active hrun hactive]
    simp [h]
  · rfl

/-- A fresh record is not held. -/
theorem IsSound.enroll (hl : l.IsSound) (hnext : l'.nextId = l.nextId + 1)
    (hrecords : ∀ r, l'.isRunning? r = if l.nextId = r then some false else l.isRunning? r)
    (hruns : ∀ id, l'.standing? id = l.standing? id)
    (hpassed : ∀ r id, HasPassed l'.journal r id ↔ HasPassed l.journal r id)
    (hrecorded : ∀ id, IsRecorded l'.journal id ↔ IsRecorded l.journal id) : l'.IsSound := by
  have hfree : ∀ id, ¬ l.Holds l.nextId id := by
    intro id h
    obtain ⟨c, hc⟩ := hl.fresh.known h
    exact Nat.lt_irrefl _ (hl.fresh.record_lt hc)
  have hholds : ∀ r id, l'.Holds r id ↔ l.Holds r id := by
    intro r id
    rw [Holds, hruns, Holds]
  refine ⟨hl.fresh.mono (by omega) ?_ ?_ (fun id r b h => .inl ⟨b, hruns id ▸ h⟩)
    (fun r id h => .inl ((hpassed r id).1 h)),
    hl.kept.congr (fun id r h => .inl (hruns id ▸ h)) hholds hpassed hrecorded,
    hl.guarded.congr ?_ hholds⟩
  · intro r b h
    rw [hrecords] at h
    split at h
    · right
      omega
    · exact .inl ⟨b, h⟩
  · intro r b h
    rw [hrecords]
    split
    · exact ⟨false, rfl⟩
    · exact ⟨b, h⟩
  · intro r b h
    rw [hrecords] at h
    split at h
    · next he =>
      subst he
      exact .inr ⟨(Option.some.inj h).symm, hfree⟩
    · exact .inl h

/-- A spawned run holds nothing yet. -/
theorem IsSound.spawn (hl : l.IsSound) {record : Nat} {c : Bool}
    (hknown : l.isRunning? record = some c) (hnext : l'.nextId = l.nextId + 1)
    (hrecords : ∀ r, l'.isRunning? r = l.isRunning? r)
    (hruns : ∀ id, l'.standing? id = if l.nextId = id then some (record, false) else l.standing? id)
    (hjournal : l'.journal = l.journal) : l'.IsSound := by
  have hunused : ∀ r b, l.standing? l.nextId ≠ some (r, b) := by
    intro r b h
    exact Nat.lt_irrefl _ (hl.fresh.run_lt h)
  have hholds : ∀ r id, l'.Holds r id ↔ l.Holds r id := by
    intro r id
    rw [Holds, hruns, Holds]
    split
    · next he =>
      subst he
      simp [hunused]
    · rfl
  refine ⟨hl.fresh.mono (by omega) (fun r b h => .inl ⟨b, hrecords r ▸ h⟩)
    (fun r b h => ⟨b, (hrecords r).trans h⟩) ?_ (fun r id h => .inl (hjournal ▸ h)),
    hl.kept.congr ?_ hholds (by simp [hjournal]) (by simp [hjournal]),
    hl.guarded.congr (fun r b h => .inl (hrecords r ▸ h)) hholds⟩
  · intro id r b h
    rw [hruns] at h
    split at h
    · cases h
      exact .inr ⟨by omega, c, hknown⟩
    · exact .inl ⟨b, h⟩
  · intro id r h
    rw [hruns] at h
    split at h
    · next he =>
      subst he
      exact .inr fun r' hr' => Nat.lt_irrefl _ (hl.fresh.passed_lt hr')
    · exact .inl h

/-- A run that has not passed the guard can be dropped. -/
theorem IsSound.drop (hl : l.IsSound) {id record : Nat}
    (hrun : l.standing? id = some (record, false)) (hnext : l'.nextId = l.nextId)
    (hrecords : ∀ r, l'.isRunning? r = l.isRunning? r)
    (hruns : ∀ k, l'.standing? k = if id = k then none else l.standing? k)
    (hjournal : l'.journal = l.journal) : l'.IsSound := by
  have hsub : ∀ k r b, l'.standing? k = some (r, b) → l.standing? k = some (r, b) := by
    intro k r b h
    rw [hruns] at h
    split at h
    · cases h
    · exact h
  have hholds : ∀ r k, l'.Holds r k ↔ l.Holds r k := by
    intro r k
    rw [Holds, hruns, Holds]
    split
    · next he =>
      subst he
      simp [hrun]
    · rfl
  exact ⟨hl.fresh.mono (by omega) (fun r b h => .inl ⟨b, hrecords r ▸ h⟩)
    (fun r b h => ⟨b, (hrecords r).trans h⟩) (fun k r b h => .inl ⟨b, hsub k r b h⟩)
    (fun r k h => .inl (hjournal ▸ h)),
    hl.kept.congr (fun k r h => .inl (hsub k r false h)) hholds (by simp [hjournal])
      (by simp [hjournal]),
    hl.guarded.congr (fun r b h => .inl (hrecords r ▸ h)) hholds⟩

/-- A ledger stays sound as a run passes the guard of a task that is not running. -/
theorem IsSound.pass (hl : l.IsSound) {id record : Nat} (hnext : l'.nextId = l.nextId)
    (hrun : l.standing? id = some (record, false)) (hfree : l.isRunning? record = some false)
    (hrecords : ∀ r, l'.isRunning? r = if record = r then some true else l.isRunning? r)
    (hruns : ∀ k, l'.standing? k = if id = k then some (record, true) else l.standing? k)
    (hpassed : ∀ r k, HasPassed l'.journal r k ↔ k = id ∧ r = record ∨ HasPassed l.journal r k)
    (hrecorded : ∀ k, IsRecorded l'.journal k ↔ IsRecorded l.journal k) : l'.IsSound := by
  refine ⟨hl.fresh.mono (by omega) ?_ ?_ ?_ ?_, hl.kept.pass hrun hruns hpassed hrecorded,
    hl.guarded.pass hfree hrecords hruns hrun⟩
  · intro r b h
    rw [hrecords] at h
    split at h
    · next he => exact .inl ⟨false, he ▸ hfree⟩
    · exact .inl ⟨b, h⟩
  · intro r b h
    rw [hrecords]
    split
    · exact ⟨true, rfl⟩
    · exact ⟨b, h⟩
  · intro k r b h
    rw [hruns] at h
    split at h
    · next he =>
      cases h
      exact .inl ⟨false, he ▸ hrun⟩
    · exact .inl ⟨b, h⟩
  · intro r k h
    rcases (hpassed r k).1 h with ⟨rfl, -⟩ | hold
    · exact .inr (hnext ▸ hl.fresh.run_lt hrun)
    · exact .inl hold

/-- A ledger stays sound as a run past the guard is recorded. -/
theorem IsSound.record (hl : l.IsSound) {id record : Nat} (hnext : l'.nextId = l.nextId)
    (hrun : l.Holds record id)
    (hrecords : ∀ r, l'.isRunning? r = if record = r then some false else l.isRunning? r)
    (hruns : ∀ k, l'.standing? k = if id = k then none else l.standing? k)
    (hpassed : ∀ r k, HasPassed l'.journal r k ↔ HasPassed l.journal r k)
    (hrecorded : ∀ k, IsRecorded l'.journal k ↔ k = id ∨ IsRecorded l.journal k) : l'.IsSound := by
  obtain ⟨c, hknown⟩ := hl.fresh.known hrun
  refine ⟨hl.fresh.mono (by omega) ?_ ?_ ?_ (fun r k h => .inl ((hpassed r k).1 h)),
    hl.kept.record hrun hruns hpassed hrecorded, hl.guarded.record hrun hrecords hruns⟩
  · intro r b h
    rw [hrecords] at h
    split at h
    · next he => exact .inl ⟨c, he ▸ hknown⟩
    · exact .inl ⟨b, h⟩
  · intro r b h
    rw [hrecords]
    split
    · exact ⟨false, rfl⟩
    · exact ⟨b, h⟩
  · intro k r b h
    rw [hruns] at h
    split at h
    · cases h
    · exact .inl ⟨b, h⟩

/-- Each move keeps the ledger sound. -/
theorem Move.isSound (hl : l.IsSound) (move : Move trouble l l') : l'.IsSound := by
  -- Five moves change what soundness speaks about, each with a lemma; the others leave it alone.
  cases move with
  | skip =>
    exact hl.congr (Nat.le_succ _) (fun _ => rfl) (fun _ => rfl)
      (fun _ _ => Iff.rfl) fun _ => Iff.rfl
  | remark entry h =>
    exact hl.congr (Nat.le_refl _) (fun _ => rfl) (fun _ => rfl)
      (fun _ _ => hasPassed_cons_of_isRemark h) fun _ => isRecorded_cons_of_isRemark h
  | enroll record spec clock now h =>
    refine hl.enroll rfl (fun r => ?_) (fun _ => rfl) (by simp [hasPassed_cons])
      (by simp [isRecorded_cons])
    rw [isRunning?_insert rfl, Record.status_ofSpec h]
    rfl
  | edit number change h =>
    exact hl.congr (Nat.le_refl _) (isRunning?_edit h rfl) (fun _ => rfl) (fun _ _ => Iff.rfl)
      fun _ => Iff.rfl
  | refresh number before after now hbefore h =>
    refine hl.congr (Nat.le_refl _) (isRunning?_insert_of_iff hbefore ?_ rfl) (fun _ => rfl)
      (by simp [hasPassed_cons]) (by simp [isRecorded_cons])
    rw [Record.status_refreshed h]
  | spawn record trigger owner h =>
    obtain ⟨before, hbefore⟩ := Option.isSome_iff_exists.1 h
    have hknown : l.isRunning? record = some (decide (before.status = .running)) := by
      simp [isRunning?, hbefore]
    refine hl.spawn hknown rfl (fun _ => rfl) (fun id => ?_) rfl
    rw [standing?_insert rfl]
    rfl
  | drop id run hrun h =>
    exact hl.drop (standing?_of_spawned hrun h) rfl (fun _ => rfl) (standing?_erase rfl) rfl
  | pass id run record phase moment now hrun hspawned hrecord hfree h =>
    refine hl.pass rfl (standing?_of_spawned hrun hspawned) ?_ (fun r => ?_) (fun k => ?_) ?_ ?_
    · simp [isRunning?, hrecord, hfree]
    · simp only [isRunning?, Table.get?_modify]
      split
      · next he =>
        subst he
        simp [hrecord]
      · rfl
    · rw [standing?_setPhase hrun rfl]
      simp [Phase.ne_spawned_of_isActive h]
    · simp [hasPassed_cons, eq_comm]
    · simp [isRecorded_cons]
  | advance id run phase hrun hactive h =>
    have hphase := Phase.ne_spawned_of_isActive h
    exact hl.congr (Nat.le_refl _) (fun _ => rfl)
      (standing?_setPhase_of_active hrun hactive hphase rfl) (fun _ _ => Iff.rfl) fun _ => Iff.rfl
  | strand id run htrouble hrun hactive =>
    exact hl.congr (Nat.le_refl _) (fun _ => rfl)
      (standing?_setPhase_of_active hrun hactive (by simp) rfl)
        (fun _ _ => Iff.rfl) fun _ => Iff.rfl
  | record id run result now before after hrun hactive hbefore h =>
    refine hl.record rfl (holds_of_active hrun hactive) (fun r => ?_) (standing?_erase rfl) ?_ ?_
    · rw [isRunning?_insert rfl, decide_eq_false (Record.status_recorded h)]
    · simp [hasPassed_cons]
    · simp [isRecorded_cons, eq_comm]

/-- Moves keep a ledger sound. -/
theorem Moves.isSound (hl : l.IsSound) (moves : Moves trouble l l') : l'.IsSound := by
  induction moves with
  | refl => exact hl
  | tail _ move ih => exact move.isSound ih

/-- No run has broken off behind the guard. -/
def HasNoStranded (l : Ledger H) : Prop := ∀ id run, l.runs.get? id = some run →
    run.phase ≠ .stranded

/-- A run that has not broken off strands nobody as it is put in. -/
theorem HasNoStranded.insert (hl : l.HasNoStranded) {id : Nat} {run : Run}
    (h : run.phase ≠ .stranded) (hl' : l'.runs = l.runs.insert id run) : l'.HasNoStranded := by
  intro k run' hrun
  rw [hl', Table.get?_insert] at hrun
  split at hrun
  · cases hrun
    exact h
  · exact hl k run' hrun

/-- To drop a run strands nobody. -/
theorem HasNoStranded.erase (hl : l.HasNoStranded) {id : Nat} (hl' : l'.runs = l.runs.erase id) :
    l'.HasNoStranded := by
  intro k run' hrun
  rw [hl', Table.get?_erase] at hrun
  split at hrun
  · cases hrun
  · exact hl k run' hrun

/-- A run that goes on strands nobody. -/
theorem HasNoStranded.setPhase (hl : l.HasNoStranded) {id : Nat} {phase : Phase}
    (h : phase.isActive = true)
    (hl' : l'.runs = l.runs.modify id fun run => { run with phase := phase }) :
    l'.HasNoStranded := by
  intro k run' hrun
  rw [hl', Table.get?_modify] at hrun
  split at hrun
  · obtain ⟨run, -, rfl⟩ := Option.map_eq_some_iff.1 hrun
    rintro rfl
    cases h
  · exact hl k run' hrun

/-- Without trouble no run is stranded. -/
theorem Move.hasNoStranded (htrouble : ¬ trouble) (hl : l.HasNoStranded)
    (move : Move trouble l l') : l'.HasNoStranded := by
  cases move with
  | skip | remark | enroll | edit | refresh => exact hl
  | spawn record trigger owner h => exact hl.insert (by simp) rfl
  | drop | record => exact hl.erase rfl
  | pass | advance => exact hl.setPhase (by assumption) rfl
  | strand id run h => exact absurd h htrouble

/-- Without trouble no run is ever stranded. -/
theorem Moves.hasNoStranded (htrouble : ¬ trouble) (hl : l.HasNoStranded)
    (moves : Moves trouble l l') : l'.HasNoStranded := by
  induction moves with
  | refl => exact hl
  | tail _ move ih => exact move.hasNoStranded htrouble ih

/-- A new scheduler has a sound ledger. -/
theorem isSound_initial (options : Options) (now : Instant) :
    (State.initial options now : State H).ledger.IsSound := by
  have hpassed : ∀ r id, ¬ HasPassed (State.initial options now : State H).ledger.journal r id := by
    rintro r id ⟨trigger, moment, now', h⟩
    cases h
  have hrecorded : ∀ id, ¬ IsRecorded (State.initial options now : State H).ledger.journal id := by
    rintro id ⟨record, result, finished, h⟩
    cases h
  refine ⟨⟨nofun, nofun, nofun, fun h => absurd h (hpassed _ _)⟩, ⟨nofun, ?_, ?_⟩, ⟨nofun, nofun⟩⟩
  · exact fun h => absurd h (hrecorded _)
  · exact ⟨fun h => absurd h.1 (hpassed _ _), nofun⟩

end Ledger

end CronDaemon.Scheduler
