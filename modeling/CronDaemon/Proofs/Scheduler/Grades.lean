import CronDaemon.Job.Status

/-!
# The worst of several grades

The health of all tasks together is the worst grade that one of them has. The tasks are gone through
one after the other, and the search ends at the first unhealthy one, as nothing is worse; the grade
that is found does not depend on the order.
-/

namespace CronDaemon.Job.Health

/-- How bad a grade is. -/
def rank : Health → Nat
  | healthy => 0
  | degraded => 1
  | unhealthy => 2

/-- A grade is one of these, and none of them is worse. Where there are none it is healthy. -/
structure IsWorst (worst : Health) (grades : List Health) : Prop where
  mem_or_nil : worst ∈ grades ∨ grades = [] ∧ worst = healthy
  rank_le : ∀ grade ∈ grades, grade.rank ≤ worst.rank

variable {a b worst : Health} {grades grades' : List Health}

theorem eq_of_rank_eq (h : a.rank = b.rank) : a = b := by
  cases a <;> cases b <;> first | rfl | cases h

/-- Going through grades finds the worst of them and the one it began with, which is not
unhealthy. -/
theorem worstFrom_spec (worst : Health) (grades : List Health) (hworst : worst ≠ unhealthy) :
    worstFrom worst grades ∈ worst :: grades ∧
      ∀ grade ∈ worst :: grades, grade.rank ≤ (worstFrom worst grades).rank := by
  induction grades generalizing worst with
  | nil => simp [worstFrom]
  | cons grade grades ih =>
    cases grade with
    | healthy =>
      obtain ⟨hmem, hle⟩ := ih worst hworst
      obtain ⟨hfirst, hrest⟩ := List.forall_mem_cons.1 hle
      refine ⟨?_, List.forall_mem_cons.2 ⟨hfirst, List.forall_mem_cons.2 ⟨Nat.zero_le _, hrest⟩⟩⟩
      rw [worstFrom]
      rcases List.mem_cons.1 hmem with hsame | hlater
      · rw [hsame]
        exact List.mem_cons_self
      · exact List.mem_cons_of_mem _ (List.mem_cons_of_mem _ hlater)
    | degraded =>
      obtain ⟨hmem, hle⟩ := ih degraded nofun
      have hfirst : worst.rank ≤ degraded.rank := by
        cases worst with
        | healthy | degraded => decide
        | unhealthy => exact absurd rfl hworst
      refine ⟨List.mem_cons_of_mem _ hmem, List.forall_mem_cons.2 ⟨?_, hle⟩⟩
      exact Nat.le_trans hfirst (hle _ List.mem_cons_self)
    | unhealthy =>
      rw [worstFrom]
      refine ⟨List.mem_cons_of_mem _ List.mem_cons_self, fun grade _ => ?_⟩
      cases grade <;> decide

/-- The overall grade is the worst one. -/
theorem isWorst_overall (grades : List Health) : (overall grades).IsWorst grades := by
  obtain ⟨hmem, hle⟩ := worstFrom_spec healthy grades nofun
  obtain ⟨-, hle⟩ := List.forall_mem_cons.1 hle
  refine ⟨?_, hle⟩
  cases grades with
  | nil => exact .inr ⟨rfl, rfl⟩
  | cons grade grades =>
    refine .inl ((List.mem_cons.1 hmem).elim (fun hhealthy => ?_) id)
    -- Nothing is worse than healthy, so that the first grade is healthy too.
    have hfirst := hle grade List.mem_cons_self
    have hsame : grade = overall (grade :: grades) := by
      refine eq_of_rank_eq (Nat.le_antisymm hfirst ?_)
      rw [show overall (grade :: grades) = healthy from hhealthy]
      exact Nat.zero_le _
    rw [← hsame]
    exact List.mem_cons_self

/-- There is no more than one worst grade, whatever the order. -/
theorem IsWorst.eq_of_perm (ha : a.IsWorst grades) (hb : b.IsWorst grades')
    (h : grades.Perm grades') : a = b := by
  rcases ha.mem_or_nil, hb.mem_or_nil with ⟨ha' | ⟨rfl, rfl⟩, hb' | ⟨rfl, rfl⟩⟩
  · exact eq_of_rank_eq
      (Nat.le_antisymm (hb.rank_le a (h.mem_iff.1 ha')) (ha.rank_le b (h.mem_iff.2 hb')))
  · exact absurd (h.eq_nil ▸ ha') List.not_mem_nil
  · exact absurd (h.symm.eq_nil ▸ hb') List.not_mem_nil
  · rfl

/-- The overall health does not depend on the order of the tasks. -/
theorem overall_perm (h : grades.Perm grades') : overall grades = overall grades' :=
  (isWorst_overall grades).eq_of_perm (isWorst_overall grades') h

end CronDaemon.Job.Health
