import CronDaemon.Cron.Schedule
import CronDaemon.Fault

/-!
# Values of the fields that are read

Reading a field gives a set that is not empty and whose values lie in the bound of the field. So the
five sets of an expression admit at least one value each.
-/

namespace CronDaemon.Cron

namespace FieldSet

/-- Every value of a set lies in the bound of a field. -/
def IsWithin (set : FieldSet) (field : Field) : Prop :=
  ∀ v, set.contains v = true → field.min ≤ v ∧ v ≤ field.max

/-- Values within the bound keep a set within the bound. -/
theorem IsWithin.foldl_insert {field : Field} {vs : List Nat}
    (hvs : ∀ v ∈ vs, field.min ≤ v ∧ v ≤ field.max) {set : FieldSet} (hset : set.IsWithin field) :
    (vs.foldl insert set).IsWithin field := by
  induction vs generalizing set with
  | nil => exact hset
  | cons a vs ih =>
    refine ih (fun v hv => hvs v (List.mem_cons_of_mem _ hv)) fun v hv => ?_
    rw [contains_insert, Bool.or_eq_true] at hv
    rcases hv with hv | hv
    · exact hset v hv
    · simp only [Bool.and_eq_true, decide_eq_true_eq] at hv
      exact hv.2 ▸ hvs a List.mem_cons_self

/-- Steps between two ends stay between them. -/
theorem mem_stepped_bounds {lo hi step v : Nat} (hle : lo ≤ hi) (h : v ∈ stepped lo hi step) :
    lo ≤ v ∧ v ≤ hi := by
  obtain ⟨i, hi', rfl⟩ := List.mem_range'.1 h
  have hmul : step * i ≤ step * ((hi - lo) / step) :=
    Nat.mul_le_mul_left _ (Nat.lt_succ_iff.1 hi')
  have hdiv : step * ((hi - lo) / step) ≤ hi - lo := Nat.mul_div_le _ _
  omega

end FieldSet

theorem parseValue_bounds {field : Field} {s : List Char} {v : Nat}
    (h : parseValue field s = .ok v) : field.min ≤ v ∧ v ≤ field.max := by
  unfold parseValue at h
  split at h
  · cases h
  · split at h
    · next hv => cases h; exact hv
    · cases h

/-- The ends of a part are in order and within the bound. -/
theorem parseSpan_bounds {field : Field} {base whole : List Char} {stepped : Bool} {lo hi : Nat}
    (h : parseSpan field base stepped whole = .ok (lo, hi)) :
    field.min ≤ lo ∧ lo ≤ hi ∧ hi ≤ field.max := by
  unfold parseSpan at h
  split at h
  · cases h
    exact ⟨Nat.le_refl _, by cases field <;> decide, Nat.le_refl _⟩
  · split at h
    · obtain ⟨lo', hlo, h⟩ := bind_eq_ok_iff.1 h
      obtain ⟨hi', hhi, h⟩ := bind_eq_ok_iff.1 h
      have hlo := parseValue_bounds hlo
      have hhi := parseValue_bounds hhi
      split at h
      · cases h
      · cases h
        exact ⟨hlo.1, by omega, hhi.2⟩
    · split at h
      · cases h
      · obtain ⟨v, hv, h⟩ := bind_eq_ok_iff.1 h
        cases h
        have hv := parseValue_bounds hv
        exact ⟨hv.1, Nat.le_refl _, hv.2⟩

/-- The values of a part lie in the bound. -/
theorem parsePart_bounds {field : Field} {part : List Char} {vs : List Nat}
    (h : parsePart field part = .ok vs) : ∀ v ∈ vs, field.min ≤ v ∧ v ≤ field.max := by
  have key : ∀ {base : List Char} {stepped : Bool} {lo hi step : Nat},
      parseSpan field base stepped part = .ok (lo, hi) →
      ∀ v ∈ FieldSet.stepped lo hi step, field.min ≤ v ∧ v ≤ field.max := by
    intro base stepped lo hi step hspan v hv
    obtain ⟨h₁, h₂, h₃⟩ := parseSpan_bounds hspan
    have := FieldSet.mem_stepped_bounds h₂ hv
    omega
  unfold parsePart at h
  split at h
  · obtain ⟨n, -, h⟩ := bind_eq_ok_iff.1 h
    obtain ⟨ends, hspan, h⟩ := bind_eq_ok_iff.1 h
    cases h
    exact key hspan
  · obtain ⟨ends, hspan, h⟩ := bind_eq_ok_iff.1 h
    cases h
    exact key hspan

theorem parseParts_isWithin {field : Field} {parts : List (List Char)} {set r : FieldSet}
    (hset : set.IsWithin field) (h : parseParts field set parts = .ok r) : r.IsWithin field := by
  induction parts generalizing set with
  | nil => cases h; exact hset
  | cons part parts ih =>
    obtain ⟨vs, hpart, h⟩ := bind_eq_ok_iff.1 h
    exact ih (hset.foldl_insert (parsePart_bounds hpart)) h

/-- A field that is read admits a value, and all its values lie in the bound. -/
theorem parseField_values {field : Field} {s : List Char} {set : FieldSet}
    (h : parseField field s = .ok set) :
    set.IsWithin field ∧ ∃ v, set.contains v = true := by
  obtain ⟨r, hparts, h⟩ := bind_eq_ok_iff.1 h
  split at h
  · cases h
  · next hempty =>
    cases h
    refine ⟨parseParts_isWithin (fun v hv => by simp at hv) hparts, ?_⟩
    simpa [FieldSet.isEmpty_iff] using hempty

namespace CronFields

/-- Every field admits a value within its bound. -/
def HasValues (fields : CronFields) : Prop :=
  ∀ field : Field, ∃ v, field.min ≤ v ∧ v ≤ field.max ∧ (fields.get field).contains v = true

/-- The fields of an expression have values. -/
theorem hasValues_of_parse {s : List Char} {fields : CronFields}
    (h : CronFields.parse s = .ok fields) : fields.HasValues := by
  have key : ∀ {field : Field} {w : List Char} {set : FieldSet}, parseField field w = .ok set →
      ∃ v, field.min ≤ v ∧ v ≤ field.max ∧ set.contains v = true := by
    intro field w set hw
    obtain ⟨hwithin, v, hv⟩ := parseField_values hw
    exact ⟨v, (hwithin v hv).1, (hwithin v hv).2, hv⟩
  unfold CronFields.parse at h
  split at h
  · obtain ⟨minute, hminute, h⟩ := bind_eq_ok_iff.1 h
    obtain ⟨hour, hhour, h⟩ := bind_eq_ok_iff.1 h
    obtain ⟨dayOfMonth, hdayOfMonth, h⟩ := bind_eq_ok_iff.1 h
    obtain ⟨month, hmonth, h⟩ := bind_eq_ok_iff.1 h
    obtain ⟨dayOfWeek, hdayOfWeek, h⟩ := bind_eq_ok_iff.1 h
    cases h
    intro field
    cases field
    · exact key hminute
    · exact key hhour
    · exact key hdayOfMonth
    · exact key hmonth
    · exact key hdayOfWeek
  · cases h

end CronFields

end CronDaemon.Cron
