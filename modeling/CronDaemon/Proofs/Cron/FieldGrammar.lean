import CronDaemon.Proofs.Cron.FieldValues
import CronDaemon.Proofs.Text.Pieces

/-!
# The grammar of fields

What a part of a field stands for, and what is wrong with a piece of text that is no part, is told
by the pieces that make it up. Reading a field accepts exactly the parts of this grammar and
collects what they stand for; otherwise it names what is wrong with the first piece that is no part.
-/

namespace CronDaemon.Cron

open Text (IsNumeral)

/-- A text writes a number within the bound of a field. -/
def IsValue (field : Field) (s : List Char) (n : Nat) : Prop :=
  IsNumeral s n ∧ field.min ≤ n ∧ n ≤ field.max

/-- A text writes a positive number of 64 bits. -/
def IsStep (s : List Char) (step : Nat) : Prop := IsNumeral s step ∧ 1 ≤ step ∧ step < 2 ^ 64

/-- A part of a field stands for the numbers from `lo` to `hi` in steps of `step`. -/
inductive Denotes (field : Field) : (part : List Char) → (lo hi step : Nat) → Prop
  | whole : Denotes field ['*'] field.min field.max 1
  | single {s : List Char} {n : Nat} (hs : IsValue field s n) : Denotes field s n n 1
  | range {low high : List Char} {lo hi : Nat} (hlow : IsValue field low lo)
      (hhigh : IsValue field high hi) (hle : lo ≤ hi) : Denotes field (low ++ '-' :: high) lo hi 1
  | wholeStep {s : List Char} {step : Nat} (hs : IsStep s step) :
      Denotes field ('*' :: '/' :: s) field.min field.max step
  | rangeStep {low high s : List Char} {lo hi step : Nat} (hlow : IsValue field low lo)
      (hhigh : IsValue field high hi) (hle : lo ≤ hi) (hs : IsStep s step) :
      Denotes field (low ++ '-' :: high ++ '/' :: s) lo hi step

/-- A text is a part of a field. -/
def IsPart (field : Field) (part : List Char) : Prop := ∃ lo hi step, Denotes field part lo hi step

/-- A part of a field stands for a number. -/
def StandsFor (field : Field) (part : List Char) (v : Nat) : Prop :=
  ∃ lo hi step, Denotes field part lo hi step ∧ v ≤ hi ∧ ∃ i, v = lo + i * step

/-- What is wrong with a text in the place of a value. -/
inductive ValueFault (field : Field) : List Char → CronError → Prop
  | invalid {s : List Char} (h : ∀ n < 2 ^ 32, ¬ IsNumeral s n) :
      ValueFault field s (.invalidValue field (String.ofList s))
  | outOfRange {s : List Char} {n : Nat} (hs : IsNumeral s n) (hfits : n < 2 ^ 32)
      (hout : n < field.min ∨ field.max < n) : ValueFault field s (.outOfRange field n)

/-- What is wrong with a range: its low end comes first, then its high end, then their order. -/
inductive RangeFault (field : Field) : List Char → CronError → Prop
  | low {low high : List Char} {e : CronError} (hdash : '-' ∉ low) (h : ValueFault field low e) :
      RangeFault field (low ++ '-' :: high) e
  | high {low high : List Char} {lo : Nat} {e : CronError} (hlow : IsValue field low lo)
      (h : ValueFault field high e) : RangeFault field (low ++ '-' :: high) e
  | order {low high : List Char} {lo hi : Nat} (hlow : IsValue field low lo)
      (hhigh : IsValue field high hi) (hlt : hi < lo) :
      RangeFault field (low ++ '-' :: high)
        (.invalidRange field (String.ofList (low ++ '-' :: high)))

/-- What is wrong with a text in the place of a part: its step comes first; then a range, or a step
that has nothing to walk over, or a single value. -/
inductive PartFault (field : Field) : List Char → CronError → Prop
  | step {base s : List Char} (hslash : '/' ∉ base) (h : ∀ step, ¬ IsStep s step) :
      PartFault field (base ++ '/' :: s) (.invalidStep field (String.ofList s))
  | steppedRange {base s : List Char} {step : Nat} {e : CronError} (hslash : '/' ∉ base)
      (hs : IsStep s step) (h : RangeFault field base e) : PartFault field (base ++ '/' :: s) e
  | steppedValue {base s : List Char} {step : Nat} (hslash : '/' ∉ base) (hs : IsStep s step)
      (hdash : '-' ∉ base) (hstar : base ≠ ['*']) :
      PartFault field (base ++ '/' :: s) (.invalidStep field (String.ofList (base ++ '/' :: s)))
  | range {s : List Char} {e : CronError} (hslash : '/' ∉ s) (h : RangeFault field s e) :
      PartFault field s e
  | single {s : List Char} {e : CronError} (hslash : '/' ∉ s) (hdash : '-' ∉ s) (hstar : s ≠ ['*'])
      (h : ValueFault field s e) : PartFault field s e

variable {field : Field} {s low high base whole part : List Char} {v n lo hi step : Nat}
  {stepped : Bool} {values : List Nat} {e : CronError}

/-- A numeral holds nothing but digits, after a plus at most. -/
theorem isNumeral_notMem {c : Char} (h : IsNumeral s n) (hdigit : Text.isDigit c = false)
    (hplus : c ≠ '+') : c ∉ s := by
  intro hc
  rcases h.mem hc with hc | hc
  · rw [hdigit] at hc
    cases hc
  · exact hplus hc

/-- So a value holds no dash. -/
theorem IsValue.dash_notMem (h : IsValue field s n) : '-' ∉ s :=
  isNumeral_notMem h.1 (by decide) (by decide)

/-- Nor does it hold a slash. -/
theorem IsValue.slash_notMem (h : IsValue field s n) : '/' ∉ s :=
  isNumeral_notMem h.1 (by decide) (by decide)

theorem IsValue.ne_star (h : IsValue field s n) : s ≠ ['*'] := by
  rintro rfl
  exact isNumeral_notMem (c := '*') h.1 (by decide) (by decide) List.mem_cons_self

theorem max_lt_max32 (field : Field) : field.max ≤ Text.max32 := by
  cases field <;> decide

/-- A value is read exactly from the texts that stand for it. -/
theorem parseValue_eq_ok_iff : parseValue field s = .ok v ↔ IsValue field s v := by
  unfold parseValue
  constructor
  · intro h
    split at h
    · cases h
    · next n hn =>
      split at h <;> cases h
      exact ⟨(Text.numeral?_eq_some_iff.1 hn).1, ‹_›⟩
  · rintro ⟨hs, hbound⟩
    have hfits : v ≤ Text.max32 := hbound.2.trans (max_lt_max32 field)
    simp only [Text.numeral?_eq_some_iff.2 ⟨hs, hfits⟩, if_pos hbound]

/-- A text that is no value is refused with its fault. -/
theorem parseValue_eq_error_iff : parseValue field s = .error e ↔ ValueFault field s e := by
  constructor
  · intro h
    unfold parseValue at h
    split at h
    · next hnone =>
      cases h
      refine .invalid fun n hfits hs => ?_
      rw [Text.numeral?_eq_some_iff.2 ⟨hs, Text.le_max32_iff.2 hfits⟩] at hnone
      cases hnone
    · next n hn =>
      obtain ⟨hs, hfits⟩ := Text.numeral?_eq_some_iff.1 hn
      split at h <;> cases h
      exact .outOfRange hs (Text.le_max32_iff.1 hfits) (by omega)
  · intro h
    cases h with
    | invalid h =>
      have hnone : Text.numeral? Text.max32 s = none := by
        refine Option.eq_none_iff_forall_ne_some.2 fun n hn => ?_
        obtain ⟨hs, hfits⟩ := Text.numeral?_eq_some_iff.1 hn
        exact h n (Text.le_max32_iff.1 hfits) hs
      simp only [parseValue, hnone]
    | outOfRange hs hfits hout =>
      have hn := Text.numeral?_eq_some_iff.2 ⟨hs, Text.le_max32_iff.2 hfits⟩
      simp only [parseValue, hn]
      exact if_neg (by omega)

/-- A step is read exactly from the texts that stand for it. -/
theorem parseStep_eq_ok_iff : parseStep field s = .ok step ↔ IsStep s step := by
  unfold parseStep
  constructor
  · intro h
    split at h
    · next n hn =>
      cases h
      obtain ⟨hs, hfits⟩ := Text.numeral?_eq_some_iff.1 hn
      exact ⟨hs, Nat.le_add_left 1 n, Text.le_max64_iff.1 hfits⟩
    · cases h
  · rintro ⟨hs, hpos, hfits⟩
    obtain ⟨n, rfl⟩ := Nat.exists_eq_add_of_le' hpos
    simp only [Text.numeral?_eq_some_iff.2 ⟨hs, Text.le_max64_iff.2 hfits⟩]

/-- A text that is no step is refused as such. -/
theorem parseStep_eq_error_iff : parseStep field s = .error e ↔
    (∀ step, ¬ IsStep s step) ∧ e = .invalidStep field (String.ofList s) := by
  have herror : ∀ e, parseStep field s = .error e → e = .invalidStep field (String.ofList s) := by
    intro e h
    unfold parseStep at h
    split at h <;> cases h
    rfl
  constructor
  · intro h
    refine ⟨fun step hs => ?_, herror e h⟩
    rw [parseStep_eq_ok_iff.2 hs] at h
    cases h
  · rintro ⟨hno, rfl⟩
    cases h : parseStep field s with
    | ok step => exact absurd (parseStep_eq_ok_iff.1 h) (hno step)
    | error e => rw [herror e h]

/-- A text with a dash is read as a range. -/
theorem parseSpan_range (hdash : '-' ∉ low) :
    parseSpan field (low ++ '-' :: high) stepped whole = do
      let lo ← parseValue field low
      let hi ← parseValue field high
      if hi < lo then throw (.invalidRange field (String.ofList (low ++ '-' :: high)))
      return (lo, hi) := by
  have hstar : low ++ '-' :: high ≠ ['*'] := by
    intro h
    have hmem : '-' ∈ ['*'] := h ▸ List.mem_append_right _ List.mem_cons_self
    exact absurd hmem (by decide)
  rw [parseSpan, if_neg hstar, Text.splitOnce_eq_some_iff.2 ⟨rfl, hdash⟩]

/-- A text without a dash that is no star is read as a value, which no step may follow. -/
theorem parseSpan_value (hdash : '-' ∉ base) (hstar : base ≠ ['*']) :
    parseSpan field base stepped whole =
      if stepped then .error (.invalidStep field (String.ofList whole))
      else (parseValue field base).map fun n => (n, n) := by
  rw [parseSpan, if_neg hstar, Text.splitOnce_eq_none_iff.2 hdash]
  rfl

/-- A base is a star, has a dash in it, or is read as a value. -/
theorem base_cases (base : List Char) :
    base = ['*'] ∨ (∃ low high, base = low ++ '-' :: high ∧ '-' ∉ low) ∨
    '-' ∉ base ∧ base ≠ ['*'] := by
  by_cases hstar : base = ['*']
  · exact .inl hstar
  · cases hsplit : Text.splitOnce '-' base with
    | none => exact .inr (.inr ⟨Text.splitOnce_eq_none_iff.1 hsplit, hstar⟩)
    | some pieces => exact .inr (.inl ⟨pieces.1, pieces.2, Text.splitOnce_eq_some_iff.1 hsplit⟩)

/-- A span is all values, a range, or a single value where no step follows. -/
theorem parseSpan_eq_ok_iff : parseSpan field base stepped whole = .ok (lo, hi) ↔
    base = ['*'] ∧ lo = field.min ∧ hi = field.max ∨
    (∃ low high, base = low ++ '-' :: high ∧ IsValue field low lo ∧ IsValue field high hi ∧
      lo ≤ hi) ∨
    stepped = false ∧ IsValue field base lo ∧ hi = lo := by
  constructor
  · intro h
    rcases base_cases base with rfl | ⟨low, high, rfl, hdash⟩ | ⟨hdash, hstar⟩
    · cases h
      exact .inl ⟨rfl, rfl, rfl⟩
    · rw [parseSpan_range hdash] at h
      obtain ⟨m, hlow, h⟩ := bind_eq_ok_iff.1 h
      obtain ⟨n, hhigh, h⟩ := bind_eq_ok_iff.1 h
      split at h <;> cases h
      exact .inr (.inl ⟨low, high, rfl, parseValue_eq_ok_iff.1 hlow, parseValue_eq_ok_iff.1 hhigh,
        Nat.le_of_not_lt ‹_›⟩)
    · rw [parseSpan_value hdash hstar] at h
      split at h
      · cases h
      · next hplain =>
        obtain ⟨n, hn, hends⟩ := map_eq_ok_iff.1 h
        cases hends
        exact .inr (.inr ⟨Bool.eq_false_iff.2 hplain, parseValue_eq_ok_iff.1 hn, rfl⟩)
  · rintro (⟨rfl, rfl, rfl⟩ | ⟨low, high, rfl, hlow, hhigh, hle⟩ | ⟨rfl, hs, rfl⟩)
    · rfl
    · rw [parseSpan_range hlow.dash_notMem, parseValue_eq_ok_iff.2 hlow,
        parseValue_eq_ok_iff.2 hhigh]
      exact if_neg (Nat.not_lt.2 hle)
    · rw [parseSpan_value hs.dash_notMem hs.ne_star, parseValue_eq_ok_iff.2 hs]
      rfl

/-- What is none of these is refused as a range, as a step on a single value, or as a value. -/
theorem parseSpan_eq_error_iff : parseSpan field base stepped whole = .error e ↔
    RangeFault field base e ∨ '-' ∉ base ∧ base ≠ ['*'] ∧
      (stepped = true ∧ e = .invalidStep field (String.ofList whole) ∨
        stepped = false ∧ ValueFault field base e) := by
  constructor
  · intro h
    -- The reader looks at the low value first, then at the high one, and then at their order.
    rcases base_cases base with rfl | ⟨low, high, rfl, hdash⟩ | ⟨hdash, hstar⟩
    · cases h
    · refine .inl ?_
      rw [parseSpan_range hdash] at h
      cases hlow : parseValue field low with
      | error e' =>
        rw [hlow] at h
        cases h
        exact .low hdash (parseValue_eq_error_iff.1 hlow)
      | ok lo =>
        have hlow := parseValue_eq_ok_iff.1 hlow
        cases hhigh : parseValue field high with
        | error e' =>
          rw [parseValue_eq_ok_iff.2 hlow, hhigh] at h
          cases h
          exact .high hlow (parseValue_eq_error_iff.1 hhigh)
        | ok hi =>
          have hhigh := parseValue_eq_ok_iff.1 hhigh
          rw [parseValue_eq_ok_iff.2 hlow, parseValue_eq_ok_iff.2 hhigh] at h
          by_cases hlt : hi < lo
          · obtain rfl := Except.error.inj ((if_pos hlt).symm.trans h)
            exact .order hlow hhigh hlt
          · cases (if_neg hlt).symm.trans h
    · refine .inr ⟨hdash, hstar, ?_⟩
      rw [parseSpan_value hdash hstar] at h
      cases stepped with
      | true =>
        cases h
        exact .inl ⟨rfl, rfl⟩
      | false =>
        refine .inr ⟨rfl, parseValue_eq_error_iff.1 ?_⟩
        cases hvalue : parseValue field base with
        | error e' =>
          rw [hvalue, if_neg Bool.false_ne_true] at h
          cases h
          rfl
        | ok n =>
          rw [hvalue] at h
          cases h
  · rintro (h | ⟨hdash, hstar, ⟨rfl, rfl⟩ | ⟨rfl, h⟩⟩)
    · cases h with
      | low hdash h =>
        rw [parseSpan_range hdash, parseValue_eq_error_iff.2 h]
        rfl
      | high hlow h =>
        rw [parseSpan_range hlow.dash_notMem, parseValue_eq_ok_iff.2 hlow,
          parseValue_eq_error_iff.2 h]
        rfl
      | order hlow hhigh hlt =>
        rw [parseSpan_range hlow.dash_notMem, parseValue_eq_ok_iff.2 hlow,
          parseValue_eq_ok_iff.2 hhigh]
        exact if_pos hlt
    · rw [parseSpan_value hdash hstar]
      rfl
    · rw [parseSpan_value hdash hstar, parseValue_eq_error_iff.2 h]
      rfl

/-- A part with a slash is read with what follows the slash as its step, which comes first. -/
theorem parsePart_stepped (hslash : '/' ∉ base) :
    parsePart field (base ++ '/' :: s) = do
      let step ← parseStep field s
      let (lo, hi) ← parseSpan field base true (base ++ '/' :: s)
      return FieldSet.stepped lo hi step := by
  rw [parsePart, Text.splitOnce_eq_some_iff.2 ⟨rfl, hslash⟩]

/-- A part without a slash takes all its values. -/
theorem parsePart_plain (hslash : '/' ∉ part) :
    parsePart field part = do
      let (lo, hi) ← parseSpan field part false part
      return FieldSet.stepped lo hi 1 := by
  rw [parsePart, Text.splitOnce_eq_none_iff.2 hslash]

/-- A part has a slash in it or none. -/
theorem part_cases (part : List Char) :
    (∃ base s, part = base ++ '/' :: s ∧ '/' ∉ base) ∨ '/' ∉ part := by
  cases hsplit : Text.splitOnce '/' part with
  | none => exact .inr (Text.splitOnce_eq_none_iff.1 hsplit)
  | some pieces => exact .inl ⟨pieces.1, pieces.2, Text.splitOnce_eq_some_iff.1 hsplit⟩

/-- A range holds no slash. -/
theorem range_slash_notMem (hlow : IsValue field low lo) (hhigh : IsValue field high hi) :
    '/' ∉ low ++ '-' :: high := by
  intro hmem
  rcases List.mem_append.1 hmem with hmem | hmem
  · exact hlow.slash_notMem hmem
  · rcases List.mem_cons.1 hmem with hmem | hmem
    · exact absurd hmem (by decide)
    · exact hhigh.slash_notMem hmem

/-- Reading accepts exactly the parts of the grammar, with the values that they stand for. -/
theorem parsePart_eq_ok_iff : parsePart field part = .ok values ↔
    ∃ lo hi step, Denotes field part lo hi step ∧ values = FieldSet.stepped lo hi step := by
  constructor
  · intro h
    rcases part_cases part with ⟨base, s, rfl, hslash⟩ | hslash
    · rw [parsePart_stepped hslash] at h
      obtain ⟨step, hstep, h⟩ := bind_eq_ok_iff.1 h
      obtain ⟨⟨lo, hi⟩, hspan, h⟩ := bind_eq_ok_iff.1 h
      cases h
      have hstep := parseStep_eq_ok_iff.1 hstep
      refine ⟨lo, hi, step, ?_, rfl⟩
      rcases parseSpan_eq_ok_iff.1 hspan with
        ⟨rfl, rfl, rfl⟩ | ⟨low, high, rfl, hlow, hhigh, hle⟩ | ⟨hplain, -, -⟩
      · exact .wholeStep hstep
      · exact .rangeStep hlow hhigh hle hstep
      · cases hplain
    · rw [parsePart_plain hslash] at h
      obtain ⟨⟨lo, hi⟩, hspan, h⟩ := bind_eq_ok_iff.1 h
      cases h
      refine ⟨lo, hi, 1, ?_, rfl⟩
      rcases parseSpan_eq_ok_iff.1 hspan with
        ⟨rfl, rfl, rfl⟩ | ⟨low, high, rfl, hlow, hhigh, hle⟩ | ⟨-, hs, rfl⟩
      · exact .whole
      · exact .range hlow hhigh hle
      · exact .single hs
  · rintro ⟨lo, hi, step, h, rfl⟩
    cases h with
    | whole => rfl
    | single hs =>
      rw [parsePart_plain hs.slash_notMem, parseSpan_eq_ok_iff.2 (.inr (.inr ⟨rfl, hs, rfl⟩))]
      rfl
    | range hlow hhigh hle =>
      rw [parsePart_plain (range_slash_notMem hlow hhigh),
        parseSpan_eq_ok_iff.2 (.inr (.inl ⟨_, _, rfl, hlow, hhigh, hle⟩))]
      rfl
    | @wholeStep s _ hs =>
      have hstar : parsePart field (['*'] ++ '/' :: s) = _ := parsePart_stepped (by decide)
      rw [parseStep_eq_ok_iff.2 hs] at hstar
      exact hstar
    | rangeStep hlow hhigh hle hs =>
      rw [parsePart_stepped (range_slash_notMem hlow hhigh), parseStep_eq_ok_iff.2 hs,
        parseSpan_eq_ok_iff.2 (.inr (.inl ⟨_, _, rfl, hlow, hhigh, hle⟩))]
      rfl

/-- What is wrong with a text that is no part is the error of reading it. -/
theorem parsePart_eq_error_iff : parsePart field part = .error e ↔ PartFault field part e := by
  constructor
  · intro h
    rcases part_cases part with ⟨base, s, rfl, hslash⟩ | hslash
    · rw [parsePart_stepped hslash] at h
      cases hread : parseStep field s with
      | error e' =>
        rw [hread] at h
        cases h
        obtain ⟨hno, rfl⟩ := parseStep_eq_error_iff.1 hread
        exact .step hslash hno
      | ok step =>
        have hstep := parseStep_eq_ok_iff.1 hread
        rw [hread] at h
        cases hspan : parseSpan field base true (base ++ '/' :: s) with
        | ok ends =>
          rw [hspan] at h
          cases h
        | error e' =>
          rw [hspan] at h
          cases h
          rcases parseSpan_eq_error_iff.1 hspan with
            hrange | ⟨hdash, hstar, ⟨-, rfl⟩ | ⟨hplain, -⟩⟩
          · exact .steppedRange hslash hstep hrange
          · exact .steppedValue hslash hstep hdash hstar
          · cases hplain
    · rw [parsePart_plain hslash] at h
      cases hspan : parseSpan field part false part with
      | ok ends =>
        rw [hspan] at h
        cases h
      | error e' =>
        rw [hspan] at h
        cases h
        rcases parseSpan_eq_error_iff.1 hspan with
          hrange | ⟨hdash, hstar, ⟨hstepped, -⟩ | ⟨-, hvalue⟩⟩
        · exact .range hslash hrange
        · cases hstepped
        · exact .single hslash hdash hstar hvalue
  · intro h
    cases h with
    | step hslash hno =>
      rw [parsePart_stepped hslash, parseStep_eq_error_iff.2 ⟨hno, rfl⟩]
      rfl
    | steppedRange hslash hs h =>
      rw [parsePart_stepped hslash, parseStep_eq_ok_iff.2 hs, parseSpan_eq_error_iff.2 (.inl h)]
      rfl
    | steppedValue hslash hs hdash hstar =>
      rw [parsePart_stepped hslash, parseStep_eq_ok_iff.2 hs,
        parseSpan_eq_error_iff.2 (.inr ⟨hdash, hstar, .inl ⟨rfl, rfl⟩⟩)]
      rfl
    | range hslash h =>
      rw [parsePart_plain hslash, parseSpan_eq_error_iff.2 (.inl h)]
      rfl
    | single hslash hdash hstar h =>
      rw [parsePart_plain hslash, parseSpan_eq_error_iff.2 (.inr ⟨hdash, hstar, .inr ⟨rfl, h⟩⟩)]
      rfl

/-- What a part denotes lies in order within the field. -/
theorem Denotes.bounds (h : Denotes field part lo hi step) : lo ≤ hi ∧ hi ≤ field.max ∧
    0 < step := by
  cases h with
  | whole => exact ⟨by cases field <;> decide, Nat.le_refl _, Nat.one_pos⟩
  | single hs => exact ⟨Nat.le_refl _, hs.2.2, Nat.one_pos⟩
  | range hlow hhigh hle => exact ⟨hle, hhigh.2.2, Nat.one_pos⟩
  | wholeStep hs => exact ⟨by cases field <;> decide, Nat.le_refl _, hs.2.1⟩
  | rangeStep hlow hhigh hle hs => exact ⟨hle, hhigh.2.2, hs.2.1⟩

/-- What a part stands for lies within the field. -/
theorem StandsFor.le_max (h : StandsFor field part v) : v ≤ field.max := by
  obtain ⟨lo, hi, step, hdenotes, hle, -⟩ := h
  exact hle.trans hdenotes.bounds.2.1

/-- Steps from the low end are taken as long as they do not pass the high end. -/
theorem mem_stepped_iff (hle : lo ≤ hi) (hstep : 0 < step) :
    v ∈ FieldSet.stepped lo hi step ↔ v ≤ hi ∧ ∃ i, v = lo + i * step := by
  have hreach : ∀ i, i ≤ (hi - lo) / step ↔ lo + i * step ≤ hi := by
    intro i
    rw [Nat.le_div_iff_mul_le hstep]
    omega
  simp only [FieldSet.stepped, List.mem_range', Nat.lt_succ_iff, Nat.mul_comm step]
  constructor
  · rintro ⟨i, hi, rfl⟩
    exact ⟨(hreach i).1 hi, i, rfl⟩
  · rintro ⟨hv, i, rfl⟩
    exact ⟨i, (hreach i).2 hv, rfl⟩

/-- What is read from a part is what the part stands for. -/
theorem mem_of_parsePart (h : parsePart field part = .ok values) :
    v ∈ values ↔ StandsFor field part v := by
  constructor
  · intro hv
    obtain ⟨lo, hi, step, hdenotes, rfl⟩ := parsePart_eq_ok_iff.1 h
    obtain ⟨hle, -, hstep⟩ := hdenotes.bounds
    exact ⟨lo, hi, step, hdenotes, (mem_stepped_iff hle hstep).1 hv⟩
  · rintro ⟨lo, hi, step, hdenotes, hv⟩
    obtain ⟨hle, -, hstep⟩ := hdenotes.bounds
    obtain rfl := Except.ok.inj (h.symm.trans (parsePart_eq_ok_iff.2 ⟨lo, hi, step, hdenotes, rfl⟩))
    exact (mem_stepped_iff hle hstep).2 hv

/-- A text is a part exactly if it can be read as one. -/
theorem isPart_iff_parsePart : IsPart field part ↔ ∃ values, parsePart field part = .ok values := by
  constructor
  · rintro ⟨lo, hi, step, hdenotes⟩
    exact ⟨_, parsePart_eq_ok_iff.2 ⟨lo, hi, step, hdenotes, rfl⟩⟩
  · rintro ⟨values, h⟩
    obtain ⟨lo, hi, step, hdenotes, -⟩ := parsePart_eq_ok_iff.1 h
    exact ⟨lo, hi, step, hdenotes⟩

/-- A text with a fault is no part. -/
theorem PartFault.not_isPart (h : PartFault field part e) : ¬ IsPart field part := by
  intro hpart
  obtain ⟨values, hread⟩ := isPart_iff_parsePart.1 hpart
  rw [parsePart_eq_error_iff.2 h] at hread
  cases hread

/-- The fault of a part is never that the field is empty. -/
theorem PartFault.ne_emptyField (h : PartFault field part e) (other : Field) :
    e ≠ .emptyField other := by
  have hvalue : ∀ {s : List Char} {e : CronError}, ValueFault field s e →
      e ≠ .emptyField other := by
    intro s e h
    cases h <;> exact CronError.noConfusion
  have hrange : ∀ {s : List Char} {e : CronError}, RangeFault field s e →
      e ≠ .emptyField other := by
    intro s e h
    cases h with
    | low hdash h => exact hvalue h
    | high hlow h => exact hvalue h
    | order hlow hhigh hlt => exact CronError.noConfusion
  cases h with
  | step hslash hno => exact CronError.noConfusion
  | steppedRange hslash hs h => exact hrange h
  | steppedValue hslash hs hdash hstar => exact CronError.noConfusion
  | range hslash h => exact hrange h
  | single hslash hdash hstar h => exact hvalue h

/-- Inserting values into a set adds those below 64. -/
theorem FieldSet.contains_foldl_insert (set : FieldSet) (values : List Nat) (v : Nat) :
    (values.foldl insert set).contains v = true ↔
      set.contains v = true ∨ v < 64 ∧ v ∈ values := by
  induction values generalizing set with
  | nil => simp
  | cons a values ih =>
    rw [List.foldl_cons, ih, contains_insert, Bool.or_eq_true, Bool.and_eq_true, decide_eq_true_eq,
      decide_eq_true_eq, List.mem_cons, eq_comm (a := v)]
    tauto

/-- Reading parts adds what they stand for, or names what is wrong with the first one that is no
part. -/
theorem parseParts_cases (set : FieldSet) (parts : List (List Char)) :
    (∃ r, parseParts field set parts = .ok r ∧ (∀ part ∈ parts, IsPart field part) ∧
      ∀ v, r.contains v = true ↔ set.contains v = true ∨ ∃ part ∈ parts, StandsFor field part v) ∨
    ∃ before part after e, parseParts field set parts = .error e ∧ parts = before ++ part :: after ∧
      (∀ p ∈ before, IsPart field p) ∧ PartFault field part e := by
  induction parts generalizing set with
  | nil => exact .inl ⟨set, rfl, by simp, by simp⟩
  | cons part parts ih =>
    cases hread : parsePart field part with
    | error e =>
      refine .inr ⟨[], part, parts, e, ?_, rfl, by simp, parsePart_eq_error_iff.1 hread⟩
      rw [parseParts, hread]
      rfl
    | ok values =>
      have hpart : IsPart field part := isPart_iff_parsePart.2 ⟨values, hread⟩
      have hrest : parseParts field set (part :: parts) =
          parseParts field (values.foldl FieldSet.insert set) parts := by
        rw [parseParts, hread]
        rfl
      rw [hrest]
      rcases ih (values.foldl FieldSet.insert set) with
        ⟨r, hr, hparts, hvalues⟩ | ⟨before, p, after, e, he, rfl, hbefore, hfault⟩
      · refine .inl ⟨r, hr, List.forall_mem_cons.2 ⟨hpart, hparts⟩, fun v => ?_⟩
        have hadded : v < 64 ∧ v ∈ values ↔ StandsFor field part v := by
          rw [mem_of_parsePart hread]
          exact and_iff_right_of_imp fun h => h.le_max.trans_lt field.max_lt
        rw [hvalues, FieldSet.contains_foldl_insert, hadded, or_assoc]
        simp only [List.mem_cons, exists_eq_or_imp]
      · exact .inr ⟨part :: before, p, after, e, he, rfl, List.forall_mem_cons.2 ⟨hpart, hbefore⟩,
          hfault⟩

/-- The first piece that is no part decides the error. -/
theorem parseParts_of_fault {before after : List (List Char)}
    (hbefore : ∀ p ∈ before, IsPart field p) (h : PartFault field part e) (set : FieldSet) :
    parseParts field set (before ++ part :: after) = .error e := by
  induction before generalizing set with
  | nil =>
    rw [List.nil_append, parseParts, parsePart_eq_error_iff.2 h]
    rfl
  | cons p before ih =>
    obtain ⟨hp, hbefore⟩ := List.forall_mem_cons.1 hbefore
    obtain ⟨values, hread⟩ := isPart_iff_parsePart.1 hp
    rw [List.cons_append, parseParts, hread]
    exact ih hbefore _

/-- A part stands for its low end at least. -/
theorem IsPart.exists_standsFor (h : IsPart field part) : ∃ v, StandsFor field part v := by
  obtain ⟨lo, hi, step, hdenotes⟩ := h
  exact ⟨lo, lo, hi, step, hdenotes, hdenotes.bounds.1, 0, by omega⟩

/-- Reading a field either collects what its parts stand for, or names what is wrong with the first
piece that is no part. A set that is collected is never empty, since every part stands for a
number. -/
theorem parseField_cases (field : Field) (s : List Char) :
    (∃ r, parseField field s = .ok r ∧ (∀ part ∈ s.splitOn ',', IsPart field part) ∧
      ∀ v, r.contains v = true ↔ ∃ part ∈ s.splitOn ',', StandsFor field part v) ∨
    ∃ before part after e, parseField field s = .error e ∧
      s.splitOn ',' = before ++ part :: after ∧ (∀ p ∈ before, IsPart field p) ∧
      PartFault field part e := by
  rw [← Text.splitOn_eq]
  rcases @parseParts_cases field FieldSet.empty (Text.splitOn ',' s) with
    ⟨r, hr, hparts, hvalues⟩ | ⟨before, part, after, e, he, hsplit, hbefore, hfault⟩
  · have hcontains : ∀ v, r.contains v = true ↔
        ∃ part ∈ Text.splitOn ',' s, StandsFor field part v := by
      intro v
      rw [hvalues, FieldSet.contains_empty, or_iff_right Bool.false_ne_true]
    refine .inl ⟨r, ?_, hparts, hcontains⟩
    have hnonempty : r.isEmpty = false := by
      obtain ⟨part, hmem⟩ := List.exists_mem_of_ne_nil _
        (Text.splitOn_eq ',' s ▸ List.splitOn_ne_nil ',' s)
      obtain ⟨v, hv⟩ := (hparts part hmem).exists_standsFor
      refine Bool.eq_false_iff.2 fun hempty => ?_
      have hnot := FieldSet.isEmpty_iff.1 hempty v
      rw [(hcontains v).2 ⟨part, hmem, hv⟩] at hnot
      cases hnot
    rw [parseField, hr]
    simp only [bind, Except.bind, hnonempty]
    rfl
  · refine .inr ⟨before, part, after, e, ?_, hsplit, hbefore, hfault⟩
    rw [parseField, he]
    rfl

/-- Reading a field succeeds exactly when each of its pieces between commas is a part of the
grammar, and gives the set of the numbers that the parts stand for. Otherwise it names what is wrong
with the first piece that is no part, and never that the field is empty. -/
theorem parseField_eq_grammar (field : Field) (s : List Char) :
    ((∃ r, parseField field s = .ok r) ↔ ∀ part ∈ s.splitOn ',', IsPart field part) ∧
    (∀ r, parseField field s = .ok r →
      ∀ v, r.contains v = true ↔ ∃ part ∈ s.splitOn ',', StandsFor field part v) ∧
    (∀ e, parseField field s = .error e ↔ ∃ before part after,
      s.splitOn ',' = before ++ part :: after ∧ (∀ p ∈ before, IsPart field p) ∧
      PartFault field part e) ∧
    ∀ other, parseField field s ≠ .error (.emptyField other) := by
  have hfault : ∀ {before part after e}, s.splitOn ',' = before ++ part :: after →
      (∀ p ∈ before, IsPart field p) → PartFault field part e → parseField field s = .error e := by
    intro before part after e hsplit hbefore hfault
    rw [parseField, Text.splitOn_eq, hsplit, parseParts_of_fault hbefore hfault]
    rfl
  rcases parseField_cases field s with
    ⟨r, hr, hparts, hvalues⟩ | ⟨before, part, after, e, he, hsplit, hbefore, hpart⟩
  · refine ⟨⟨fun _ => hparts, fun _ => ⟨r, hr⟩⟩, ?_, fun e => ⟨?_, ?_⟩, ?_⟩
    · intro r' hr'
      obtain rfl := Except.ok.inj (hr.symm.trans hr')
      exact hvalues
    · intro he
      cases hr.symm.trans he
    · rintro ⟨before, part, after, hsplit, hbefore, hpart⟩
      exact hfault hsplit hbefore hpart
    · intro other he
      cases hr.symm.trans he
  · refine ⟨⟨?_, ?_⟩, ?_, fun e' => ⟨?_, ?_⟩, ?_⟩
    · rintro ⟨r, hr⟩
      cases he.symm.trans hr
    · intro hparts
      have hmem : part ∈ s.splitOn ',' := hsplit ▸ List.mem_append_right _ List.mem_cons_self
      exact absurd (hparts part hmem) hpart.not_isPart
    · intro r hr
      cases he.symm.trans hr
    · intro he'
      obtain rfl := Except.error.inj (he.symm.trans he')
      exact ⟨before, part, after, hsplit, hbefore, hpart⟩
    · rintro ⟨before, part, after, hsplit, hbefore, hpart⟩
      exact hfault hsplit hbefore hpart
    · intro other he'
      exact hpart.ne_emptyField other (Except.error.inj (he.symm.trans he'))

example : (parseField .minute "*/20,1-10/4,+007".toList).toOption.map FieldSet.values =
    some [0, 1, 5, 7, 9, 20, 40] := by
  decide

end CronDaemon.Cron
