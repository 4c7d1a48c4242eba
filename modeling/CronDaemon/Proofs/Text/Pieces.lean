import CronDaemon.Text.Blank
import CronDaemon.Text.Numeral
import Mathlib.Data.Nat.Digits.Defs

/-!
# Pieces and numerals of texts

Splitting a text is told by the text that its pieces make up, and reading a numeral by the digits
that it is written with.
-/

namespace CronDaemon.Text

/-- The pieces between separators are those of the library. -/
theorem splitOn_eq (sep : Char) (s : List Char) : splitOn sep s = s.splitOn sep := by
  have hcons : ∀ (c : Char) (pieces : List (List Char)), pieces ≠ [] →
      consHead c pieces = pieces.modifyHead (List.cons c) := by
    intro c pieces hne
    cases pieces with
    | nil => exact absurd rfl hne
    | cons piece pieces => rfl
  rw [List.splitOn_eq_splitOnP]
  induction s with
  | nil => rfl
  | cons c s ih =>
    rw [splitOn, ih, List.splitOnP_cons_eq_if_modifyHead]
    by_cases h : c = sep
    · simp only [h, if_true, beq_self_eq_true]
    · rw [if_neg h, if_neg (by simpa using h), hcons c _ (List.splitOnP_ne_nil _ _)]

/-- A text is split at a separator exactly into what stands before and after the first one. -/
theorem splitOnce_eq_some_iff {sep : Char} {s a b : List Char} :
    splitOnce sep s = some (a, b) ↔ s = a ++ sep :: b ∧ sep ∉ a := by
  induction s generalizing a b with
  | nil => simp [splitOnce]
  | cons c s ih =>
    rw [splitOnce]
    split
    · next hc =>
      subst hc
      cases a with
      | nil => simp
      | cons a as => simp +contextual [eq_comm]
    · next hc =>
      simp only [Option.map_eq_some_iff, Prod.exists, ih, Prod.mk.injEq]
      constructor
      · rintro ⟨as, b, ⟨rfl, hnot⟩, rfl, rfl⟩
        exact ⟨rfl, by simp [hnot, Ne.symm hc]⟩
      · rintro ⟨htext, hnot⟩
        cases a with
        | nil => exact absurd (List.cons.inj htext).1 hc
        | cons a as =>
          obtain ⟨rfl, rfl⟩ := List.cons.inj htext
          exact ⟨as, b, ⟨rfl, fun h => hnot (List.mem_cons_of_mem _ h)⟩, rfl, rfl⟩

theorem splitOnce_eq_none_iff {sep : Char} {s : List Char} : splitOnce sep s = none ↔ sep ∉ s := by
  induction s with
  | nil => simp [splitOnce]
  | cons c s ih =>
    rw [splitOnce]
    split
    · next hc => simp [hc]
    · next hc => simp [ih, Ne.symm hc]

/-- The text of a list of digits. -/
def digitText (ds : List Nat) : List Char := ds.map Nat.digitChar

/-- A text is a numeral of a number: digits that write the number in the base ten, the highest
first, with one optional plus sign in front. -/
def IsNumeral (s : List Char) (n : Nat) : Prop :=
  ∃ ds : List Nat, ds ≠ [] ∧ (∀ d ∈ ds, d < 10) ∧ (s = digitText ds ∨ s = '+' :: digitText ds) ∧
    n = Nat.ofDigits 10 ds.reverse

theorem digit?_digitChar {d : Nat} (h : d < 10) : digit? (Nat.digitChar d) = some d := by
  have hchars : ∀ d < 10, digit? (Nat.digitChar d) = some d := by decide
  exact hchars d h

theorem digit?_eq_some_iff {c : Char} {d : Nat} : digit? c = some d ↔ d < 10 ∧
    c = Nat.digitChar d := by
  constructor
  · intro h
    unfold digit? at h
    split at h <;> cases h
    next hc =>
    have hlow : 48 ≤ c.toNat := hc.1
    have hhigh : c.toNat ≤ 57 := hc.2
    refine ⟨by omega, Char.toNat_inj.1 ?_⟩
    rw [Nat.toNat_digitChar_of_lt_ten (by omega)]
    omega
  · rintro ⟨hd, rfl⟩
    exact digit?_digitChar hd

/-- Digits continue a value by the number that they write. -/
theorem digitsFrom?_eq_some_iff {m n : Nat} {s : List Char} :
    digitsFrom? m s = some n ↔ ∃ ds : List Nat, (∀ d ∈ ds, d < 10) ∧ s = digitText ds ∧
      n = m * 10 ^ ds.length + Nat.ofDigits 10 ds.reverse := by
  have hvalue : ∀ (d : Nat) (ds : List Nat), Nat.ofDigits 10 (d :: ds).reverse =
      Nat.ofDigits 10 ds.reverse + d * 10 ^ ds.length := by
    intro d ds
    rw [List.reverse_cons, Nat.ofDigits_append, Nat.ofDigits_singleton, List.length_reverse,
      Nat.mul_comm]
  induction s generalizing m with
  | nil =>
    rw [digitsFrom?, Option.some.injEq]
    constructor
    · rintro rfl
      exact ⟨[], by simp, rfl, by simp⟩
    · rintro ⟨ds, -, htext, hn⟩
      rw [List.map_eq_nil_iff.1 htext.symm] at hn
      simpa using hn.symm
  | cons c s ih =>
    simp only [digitsFrom?, Option.bind_eq_bind, Option.bind_eq_some_iff, digit?_eq_some_iff, ih]
    constructor
    · rintro ⟨d, ⟨hd, rfl⟩, ds, hds, rfl, hn⟩
      refine ⟨d :: ds, List.forall_mem_cons.2 ⟨hd, hds⟩, rfl, ?_⟩
      rw [hn, hvalue, List.length_cons]
      ring
    · rintro ⟨ds, hds, htext, hn⟩
      cases ds with
      | nil => cases htext
      | cons d ds =>
        obtain ⟨rfl, rfl⟩ := List.cons.inj htext
        obtain ⟨hd, hds⟩ := List.forall_mem_cons.1 hds
        refine ⟨d, ⟨hd, rfl⟩, ds, hds, rfl, ?_⟩
        rw [hn, hvalue, List.length_cons]
        ring

theorem digits?_eq_some_iff {n : Nat} {s : List Char} :
    digits? s = some n ↔ ∃ ds : List Nat, ds ≠ [] ∧ (∀ d ∈ ds, d < 10) ∧ s = digitText ds ∧
      n = Nat.ofDigits 10 ds.reverse := by
  cases s with
  | nil =>
    constructor
    · intro h
      cases h
    · rintro ⟨ds, hne, -, htext, -⟩
      exact absurd (List.map_eq_nil_iff.1 htext.symm) hne
  | cons c s =>
    rw [digits?, digitsFrom?_eq_some_iff]
    · simp only [Nat.zero_mul, Nat.zero_add]
      refine exists_congr fun ds => ⟨fun ⟨hds, htext, hn⟩ => ⟨?_, hds, htext, hn⟩, fun h => h.2⟩
      rintro rfl
      cases htext
    · exact List.cons_ne_nil c s

/-- A digit is no plus sign. -/
theorem digitText_ne_plus {ds : List Nat} (h : ∀ d ∈ ds, d < 10) (s : List Char) :
    digitText ds ≠ '+' :: s := by
  intro htext
  cases ds with
  | nil => cases htext
  | cons d ds =>
    have hd := digit?_digitChar (h d List.mem_cons_self)
    rw [(List.cons.inj htext).1] at hd
    cases hd

/-- Bytes are read as the text that they encode. -/
theorem fromUTF8?_eq_some_iff {bytes : ByteArray} {text : String} :
    String.fromUTF8? bytes = some text ↔ bytes = text.toUTF8 := by
  unfold String.fromUTF8?
  constructor
  · intro h
    split at h <;> cases h
    rfl
  · rintro rfl
    exact dif_pos text.isValidUTF8

theorem le_max32_iff {n : Nat} : n ≤ max32 ↔ n < 2 ^ 32 := by
  rw [max32]
  omega

theorem le_max64_iff {n : Nat} : n ≤ max64 ↔ n < 2 ^ 64 := by
  rw [max64]
  omega

/-- Reading accepts exactly the numerals of numbers that are not too large. -/
theorem numeral?_eq_some_iff {max n : Nat} {s : List Char} :
    numeral? max s = some n ↔ IsNumeral s n ∧ n ≤ max := by
  rw [numeral?, Option.filter_eq_some_iff, decide_eq_true_eq, digits?_eq_some_iff]
  refine and_congr_left fun _ => exists_congr fun ds => and_congr_right fun _ =>
    and_congr_right fun hds => and_congr_left fun _ => ?_
  unfold unsigned
  split
  · next s =>
    constructor
    · rintro rfl
      exact .inr rfl
    · rintro (htext | htext)
      · exact absurd htext.symm (digitText_ne_plus hds s)
      · exact (List.cons.inj htext).2
  · next hplain =>
    refine ⟨.inl, ?_⟩
    rintro (htext | htext)
    · exact htext
    · exact absurd htext (hplain _)

/-- Every number is written by digits. -/
theorem exists_digitText_toDigits (n : Nat) : ∃ ds : List Nat, ds ≠ [] ∧ (∀ d ∈ ds, d < 10) ∧
    Nat.toDigits 10 n = digitText ds ∧ n = Nat.ofDigits 10 ds.reverse := by
  induction n using Nat.strong_induction_on with
  | h n ih =>
    by_cases hn : n < 10
    · exact ⟨[n], List.cons_ne_nil n [], List.forall_mem_singleton.2 hn, Nat.toDigits_of_lt_base hn,
        (Nat.ofDigits_singleton ..).symm⟩
    · obtain ⟨ds, -, hds, htext, hvalue⟩ := ih (n / 10) (by omega)
      have hlast : n % 10 < 10 := Nat.mod_lt _ (by decide)
      refine ⟨ds ++ [n % 10], by simp, ?_, ?_, ?_⟩
      · exact List.forall_mem_append.2 ⟨hds, List.forall_mem_singleton.2 hlast⟩
      · rw [Nat.toDigits_of_base_le (by decide) (Nat.le_of_not_lt hn), htext, digitText, digitText,
          List.map_append]
        rfl
      · rw [List.reverse_append, List.reverse_singleton, List.singleton_append, Nat.ofDigits_cons,
          ← hvalue]
        exact (Nat.mod_add_div n 10).symm

/-- A number in decimal is a numeral of that number. -/
theorem isNumeral_toString (n : Nat) : IsNumeral (toString n).toList n := by
  obtain ⟨ds, hne, hds, htext, hvalue⟩ := exists_digitText_toDigits n
  exact ⟨ds, hne, hds, .inl (Nat.toList_repr.trans htext), hvalue⟩

/-- A character of a numeral is a digit or a plus sign. -/
theorem IsNumeral.mem {s : List Char} {n : Nat} (h : IsNumeral s n) {c : Char} (hc : c ∈ s) :
    isDigit c = true ∨ c = '+' := by
  obtain ⟨ds, -, hds, htext, -⟩ := h
  have hdigit : c ∈ digitText ds → isDigit c = true := by
    intro hmem
    obtain ⟨d, hd, rfl⟩ := List.mem_map.1 hmem
    rw [isDigit, digit?_digitChar (hds d hd), Option.isSome_some]
  rcases htext with rfl | rfl
  · exact .inl (hdigit hc)
  · exact (List.mem_cons.1 hc).symm.imp_left hdigit

end CronDaemon.Text
