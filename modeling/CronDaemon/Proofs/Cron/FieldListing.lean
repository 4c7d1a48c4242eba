import CronDaemon.Proofs.Cron.ScheduleGrammar
import Mathlib.Data.Finset.Card
import Mathlib.Data.Finset.Dedup

/-!
# Fields written by their values

The plainest text of a field names the values one by one, in decimal and with commas between them.
Reading it gives the set of just these values, in whatever order and however often they are named,
and any other text of the field reads like the one that names the values of its set. So the sets
that can be read are those that have a value and none outside the bound, and five texts of fields
with blanks between them are the schedule of their sets.
-/

namespace CronDaemon.Cron

open Text (NoBlank Spaced tokens IsNumeral)

/-- The values in decimal, with commas between them. -/
def listing (values : List Nat) : String := ",".intercalate (values.map toString)

namespace FieldSet

/-- The set holds the values of the list and no others, and every view of it tells so. -/
structure Collects (set : FieldSet) (values : List Nat) : Prop where
  contains_iff : ∀ v, set.contains v = true ↔ v ∈ values
  ascending : set.values.Pairwise (· < ·)
  mem_values_iff : ∀ v, v ∈ set.values ↔ v ∈ values
  size_eq : set.size = values.toFinset.card
  bits_eq : set.bits.cpop.toNat = values.toFinset.card
  isEmpty_eq : set.isEmpty = values.isEmpty

/-- The number of values is the number of bits that are set. -/
theorem toNat_cpop_bits (set : FieldSet) : set.bits.cpop.toNat = set.size := by
  have key : ∀ n, set.bits.cpopNatRec n 0 = (List.range n).countP set.contains := by
    intro n
    induction n with
    | zero => rfl
    | succ n ih =>
      have hlast : (set.bits.getLsbD n).toNat = [n].countP set.contains := by
        rw [List.countP_singleton, contains]
        cases set.bits.getLsbD n <;> rfl
      rw [BitVec.cpopNatRec_succ, BitVec.cpopNatRec_add, ih, List.range_succ,
        List.countP_append, hlast]
  rw [BitVec.toNat_cpop, key, List.countP_eq_length_filter]
  rfl

/-- Whether a value belongs to the set decides all views of it. -/
theorem collects_iff {set : FieldSet} {values : List Nat} :
    set.Collects values ↔ ∀ v, set.contains v = true ↔ v ∈ values := by
  refine ⟨Collects.contains_iff, fun h => ?_⟩
  have hvalues : ∀ v, v ∈ set.values ↔ v ∈ values := fun v => mem_values.trans (h v)
  have hsize : set.size = values.toFinset.card := by
    have hnodup : set.values.Nodup := set.values_ascending.imp Nat.ne_of_lt
    have hsame : set.values.toFinset = values.toFinset := by
      ext v
      rw [List.mem_toFinset, List.mem_toFinset, hvalues]
    rw [← hsame, List.toFinset_card_of_nodup hnodup, size]
  refine ⟨h, set.values_ascending, hvalues, hsize, set.toNat_cpop_bits.trans hsize, ?_⟩
  rw [Bool.eq_iff_iff, isEmpty_iff, List.isEmpty_iff, List.eq_nil_iff_forall_not_mem]
  refine forall_congr' fun v => ?_
  rw [← h v, Bool.not_eq_true]

/-- A set collects its own values. -/
theorem collects_values (set : FieldSet) : set.Collects set.values :=
  collects_iff.2 fun _ => mem_values.symm

/-- Sets of the same values are equal. -/
theorem Collects.unique {a b : FieldSet} {values : List Nat} (ha : a.Collects values)
    (hb : b.Collects values) : a = b := by
  refine ext_contains fun v _ => ?_
  rw [Bool.eq_iff_iff, ha.contains_iff, hb.contains_iff]

/-- The full set of a field holds the values within the bound. -/
theorem contains_full {field : Field} {v : Nat} :
    (full field).contains v = true ↔ field.min ≤ v ∧ v ≤ field.max := by
  have hle : field.min ≤ field.max := by cases field <;> decide
  rw [full, contains_ofList, Bool.and_eq_true, decide_eq_true_iff, decide_eq_true_iff,
    mem_stepped_iff hle Nat.one_pos]
  have hlt := field.max_lt
  constructor
  · rintro ⟨-, hv, i, rfl⟩
    omega
  · rintro ⟨hlow, hhigh⟩
    exact ⟨by omega, hhigh, v - field.min, by omega⟩

theorem Collects.eq_full_iff {set : FieldSet} {values : List Nat} {field : Field}
    (h : set.Collects values) (hbound : ∀ v ∈ values, field.min ≤ v ∧ v ≤ field.max) :
    set = full field ↔ ∀ v, field.min ≤ v → v ≤ field.max → v ∈ values := by
  constructor
  · rintro rfl v hlow hhigh
    exact (h.contains_iff v).1 (contains_full.2 ⟨hlow, hhigh⟩)
  · intro hall
    refine h.unique (collects_iff.2 fun v => contains_full.trans ⟨fun hv => ?_, hbound v⟩)
    exact hall v hv.1 hv.2

end FieldSet

variable {field : Field} {values : List Nat} {n v : Nat} {s part : List Char} {set : FieldSet}

/-- The pieces of a listing are its numbers. -/
theorem splitOn_listing (hne : values ≠ []) :
    (listing values).toList.splitOn ',' = values.map fun n => (toString n).toList := by
  have hpieces : (listing values).toList = [','].intercalate
      (values.map fun n => (toString n).toList) := by
    rw [listing, String.toList_intercalate, List.map_map]
    rfl
  rw [hpieces]
  refine List.splitOn_intercalate ',' (fun piece hpiece => ?_) ?_
  · obtain ⟨n, -, rfl⟩ := List.mem_map.1 hpiece
    exact isNumeral_notMem (Text.isNumeral_toString n) (by decide) (by decide)
  · rwa [Ne, List.map_eq_nil_iff]

/-- A number within the bound stands for itself. -/
theorem standsFor_toString_iff (h : field.min ≤ n ∧ n ≤ field.max) :
    StandsFor field (toString n).toList v ↔ v = n := by
  have hdenotes : Denotes field (toString n).toList n n 1 := .single ⟨Text.isNumeral_toString n, h⟩
  have hread := parsePart_eq_ok_iff.2 ⟨n, n, 1, hdenotes, rfl⟩
  rw [← mem_of_parsePart hread, mem_stepped_iff (Nat.le_refl n) Nat.one_pos]
  constructor
  · rintro ⟨hle, i, rfl⟩
    omega
  · rintro rfl
    exact ⟨Nat.le_refl v, 0, by omega⟩

/-- A listing reads as the set of its values. -/
theorem parseField_listing (hne : values ≠ [])
    (hbound : ∀ v ∈ values, field.min ≤ v ∧ v ≤ field.max) :
    ∃ set, parseField field (listing values).toList = .ok set ∧ set.Collects values := by
  have hpart : ∀ part ∈ values.map fun n => (toString n).toList, IsPart field part := by
    intro part hmem
    obtain ⟨n, hn, rfl⟩ := List.mem_map.1 hmem
    exact ⟨n, n, 1, .single ⟨Text.isNumeral_toString n, hbound n hn⟩⟩
  rcases parseField_cases field (listing values).toList with
    ⟨set, hset, -, hvalues⟩ | ⟨before, part, after, e, -, hsplit, -, hfault⟩
  · refine ⟨set, hset, FieldSet.collects_iff.2 fun v => ?_⟩
    rw [hvalues, splitOn_listing hne]
    constructor
    · rintro ⟨part, hmem, hv⟩
      obtain ⟨n, hn, rfl⟩ := List.mem_map.1 hmem
      rwa [(standsFor_toString_iff (hbound n hn)).1 hv]
    · intro hv
      exact ⟨_, List.mem_map_of_mem hv, (standsFor_toString_iff (hbound v hv)).2 rfl⟩
  · rw [splitOn_listing hne] at hsplit
    exact absurd (hpart part (hsplit ▸ by simp)) hfault.not_isPart

/-- A set with values within the bound is read from the listing of its values. -/
theorem parseField_listing_values (hwithin : set.IsWithin field)
    (hvalue : ∃ v, set.contains v = true) :
    parseField field (listing set.values).toList = .ok set := by
  obtain ⟨v, hv⟩ := hvalue
  have hne : set.values ≠ [] := List.ne_nil_of_mem (FieldSet.mem_values.2 hv)
  obtain ⟨other, hread, hcollects⟩ :=
    parseField_listing hne fun v hv => hwithin v (FieldSet.mem_values.1 hv)
  rw [hread, hcollects.unique set.collects_values]

theorem noBlank_of_isNumeral (h : IsNumeral s n) : NoBlank s := by
  intro c hc
  rcases h.mem hc with hdigit | rfl
  · unfold Text.isDigit Text.digit? at hdigit
    split at hdigit
    · next hc =>
      have hlow : 48 ≤ c.toNat := hc.1
      have hhigh : c.toNat ≤ 57 := hc.2
      simp only [Text.isBlank, Bool.or_eq_false_iff, Bool.and_eq_false_iff, decide_eq_false_iff_not,
        beq_eq_false_iff_ne]
      omega
    · cases hdigit
  · decide

/-- A part of a field has no blank in it. -/
theorem IsPart.noBlank (h : IsPart field part) : NoBlank part := by
  have hjoin : ∀ {low high : List Char} {lo hi : Nat} (sep : Char), NoBlank [sep] →
      IsNumeral low lo → IsNumeral high hi → NoBlank (low ++ sep :: high) := by
    intro low high lo hi sep hsep hlow hhigh
    exact (noBlank_of_isNumeral hlow).append (hsep.append (noBlank_of_isNumeral hhigh))
  obtain ⟨lo, hi, step, h⟩ := h
  cases h with
  | whole => decide
  | single hs => exact noBlank_of_isNumeral hs.1
  | range hlow hhigh => exact hjoin '-' (by decide) hlow.1 hhigh.1
  | @wholeStep s step hs =>
    exact NoBlank.append (s := ['*', '/']) (by decide) (noBlank_of_isNumeral hs.1)
  | @rangeStep low high s lo hi step hlow hhigh _ hs =>
    exact (hjoin '-' (by decide) hlow.1 hhigh.1).append
      (NoBlank.append (s := ['/']) (by decide) (noBlank_of_isNumeral hs.1))

/-- What is read as a field is a word. -/
theorem isWord_of_parseField (h : parseField field s = .ok set) : NoBlank s ∧ s ≠ [] := by
  have hparts : ∀ part ∈ s.splitOn ',', IsPart field part := by
    rcases parseField_cases field s with ⟨_, _, hparts, -⟩ | ⟨_, _, _, _, herror, -⟩
    · exact hparts
    · cases h.symm.trans herror
  constructor
  · have hjoined : [','].intercalate (s.splitOn ',') = s := List.intercalate_splitOn ','
    rw [← hjoined]
    exact NoBlank.intercalate (by decide) fun part hpart => (hparts part hpart).noBlank
  · rintro rfl
    have hnone : (parseField field []).isOk = false := by cases field <;> decide
    rw [h] at hnone
    cases hnone

/-- Five texts of fields with blanks between them are the schedule of the sets that they are read
as. -/
theorem Schedule.parse_of_spaced {text : String} {texts : Field → List Char} {fields : CronFields}
    (h : ∀ field, parseField field (texts field) = .ok (fields.get field))
    (hspaced : Spaced (Field.all.map texts) text.toList) :
    Schedule.parse text = .ok (.cron fields) := by
  have htokens : tokens text.toList = Field.all.map texts := by
    refine hspaced.tokens_eq fun word hword => ?_
    obtain ⟨field, -, rfl⟩ := List.mem_map.1 hword
    exact isWord_of_parseField (h field)
  have hfields : AreFields (tokens text.toList) := by
    rw [htokens]
    refine ⟨List.cons_ne_nil _ _, fun hhead => ?_, fun name text _ hname => ?_⟩
    · -- The first text is read as minutes, which `@every` is not.
      have hevery : texts .minute = "@every".toList := Option.some.inj hhead
      have hnone : (parseField .minute "@every".toList).isOk = false := by decide
      rw [← hevery, h .minute] at hnone
      cases hnone
    · cases congrArg List.length hname
  have hreads : ReadsAs (tokens text.toList) fields := by
    rw [htokens]
    refine ⟨rfl, ?_⟩
    simp only [Field.all, List.map_cons, List.map_nil, List.zip_cons_cons, List.zip_nil_right,
      List.forall_mem_cons]
    exact ⟨h _, h _, h _, h _, h _, by simp⟩
  exact parseChars_of_reads (.fields hfields hreads)

/-- Values within the bound of a field that are named in any order, and any number of times, are
read as the set of just these values, which is the full set exactly if none is missing. Whatever is
read as a field is read again from the values of its set. So the sets that are read are those that
have a value and none outside the bound; and five texts of fields with blanks between them are the
schedule of their sets. -/
theorem parseField_listing_round_trip :
    (∀ (field : Field) (values : List Nat), values ≠ [] →
      (∀ v ∈ values, field.min ≤ v ∧ v ≤ field.max) →
      ∃ set, parseField field (listing values).toList = .ok set ∧ set.Collects values ∧
        (set = .full field ↔ ∀ v, field.min ≤ v → v ≤ field.max → v ∈ values)) ∧
    (∀ field s set, parseField field s = .ok set →
      parseField field (listing set.values).toList = .ok set) ∧
    (∀ field set, (∃ s, parseField field s = .ok set) ↔ set.isEmpty = false ∧ set.IsWithin field) ∧
    ∀ (texts : Field → List Char) (fields : CronFields),
      (∀ field, parseField field (texts field) = .ok (fields.get field)) →
      ∀ text : String, Spaced (Field.all.map texts) text.toList →
        Schedule.parse text = .ok (.cron fields) := by
  refine ⟨fun field values hne hbound => ?_, fun field s set hread => ?_, fun field set => ?_,
    fun texts fields h text => Schedule.parse_of_spaced h⟩
  · obtain ⟨set, hread, hcollects⟩ := parseField_listing hne hbound
    exact ⟨set, hread, hcollects, hcollects.eq_full_iff hbound⟩
  · obtain ⟨hwithin, hvalue⟩ := parseField_values hread
    exact parseField_listing_values hwithin hvalue
  · have hnonempty : set.isEmpty = false ↔ ∃ v, set.contains v = true := by
      rw [← Bool.not_eq_true, FieldSet.isEmpty_iff]
      simp
    rw [hnonempty]
    constructor
    · rintro ⟨s, hread⟩
      exact (parseField_values hread).symm
    · rintro ⟨hvalue, hwithin⟩
      exact ⟨_, parseField_listing_values hwithin hvalue⟩

/-- Texts of the five fields: every quarter of an hour in the working hours of the week. -/
def quartersAtWork : Field → List Char
  | .minute => "45,0,30,15,0".toList
  | .hour => "9-17".toList
  | .dayOfMonth | .month => ['*']
  | .dayOfWeek => "1-5".toList

/-- The quarters of an hour, out of order and one of them named twice, are read as the set of the
four, and with the other fields and blanks of several kinds between them they are a schedule. -/
theorem parseField_listing_round_trip_of_quartersAtWork :
    ∃ set, parseField .minute (listing [45, 0, 30, 15, 0]).toList = .ok set ∧
      set.Collects [45, 0, 30, 15, 0] ∧ set ≠ .full .minute ∧
      parseField .minute (listing set.values).toList = .ok set ∧
      Schedule.parse "45,0,30,15,0\t9-17  *\n*\u2003 1-5" =
        .ok (.cron ⟨set, .ofList [9, 10, 11, 12, 13, 14, 15, 16, 17], .full .dayOfMonth,
          .full .month, .ofList [1, 2, 3, 4, 5]⟩) := by
  obtain ⟨hlisting, hagain, -, hschedule⟩ := parseField_listing_round_trip
  obtain ⟨set, hread, hcollects, hfull⟩ := hlisting .minute [45, 0, 30, 15, 0] (by decide)
    (by decide)
  have htext : (listing [45, 0, 30, 15, 0]).toList = quartersAtWork .minute := by decide +kernel
  have hspaced : Spaced (Field.all.map quartersAtWork)
      "45,0,30,15,0\t9-17  *\n*\u2003 1-5".toList :=
    .cons (quartersAtWork .minute) ['\t'] (by decide) (by decide) <|
    .cons (quartersAtWork .hour) [' ', ' '] (by decide) (by decide) <|
    .cons (quartersAtWork .dayOfMonth) ['\n'] (by decide) (by decide) <|
    .cons (quartersAtWork .month) ['\u2003', ' '] (by decide) (by decide) <|
    .single (quartersAtWork .dayOfWeek)
  refine ⟨set, hread, hcollects, fun hset => ?_, hagain .minute _ set hread,
    hschedule quartersAtWork _ (fun field => ?_) _ hspaced⟩
  · exact absurd (hfull.1 hset 1 (by decide) (by decide)) (by decide)
  · cases field with
    | minute => exact htext ▸ hread
    | hour | dayOfMonth | month | dayOfWeek => rfl

end CronDaemon.Cron
