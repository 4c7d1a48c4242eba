import CronDaemon.Text.Blank
import Mathlib.Data.List.DropRight

/-!
# Words and trimmed texts

Trimming is told by what it takes away at each end, and the words of a text by the blanks that stand
around them. The words are the pieces between single blanks, without the empty ones, so that blanks
at the ends of a text do not count.
-/

namespace CronDaemon.Text

/-- A text holds nothing but blanks. -/
def AllBlank (s : List Char) : Prop := ∀ c ∈ s, isBlank c = true

/-- A text holds no blank. -/
def NoBlank (s : List Char) : Prop := ∀ c ∈ s, isBlank c = false

instance (s : List Char) : Decidable (NoBlank s) :=
  List.decidableBAll (fun c => isBlank c = false) s

instance (s : List Char) : Decidable (AllBlank s) :=
  List.decidableBAll (fun c => isBlank c = true) s

/-- A text neither starts nor ends with a blank. -/
def IsBare (s : List Char) : Prop :=
  (∀ c ∈ s.head?, isBlank c = false) ∧ ∀ c ∈ s.getLast?, isBlank c = false

/-- The pieces of a text between its blanks, without the empty ones. -/
def tokens (s : List Char) : List (List Char) := (s.splitOnP isBlank).filter (· ≠ [])

/-- A text is made up of words with blanks between them. -/
inductive Spaced : List (List Char) → List Char → Prop
  | single (w : List Char) : Spaced [w] w
  | cons (w gap : List Char) {s : List Char} {ws : List (List Char)} (hgap : AllBlank gap)
      (hne : gap ≠ []) (h : Spaced ws s) : Spaced (w :: ws) (w ++ gap ++ s)

/-- What follows a word: nothing, or a blank first. -/
def EndsWord (s : List Char) : Prop := s = [] ∨ startsBlank s = true

variable {s t w lead trail rest : List Char} {c : Char}

theorem AllBlank.nil : AllBlank [] := fun _ h => absurd h List.not_mem_nil

theorem AllBlank.append (hs : AllBlank s) (ht : AllBlank t) : AllBlank (s ++ t) :=
  fun c hc => (List.mem_append.1 hc).elim (hs c) (ht c)

theorem NoBlank.append (hs : NoBlank s) (ht : NoBlank t) : NoBlank (s ++ t) :=
  fun c hc => (List.mem_append.1 hc).elim (hs c) (ht c)

theorem NoBlank.isBare (h : NoBlank s) : IsBare s :=
  ⟨fun c hc => h c (List.mem_of_head? hc), fun c hc => h c (List.mem_of_getLast? hc)⟩

/-- Two bare texts with a gap between them are bare together. -/
theorem IsBare.append (hs : IsBare s) (ht : IsBare t) (hsne : s ≠ []) (htne : t ≠ [])
    (gap : List Char) : IsBare (s ++ gap ++ t) := by
  constructor
  · rw [List.append_assoc, List.head?_append_of_ne_nil _ hsne]
    exact hs.1
  · rw [List.getLast?_append_of_ne_nil _ htne]
    exact ht.2

theorem AllBlank.endsWord (h : AllBlank s) : EndsWord s := by
  cases s with
  | nil => exact .inl rfl
  | cons c s => exact .inr (h c List.mem_cons_self)

theorem EndsWord.append (hs : EndsWord s) (ht : EndsWord t) : EndsWord (s ++ t) := by
  cases s with
  | nil => exact ht
  | cons c s => exact .inr (hs.resolve_left (List.cons_ne_nil c s))

/-- A bare text ends a word only when it is empty. -/
theorem IsBare.eq_nil_of_endsWord (hbare : IsBare s) (h : EndsWord s) : s = [] := by
  cases s with
  | nil => rfl
  | cons c s =>
    have hc : isBlank c = true := h.resolve_left (List.cons_ne_nil c s)
    rw [hbare.1 c rfl] at hc
    cases hc

/-- Trimming leaves the one bare text with nothing but blanks around it. -/
theorem trim_eq_iff : trim s = t ↔
    IsBare t ∧ ∃ lead trail, AllBlank lead ∧ AllBlank trail ∧ s = lead ++ t ++ trail := by
  constructor
  · rintro rfl
    have hfront : s.takeWhile isBlank ++ trimStart s = s := List.takeWhile_append_dropWhile
    have hback : trim s ++ (trimStart s).rtakeWhile isBlank = trimStart s :=
      List.rdropWhile_append_rtakeWhile
    refine ⟨⟨fun c hc => ?_, fun c hc => ?_⟩, s.takeWhile isBlank, (trimStart s).rtakeWhile isBlank,
      fun c hc => List.mem_takeWhile_imp hc, fun c hc => List.mem_rtakeWhile_imp hc, ?_⟩
    · have hhead : (s.dropWhile isBlank).head? = some c := by
        rw [show s.dropWhile isBlank = trimStart s from rfl, ← hback, List.head?_append,
          Option.mem_def.1 hc]
        rfl
      have hnot := List.head?_dropWhile_not isBlank s
      rwa [hhead] at hnot
    · have hne : trim s ≠ [] := List.ne_nil_of_mem (List.mem_of_getLast? hc)
      have hnot : ¬ isBlank ((trim s).getLast hne) := List.rdropWhile_last_not _ _ hne
      rw [List.getLast?_eq_some_getLast hne, Option.mem_some_iff] at hc
      rw [← hc]
      exact Bool.eq_false_iff.2 hnot
    · rw [List.append_assoc, hback, hfront]
  · rintro ⟨hbare, lead, trail, hlead, htrail, rfl⟩
    have hback : trimEnd (t ++ trail) = t := by
      rw [trimEnd, List.reverse_append, List.dropWhile_append_of_pos fun c hc =>
        htrail c (List.mem_reverse.1 hc), List.dropWhile_eq_self_iff.2, List.reverse_reverse]
      intro hpos hblank
      have hlast : t.getLast? = some t.reverse[0] := by
        rw [List.getLast?_eq_head?_reverse, List.head?_eq_getElem?, List.getElem?_eq_getElem hpos]
      rw [hbare.2 _ hlast] at hblank
      cases hblank
    cases t with
    | nil =>
      rw [trim, trimStart, List.append_nil, List.dropWhile_append_of_pos hlead,
        List.dropWhile_eq_nil_iff.2 htrail]
      rfl
    | cons c t =>
      rw [trim, trimStart, List.append_assoc, List.dropWhile_append_of_pos hlead, List.cons_append,
        List.dropWhile_cons_of_neg (Bool.eq_false_iff.1 (hbare.1 c rfl))]
      exact hback

/-- Blanks at the end of a text do not matter for what trimming leaves. -/
theorem trim_append_of_allBlank (h : AllBlank trail) : trim (s ++ trail) = trim s := by
  obtain ⟨hbare, lead, trail', hlead, htrail', hs⟩ := trim_eq_iff.1 (Eq.refl (trim s))
  refine trim_eq_iff.2 ⟨hbare, lead, trail' ++ trail, hlead, htrail'.append h, ?_⟩
  rw [← List.append_assoc, ← hs]

/-- The words of a text are the pieces between its blanks, without the empty ones. -/
theorem words_eq_tokens (s : List Char) : words s = tokens s := by
  induction s with
  | nil => rfl
  | cons c s ih =>
    have hcons : tokens (c :: s) = if isBlank c then tokens s else
        (List.modifyHead (List.cons c) (s.splitOnP isBlank)).filter (· ≠ []) := by
      rw [tokens, List.splitOnP_cons_eq_if_modifyHead]
      split <;> rfl
    rw [words, ih, hcons]
    refine if_congr Iff.rfl rfl ?_
    -- The piece that `c` joins is empty when a blank or nothing follows.
    cases s with
    | nil => rfl
    | cons d s =>
      rw [startsBlank, tokens, List.splitOnP_cons_eq_if_modifyHead]
      obtain ⟨piece, pieces, hsplit⟩ := List.exists_cons_of_ne_nil (List.splitOnP_ne_nil isBlank s)
      rw [hsplit]
      split <;> rfl

@[simp]
theorem tokens_nil : tokens [] = [] := rfl

/-- A blank parts the tokens before it from those after it. -/
theorem tokens_append_cons (hc : isBlank c = true) (s t : List Char) :
    tokens (s ++ c :: t) = tokens s ++ tokens t := by
  rw [tokens, List.splitOnP_append_cons s t hc, List.filter_append]
  rfl

theorem tokens_cons (hc : isBlank c = true) (s : List Char) : tokens (c :: s) = tokens s :=
  tokens_append_cons hc [] s

theorem tokens_of_noBlank (hw : NoBlank w) (hne : w ≠ []) : tokens w = [w] := by
  rw [tokens, List.splitOnP_eq_singleton hw]
  simp [hne]

/-- Blanks in front of a text do not count. -/
theorem tokens_append_of_allBlank (h : AllBlank lead) : tokens (lead ++ s) = tokens s := by
  induction lead with
  | nil => rfl
  | cons c lead ih =>
    obtain ⟨hc, hlead⟩ := List.forall_mem_cons.1 h
    rw [List.cons_append, tokens_cons hc, ih hlead]

theorem tokens_of_allBlank (h : AllBlank s) : tokens s = [] := by
  rw [← List.append_nil s, tokens_append_of_allBlank h, tokens_nil]

/-- Blanks at the end of a text do not count. -/
theorem tokens_append_of_allBlank_right (h : AllBlank trail) : tokens (s ++ trail) = tokens s := by
  cases trail with
  | nil => rw [List.append_nil]
  | cons c trail =>
    obtain ⟨hc, htrail⟩ := List.forall_mem_cons.1 h
    rw [tokens_append_cons hc, tokens_of_allBlank htrail, List.append_nil]

/-- A word in front of what ends it is the first token. -/
theorem tokens_append_of_noBlank (hw : NoBlank w) (hne : w ≠ []) (hrest : EndsWord rest) :
    tokens (w ++ rest) = w :: tokens rest := by
  cases rest with
  | nil => rw [List.append_nil, tokens_of_noBlank hw hne, tokens_nil]
  | cons c rest =>
    have hc : isBlank c = true := hrest.resolve_left (List.cons_ne_nil c rest)
    rw [tokens_append_cons hc, tokens_of_noBlank hw hne, tokens_cons hc]
    rfl

/-- A text splits where its first blank stands. -/
theorem exists_noBlank_append (s : List Char) : ∃ w rest, s = w ++ rest ∧ NoBlank w ∧
    EndsWord rest := by
  induction s with
  | nil => exact ⟨[], [], rfl, fun _ h => absurd h List.not_mem_nil, .inl rfl⟩
  | cons c s ih =>
    cases hc : isBlank c with
    | true => exact ⟨[], c :: s, rfl, fun _ h => absurd h List.not_mem_nil, .inr hc⟩
    | false =>
      obtain ⟨w, rest, rfl, hw, hrest⟩ := ih
      exact ⟨c :: w, rest, rfl, List.forall_mem_cons.2 ⟨hc, hw⟩, hrest⟩

/-- A text is blank, or it has a first word with blanks in front. -/
theorem allBlank_or_exists_word (s : List Char) :
    AllBlank s ∨ ∃ lead w rest, s = lead ++ w ++ rest ∧
    AllBlank lead ∧ NoBlank w ∧ w ≠ [] ∧ EndsWord rest := by
  induction s with
  | nil => exact .inl AllBlank.nil
  | cons c s ih =>
    cases hc : isBlank c with
    | true =>
      rcases ih with hs | ⟨lead, w, rest, rfl, hlead, hw⟩
      · exact .inl (List.forall_mem_cons.2 ⟨hc, hs⟩)
      · exact .inr ⟨c :: lead, w, rest, rfl, List.forall_mem_cons.2 ⟨hc, hlead⟩, hw⟩
    | false =>
      obtain ⟨w, rest, rfl, hw, hrest⟩ := exists_noBlank_append s
      exact .inr ⟨[], c :: w, rest, rfl, AllBlank.nil, List.forall_mem_cons.2 ⟨hc, hw⟩,
        List.cons_ne_nil c w, hrest⟩

/-- A text has no tokens exactly when it is blank. -/
theorem tokens_eq_nil_iff : tokens s = [] ↔ AllBlank s := by
  refine ⟨fun h => (allBlank_or_exists_word s).resolve_right ?_, tokens_of_allBlank⟩
  rintro ⟨lead, w, rest, rfl, hlead, hw, hne, hrest⟩
  rw [List.append_assoc, tokens_append_of_allBlank hlead,
    tokens_append_of_noBlank hw hne hrest] at h
  cases h

/-- The first token is the word that stands in front, after blanks. -/
theorem tokens_eq_cons_iff {ws : List (List Char)} : tokens s = w :: ws ↔ ∃ lead rest,
    s = lead ++ w ++ rest ∧ AllBlank lead ∧ NoBlank w ∧ w ≠ [] ∧ EndsWord rest ∧
      tokens rest = ws := by
  constructor
  · intro h
    rcases allBlank_or_exists_word s with hblank | ⟨lead, w', rest, rfl, hlead, hw, hne, hrest⟩
    · rw [tokens_of_allBlank hblank] at h
      cases h
    · rw [List.append_assoc, tokens_append_of_allBlank hlead,
        tokens_append_of_noBlank hw hne hrest] at h
      obtain ⟨rfl, rfl⟩ := List.cons.inj h
      exact ⟨lead, rest, rfl, hlead, hw, hne, hrest, rfl⟩
  · rintro ⟨lead, rest, rfl, hlead, hw, hne, hrest, rfl⟩
    rw [List.append_assoc, tokens_append_of_allBlank hlead, tokens_append_of_noBlank hw hne hrest]

/-- The words between blanks are the tokens. -/
theorem Spaced.tokens_eq {ws : List (List Char)} (h : Spaced ws s)
    (hws : ∀ w ∈ ws, NoBlank w ∧ w ≠ []) : tokens s = ws := by
  induction h with
  | single w =>
    obtain ⟨hw, hne⟩ := hws w List.mem_cons_self
    exact tokens_of_noBlank hw hne
  | @cons w gap s ws hgap hgapne _ ih =>
    obtain ⟨⟨hw, hne⟩, hws⟩ := List.forall_mem_cons.1 hws
    have hends : EndsWord (gap ++ s) := by
      obtain ⟨c, gap, rfl⟩ := List.exists_cons_of_ne_nil hgapne
      exact .inr (hgap c List.mem_cons_self)
    rw [List.append_assoc, tokens_append_of_noBlank hw hne hends,
      tokens_append_of_allBlank hgap, ih hws]

/-- Pieces without blanks make up a text without blanks, if the separator is none. -/
theorem NoBlank.intercalate {sep : List Char} {pieces : List (List Char)} (hsep : NoBlank sep)
    (h : ∀ piece ∈ pieces, NoBlank piece) : NoBlank (sep.intercalate pieces) := by
  induction pieces with
  | nil => exact fun _ hc => absurd hc List.not_mem_nil
  | cons piece pieces ih =>
    obtain ⟨hpiece, hpieces⟩ := List.forall_mem_cons.1 h
    cases pieces with
    | nil => rwa [List.intercalate_singleton]
    | cons next pieces =>
      rw [List.intercalate_cons_cons]
      exact (hpiece.append hsep).append (ih hpieces)

/-- Trimming keeps the tokens. -/
theorem tokens_trim (s : List Char) : tokens (trim s) = tokens s := by
  obtain ⟨-, lead, trail, hlead, htrail, hs⟩ := trim_eq_iff.1 (Eq.refl (trim s))
  conv_rhs => rw [hs, tokens_append_of_allBlank_right htrail, tokens_append_of_allBlank hlead]

/-- A text trims to nothing exactly when it has no tokens. -/
theorem trim_eq_nil_iff : trim s = [] ↔ tokens s = [] := by
  rw [← tokens_trim s, tokens_eq_nil_iff]
  exact ⟨fun h => h ▸ AllBlank.nil, fun h => (trim_eq_iff.1 rfl).1.eq_nil_of_endsWord h.endsWord⟩

/-- A text trims to a word exactly when that is its only token. -/
theorem trim_eq_word_iff (hw : NoBlank w) (hne : w ≠ []) : trim s = w ↔ tokens s = [w] := by
  rw [trim_eq_iff, tokens_eq_cons_iff]
  constructor
  · rintro ⟨-, lead, trail, hlead, htrail, rfl⟩
    exact ⟨lead, trail, rfl, hlead, hw, hne, htrail.endsWord, tokens_of_allBlank htrail⟩
  · rintro ⟨lead, rest, rfl, hlead, -, -, -, hrest⟩
    exact ⟨hw.isBare, lead, rest, hlead, tokens_eq_nil_iff.1 hrest, rfl⟩

end CronDaemon.Text
