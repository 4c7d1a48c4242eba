import CronDaemon.Proofs.Cron.FieldGrammar
import CronDaemon.Proofs.Text.Words

/-!
# The grammar of schedules

What a text is as a schedule is told by its tokens: none at all, `@every` in front, one shortcut, or
fields. Reading a schedule follows these rules and no others, so that texts of the same tokens are
the same schedule unless they name an interval.
-/

namespace CronDaemon.Cron

open Text (tokens IsBare AllBlank NoBlank EndsWord)

/-- A text is `@every` and, after blanks, the text of an interval. -/
def NamesInterval (s rest : List Char) : Prop :=
  IsBare rest ∧ ∃ lead gap trail, AllBlank lead ∧ AllBlank gap ∧ AllBlank trail ∧
    s = lead ++ "@every".toList ++ gap ++ rest ++ trail ∧ (rest ≠ [] → gap ≠ [])

/-- Tokens are left to be read as fields: there are some, the first one is not `@every`, and they
are not one shortcut. -/
def AreFields (words : List (List Char)) : Prop :=
  words ≠ [] ∧ words.head? ≠ some "@every".toList ∧
    ∀ name text, (name, text) ∈ Schedule.shortcuts → words ≠ [name.toList]

/-- Five tokens are read as the five fields in their order. -/
def ReadsAs (words : List (List Char)) (fields : CronFields) : Prop :=
  words.length = Field.all.length ∧
    ∀ p ∈ Field.all.zip words, parseField p.1 p.2 = .ok (fields.get p.1)

/-- The first token that its field rejects, and what is wrong with it. -/
def FirstFault (words : List (List Char)) (e : CronError) : Prop :=
  words.length = Field.all.length ∧ ∃ before field word after,
    Field.all.zip words = before ++ (field, word) :: after ∧
    (∀ p ∈ before, ∃ set, parseField p.1 p.2 = .ok set) ∧ parseField field word = .error e

/-- What a text is as a schedule, or what is wrong with it. -/
inductive Reads (interval : IntervalParser) (s : List Char) : Except CronError Schedule → Prop
  | empty (h : tokens s = []) : Reads interval s (.error .empty)
  | every {rest : List Char} {d : Duration} (h : NamesInterval s rest)
      (hd : interval rest = .ok d) (hpos : 0 < d.nanos) : Reads interval s (.ok (.every d))
  | zero {rest : List Char} {d : Duration} (h : NamesInterval s rest)
      (hd : interval rest = .ok d) (hzero : d.nanos = 0) :
      Reads interval s (.error (.invalidInterval (String.ofList rest) .zero))
  | interval {rest : List Char} {cause : IntervalError} (h : NamesInterval s rest)
      (hcause : interval rest = .error cause) :
      Reads interval s (.error (.invalidInterval (String.ofList rest) cause))
  | shortcut {name text : String} {fields : CronFields} (h : (name, text) ∈ Schedule.shortcuts)
      (hname : tokens s = [name.toList]) (hfields : ReadsAs (tokens text.toList) fields) :
      Reads interval s (.ok (.cron fields))
  | count (h : AreFields (tokens s)) (hcount : (tokens s).length ≠ Field.all.length) :
      Reads interval s (.error (.fieldCount (tokens s).length))
  | fields {fields : CronFields} (h : AreFields (tokens s)) (hfields : ReadsAs (tokens s) fields) :
      Reads interval s (.ok (.cron fields))
  | fault {e : CronError} (h : AreFields (tokens s)) (hfault : FirstFault (tokens s) e) :
      Reads interval s (.error e)

variable {interval : IntervalParser} {s t rest : List Char} {words : List (List Char)}
  {fields : CronFields} {e : CronError}

theorem noBlank_everyWord : NoBlank "@every".toList := by decide

/-- The names of shortcuts are words. -/
theorem noBlank_of_mem_shortcuts {name text : String} (h : (name, text) ∈ Schedule.shortcuts) :
    NoBlank name.toList ∧ name.toList ≠ [] := by
  have hall : ∀ p ∈ Schedule.shortcuts, NoBlank p.1.toList ∧ p.1.toList ≠ [] := by decide
  exact hall (name, text) h

/-- A text that names an interval is its word and what trimming leaves of the rest. -/
theorem namesInterval_iff : NamesInterval s rest ↔ ∃ lead after,
    s = lead ++ "@every".toList ++ after ∧
    AllBlank lead ∧ EndsWord after ∧ Text.trim after = rest := by
  constructor
  · rintro ⟨hbare, lead, gap, trail, hlead, hgap, htrail, rfl, hne⟩
    refine ⟨lead, gap ++ rest ++ trail, by simp only [List.append_assoc], hlead, ?_,
      Text.trim_eq_iff.2 ⟨hbare, gap, trail, hgap, htrail, rfl⟩⟩
    cases gap with
    | nil =>
      rw [of_not_not fun h => hne h rfl]
      exact htrail.endsWord
    | cons c gap => exact .inr (hgap c List.mem_cons_self)
  · rintro ⟨lead, after, rfl, hlead, hafter, hrest⟩
    obtain ⟨hbare, gap, trail, hgap, htrail, rfl⟩ := Text.trim_eq_iff.1 hrest
    refine ⟨hbare, lead, gap, trail, hlead, hgap, htrail, by simp only [List.append_assoc], ?_⟩
    rintro hne rfl
    cases rest with
    | nil => exact hne rfl
    | cons c rest =>
      have hblank : Text.isBlank c = true := hafter.resolve_left (List.cons_ne_nil _ _)
      rw [hbare.1 c rfl] at hblank
      cases hblank

/-- The text of an interval is what trimming leaves after `@every`, if the word ends there. -/
theorem everyText?_eq_some_iff : Schedule.everyText? s = some rest ↔
    ∃ after, s = "@every".toList ++ after ∧ EndsWord after ∧ Text.trim after = rest := by
  rw [Schedule.everyText?]
  constructor
  · intro h
    split at h
    · next after hstrip =>
      split at h
      · next hends =>
        cases h
        refine ⟨after, Text.stripStart_eq_some_iff.1 hstrip, ?_, rfl⟩
        simpa [EndsWord] using hends
      · cases h
    · cases h
  · rintro ⟨after, rfl, hends, rfl⟩
    have hends : (after.isEmpty || Text.startsBlank after) = true := by simpa [EndsWord] using hends
    simp only [Text.stripStart_eq_some_iff.2 rfl, hends, if_true]

/-- What follows `@every` in the trimmed text is what follows it in the text. -/
theorem everyText?_trim_eq_some_iff :
    Schedule.everyText? (Text.trim s) = some rest ↔ NamesInterval s rest := by
  rw [everyText?_eq_some_iff]
  constructor
  · rintro ⟨after, htrim, hends, hrest⟩
    obtain ⟨-, lead, trail, hlead, htrail, hs⟩ := Text.trim_eq_iff.1 htrim
    refine namesInterval_iff.2 ⟨lead, after ++ trail, ?_, hlead, hends.append htrail.endsWord, ?_⟩
    · rw [hs]
      simp only [List.append_assoc]
    · rw [Text.trim_append_of_allBlank htrail, hrest]
  · rintro ⟨hbare, lead, gap, trail, hlead, hgap, htrail, rfl, hne⟩
    have hword : IsBare "@every".toList := noBlank_everyWord.isBare
    by_cases hrest : rest = []
    · subst hrest
      refine ⟨[], Text.trim_eq_iff.2 ⟨?_, lead, gap ++ trail, hlead, hgap.append htrail, ?_⟩,
        .inl rfl, rfl⟩
      · exact hword
      · simp only [List.append_assoc, List.append_nil]
    · refine ⟨gap ++ rest, Text.trim_eq_iff.2 ⟨?_, lead, trail, hlead, htrail, ?_⟩, ?_, ?_⟩
      · rw [← List.append_assoc]
        exact hword.append hbare (by decide) hrest gap
      · simp only [List.append_assoc]
      · obtain ⟨c, gap, rfl⟩ := List.exists_cons_of_ne_nil (hne hrest)
        exact .inr (hgap c List.mem_cons_self)
      · exact Text.trim_eq_iff.2 ⟨hbare, gap, [], hgap, AllBlank.nil, (List.append_nil _).symm⟩

/-- A text names an interval exactly when its first token is `@every`. -/
theorem exists_namesInterval_iff :
    (∃ rest, NamesInterval s rest) ↔ (tokens s).head? = some "@every".toList := by
  rw [List.head?_eq_some_iff]
  constructor
  · rintro ⟨rest, h⟩
    obtain ⟨lead, after, htext, hlead, hafter, -⟩ := namesInterval_iff.1 h
    exact ⟨tokens after, Text.tokens_eq_cons_iff.2
      ⟨lead, after, htext, hlead, noBlank_everyWord, by decide, hafter, rfl⟩⟩
  · rintro ⟨words, h⟩
    obtain ⟨lead, after, htext, hlead, -, -, hafter, -⟩ := Text.tokens_eq_cons_iff.1 h
    exact ⟨Text.trim after, namesInterval_iff.2 ⟨lead, after, htext, hlead, hafter, rfl⟩⟩

/-- Reading one by one fails at the first one that cannot be read. -/
theorem mapM_eq_error_iff {α β ε : Type} {f : α → Except ε β} {xs : List α} {e : ε} :
    xs.mapM f = .error e ↔ ∃ before x after, xs = before ++ x :: after ∧
      (∀ y ∈ before, ∃ b, f y = .ok b) ∧ f x = .error e := by
  constructor
  · intro h
    induction xs with
    | nil => cases h
    | cons y xs ih =>
      rw [List.mapM_cons] at h
      cases hy : f y with
      | error e' =>
        rw [hy] at h
        cases h
        exact ⟨[], y, xs, rfl, by simp, hy⟩
      | ok b =>
        cases hxs : xs.mapM f with
        | ok bs =>
          rw [hy, hxs] at h
          cases h
        | error e' =>
          rw [hy, hxs] at h
          cases h
          obtain ⟨before, x, after, rfl, hbefore, hx⟩ := ih hxs
          exact ⟨y :: before, x, after, rfl, List.forall_mem_cons.2 ⟨⟨b, hy⟩, hbefore⟩, hx⟩
  · rintro ⟨before, x, after, rfl, hbefore, hx⟩
    induction before with
    | nil =>
      rw [List.nil_append, List.mapM_cons, hx]
      rfl
    | cons y before ih =>
      obtain ⟨⟨b, hy⟩, hbefore⟩ := List.forall_mem_cons.1 hbefore
      rw [List.cons_append, List.mapM_cons, hy, ih hbefore]
      rfl

/-- As many words as there are fields are five. -/
theorem exists_five (h : words.length = Field.all.length) :
    ∃ minute hour dayOfMonth month dayOfWeek,
      words = [minute, hour, dayOfMonth, month, dayOfWeek] := by
  match words, h with
  | [minute, hour, dayOfMonth, month, dayOfWeek], _ => exact ⟨_, _, _, _, _, rfl⟩

/-- Five tokens are read one after the other. -/
theorem CronFields.parse_eq_mapM (h : (tokens s).length = Field.all.length) :
    ∃ collect : List FieldSet → CronFields, CronFields.parse s =
      ((Field.all.zip (tokens s)).mapM fun p => parseField p.1 p.2).map collect := by
  obtain ⟨minute, hour, dayOfMonth, month, dayOfWeek, hwords⟩ := exists_five h
  refine ⟨fun sets => ⟨sets.getD 0 .empty, sets.getD 1 .empty, sets.getD 2 .empty,
    sets.getD 3 .empty, sets.getD 4 .empty⟩, ?_⟩
  rw [CronFields.parse, Text.words_eq_tokens, hwords]
  simp only [Field.all, List.zip_cons_cons, List.zip_nil_right, List.mapM_cons, List.mapM_nil]
  cases parseField .minute minute <;> cases parseField .hour hour <;>
    cases parseField .dayOfMonth dayOfMonth <;> cases parseField .month month <;>
    cases parseField .dayOfWeek dayOfWeek <;> rfl

/-- Too few or too many words are refused with their number. -/
theorem CronFields.parse_of_length_ne (h : (tokens s).length ≠ Field.all.length) :
    CronFields.parse s = .error (.fieldCount (tokens s).length) := by
  rw [CronFields.parse, Text.words_eq_tokens]
  split
  · next hwords =>
    rw [hwords] at h
    exact absurd rfl h
  · rfl

/-- Fields are read exactly from the texts whose words stand for them. -/
theorem CronFields.parse_eq_ok_iff : CronFields.parse s = .ok fields ↔
    ReadsAs (tokens s) fields := by
  constructor
  · intro h
    rw [CronFields.parse, Text.words_eq_tokens] at h
    split at h
    · next hwords =>
      obtain ⟨minute, hminute, h⟩ := bind_eq_ok_iff.1 h
      obtain ⟨hour, hhour, h⟩ := bind_eq_ok_iff.1 h
      obtain ⟨dayOfMonth, hdayOfMonth, h⟩ := bind_eq_ok_iff.1 h
      obtain ⟨month, hmonth, h⟩ := bind_eq_ok_iff.1 h
      obtain ⟨dayOfWeek, hdayOfWeek, h⟩ := bind_eq_ok_iff.1 h
      cases h
      rw [hwords]
      refine ⟨rfl, ?_⟩
      simp only [Field.all, List.zip_cons_cons, List.zip_nil_right, List.forall_mem_cons]
      exact ⟨hminute, hhour, hdayOfMonth, hmonth, hdayOfWeek, by simp⟩
    · cases h
  · rintro ⟨hlength, hread⟩
    obtain ⟨minute, hour, dayOfMonth, month, dayOfWeek, hwords⟩ := exists_five hlength
    rw [hwords] at hread
    simp only [Field.all, List.zip_cons_cons, List.zip_nil_right, List.forall_mem_cons] at hread
    obtain ⟨hminute, hhour, hdayOfMonth, hmonth, hdayOfWeek, -⟩ := hread
    rw [CronFields.parse, Text.words_eq_tokens, hwords]
    simp only [hminute, hhour, hdayOfMonth, hmonth, hdayOfWeek, bind, Except.bind]
    rfl

/-- A text is refused for the number of its words, or else for the first of them that is at fault.
-/
theorem CronFields.parse_eq_error_iff : CronFields.parse s = .error e ↔
    (tokens s).length ≠ Field.all.length ∧ e = .fieldCount (tokens s).length ∨
      FirstFault (tokens s) e := by
  by_cases hlength : (tokens s).length = Field.all.length
  · obtain ⟨collect, hparse⟩ := CronFields.parse_eq_mapM hlength
    have hfault : CronFields.parse s = .error e ↔
        (Field.all.zip (tokens s)).mapM (fun p => parseField p.1 p.2) = .error e := by
      rw [hparse]
      cases (Field.all.zip (tokens s)).mapM (fun p => parseField p.1 p.2) <;> simp [Except.map]
    rw [hfault, mapM_eq_error_iff]
    simp only [FirstFault, hlength, ne_eq, not_true, false_and, false_or, true_and, Prod.exists]
  · rw [CronFields.parse_of_length_ne hlength]
    simp only [FirstFault, hlength, false_and, or_false, ne_eq, not_false_eq_true, true_and,
      Except.error.injEq, eq_comm]

/-- The fields depend on the tokens alone. -/
theorem CronFields.parse_congr (h : tokens s = tokens t) :
    CronFields.parse s = CronFields.parse t := by
  rw [CronFields.parse, CronFields.parse, Text.words_eq_tokens, Text.words_eq_tokens, h]

namespace Schedule

/-- A shortcut is expanded to its text. -/
theorem expand_of_mem_shortcuts {name text : String} (h : (name, text) ∈ shortcuts) :
    expand name.toList = text.toList := by
  have hall : ∀ p ∈ shortcuts, expand p.1.toList = p.2.toList := by decide
  exact hall (name, text) h

/-- A text that is no shortcut stands for itself. -/
theorem expand_of_not_shortcut (h : ∀ name text, (name, text) ∈ shortcuts → s ≠ name.toList) :
    expand s = s := by
  rw [expand]
  split
  · next name text hfind =>
    refine absurd ?_ (h name text (List.mem_of_find?_eq_some hfind))
    have hname := List.find?_some hfind
    exact (beq_iff_eq.1 hname).symm
  · rfl

/-- The fields that a shortcut stands for are fields. -/
theorem exists_parse_of_mem_shortcuts {name text : String} (h : (name, text) ∈ shortcuts) :
    ∃ fields, CronFields.parse text.toList = .ok fields := by
  have hall : ∀ p ∈ shortcuts, (CronFields.parse p.2.toList).isOk = true := by decide
  have hok := hall (name, text) h
  cases hparse : CronFields.parse text.toList with
  | ok fields => exact ⟨fields, rfl⟩
  | error e =>
    rw [hparse] at hok
    cases hok

/-- A text that names an interval is read by the parser of intervals. -/
theorem parseChars_of_namesInterval (h : NamesInterval s rest) : parseChars interval s =
    match interval rest with
    | .ok d =>
      if d.nanos = 0 then .error (.invalidInterval (String.ofList rest) .zero) else .ok (.every d)
    | .error cause => .error (.invalidInterval (String.ofList rest) cause) := by
  have hne : (Text.trim s).isEmpty = false := by
    rw [List.isEmpty_eq_false_iff, Ne, Text.trim_eq_nil_iff]
    intro hnil
    have hhead := exists_namesInterval_iff.1 ⟨rest, h⟩
    rw [hnil] at hhead
    cases hhead
  simp only [parseChars, hne, Bool.false_eq_true, if_false, everyText?_trim_eq_some_iff.2 h,
    parseEvery]
  cases interval rest with
  | error cause => rfl
  | ok d =>
    by_cases hzero : d.nanos = 0
    · simp only [bind, Except.bind, if_pos hzero]
      rfl
    · simp only [bind, Except.bind, if_neg hzero]
      rfl

/-- A text whose first token is another word is expanded and read as fields. -/
theorem parseChars_of_head?_ne (hne : tokens s ≠ [])
    (hhead : (tokens s).head? ≠ some "@every".toList) :
    parseChars interval s = (CronFields.parse (expand (Text.trim s))).map .cron := by
  have htrim : (Text.trim s).isEmpty = false := by
    rw [List.isEmpty_eq_false_iff, Ne, Text.trim_eq_nil_iff]
    exact hne
  have hnone : everyText? (Text.trim s) = none :=
    Option.eq_none_iff_forall_ne_some.2 fun rest h =>
      hhead (exists_namesInterval_iff.1 ⟨rest, everyText?_trim_eq_some_iff.1 h⟩)
  simp only [parseChars, htrim, Bool.false_eq_true, if_false, hnone]

/-- A shortcut is read as its text. -/
theorem parseChars_of_shortcut {name text : String} (h : (name, text) ∈ shortcuts)
    (hname : tokens s = [name.toList]) :
    parseChars interval s = (CronFields.parse text.toList).map .cron := by
  obtain ⟨hword, hne⟩ := noBlank_of_mem_shortcuts h
  have hother : ∀ p ∈ shortcuts, p.1.toList ≠ "@every".toList := by decide
  rw [parseChars_of_head?_ne, (Text.trim_eq_word_iff hword hne).2 hname, expand_of_mem_shortcuts h]
  · rw [hname]
    exact List.cons_ne_nil _ _
  · rw [hname, List.head?_cons, Ne, Option.some.injEq]
    exact hother (name, text) h

/-- Every other text is read as fields. -/
theorem parseChars_of_areFields (h : AreFields (tokens s)) :
    parseChars interval s = (CronFields.parse s).map .cron := by
  obtain ⟨hne, hhead, hshortcut⟩ := h
  rw [parseChars_of_head?_ne hne hhead, expand_of_not_shortcut,
    CronFields.parse_congr (Text.tokens_trim s)]
  intro name text hmem htrim
  obtain ⟨hword, hname⟩ := noBlank_of_mem_shortcuts hmem
  exact hshortcut name text hmem ((Text.trim_eq_word_iff hword hname).1 htrim)

/-- A text has no tokens, names an interval or a shortcut, or is read as fields. -/
theorem text_cases (s : List Char) : tokens s = [] ∨ (∃ rest, NamesInterval s rest) ∨
    (∃ name text, (name, text) ∈ shortcuts ∧ tokens s = [name.toList]) ∨ AreFields (tokens s) := by
  by_cases hnil : tokens s = []
  · exact .inl hnil
  by_cases hhead : (tokens s).head? = some "@every".toList
  · exact .inr (.inl (exists_namesInterval_iff.2 hhead))
  by_cases hshortcut : ∃ name text, (name, text) ∈ shortcuts ∧ tokens s = [name.toList]
  · exact .inr (.inr (.inl hshortcut))
  · exact .inr (.inr (.inr ⟨hnil, hhead, fun name text hmem hname =>
      hshortcut ⟨name, text, hmem, hname⟩⟩))

/-- What reading a schedule gives follows the rules. -/
theorem reads_parseChars (interval : IntervalParser) (s : List Char) :
    Reads interval s (parseChars interval s) := by
  rcases text_cases s with hnil | ⟨rest, hevery⟩ | ⟨name, text, hmem, hname⟩ | hfields
  · have htrim : Text.trim s = [] := Text.trim_eq_nil_iff.2 hnil
    rw [show parseChars interval s = .error .empty by simp [parseChars, htrim]]
    exact .empty hnil
  · rw [parseChars_of_namesInterval hevery]
    cases hd : interval rest with
    | error cause => exact .interval hevery hd
    | ok d =>
      by_cases hzero : d.nanos = 0
      · simp only [if_pos hzero]
        exact .zero hevery hd hzero
      · simp only [if_neg hzero]
        exact .every hevery hd (Nat.pos_of_ne_zero hzero)
  · obtain ⟨fields, hparse⟩ := exists_parse_of_mem_shortcuts hmem
    rw [parseChars_of_shortcut hmem hname, hparse]
    exact .shortcut hmem hname (CronFields.parse_eq_ok_iff.1 hparse)
  · rw [parseChars_of_areFields hfields]
    cases hparse : CronFields.parse s with
    | ok fields => exact .fields hfields (CronFields.parse_eq_ok_iff.1 hparse)
    | error e =>
      rcases CronFields.parse_eq_error_iff.1 hparse with ⟨hcount, rfl⟩ | hfault
      · exact .count hfields hcount
      · exact .fault hfields hfault

/-- The rules leave no choice. -/
theorem parseChars_of_reads {r : Except CronError Schedule} (h : Reads interval s r) :
    parseChars interval s = r := by
  cases h with
  | empty h =>
    have htrim : Text.trim s = [] := Text.trim_eq_nil_iff.2 h
    simp [parseChars, htrim]
  | every h hd hpos => simp only [parseChars_of_namesInterval h, hd, if_neg hpos.ne']
  | zero h hd hzero => simp only [parseChars_of_namesInterval h, hd, if_pos hzero]
  | interval h hcause => rw [parseChars_of_namesInterval h, hcause]
  | shortcut h hname hfields =>
    rw [parseChars_of_shortcut h hname, CronFields.parse_eq_ok_iff.2 hfields]
    rfl
  | count h hcount =>
    rw [parseChars_of_areFields h, CronFields.parse_of_length_ne hcount]
    rfl
  | fields h hfields =>
    rw [parseChars_of_areFields h, CronFields.parse_eq_ok_iff.2 hfields]
    rfl
  | fault h hfault =>
    rw [parseChars_of_areFields h, CronFields.parse_eq_error_iff.2 (.inr hfault)]
    rfl

end Schedule

/-- What is wrong with a field is told; reading it never breaks off. -/
theorem fault?_of_parseField {field : Field} (h : parseField field s = .error e) :
    e.fault? = none := by
  have hvalue : ∀ {s e}, ValueFault field s e → e.fault? = none := by
    intro s e h
    cases h <;> rfl
  have hrange : ∀ {s e}, RangeFault field s e → e.fault? = none := by
    intro s e h
    cases h with
    | low _ h => exact hvalue h
    | high _ h => exact hvalue h
    | order => rfl
  rcases parseField_cases field s with ⟨r, hr, -⟩ | ⟨_, part, _, e', he', -, -, hpart⟩
  · rw [hr] at h
    cases h
  · rw [he'] at h
    cases h
    cases hpart with
    | step => rfl
    | steppedRange _ _ h => exact hrange h
    | steppedValue => rfl
    | range _ h => exact hrange h
    | single _ _ _ h => exact hvalue h

/-- Only an interval at which the parser breaks off has a fault. -/
theorem IntervalError.eq_broken_of_fault? {cause : IntervalError} {fault : Fault}
    (h : cause.fault? = some fault) : cause = .broken fault := by
  cases cause <;> cases h
  rfl

namespace Schedule

/-- Five tokens are a cron schedule exactly when every field accepts its token. -/
theorem exists_parseChars_iff (h : AreFields (tokens s))
    (hcount : (tokens s).length = Field.all.length) :
    (∃ fields, parseChars interval s = .ok (.cron fields)) ↔
      ∀ p ∈ Field.all.zip (tokens s), ∃ set, parseField p.1 p.2 = .ok set := by
  rw [parseChars_of_areFields h]
  constructor
  · rintro ⟨fields, hparse⟩ p hp
    obtain ⟨fields', hfields, -⟩ := map_eq_ok_iff.1 hparse
    exact ⟨_, (CronFields.parse_eq_ok_iff.1 hfields).2 p hp⟩
  · intro haccept
    cases hparse : CronFields.parse s with
    | ok fields => exact ⟨fields, rfl⟩
    | error e =>
      rcases CronFields.parse_eq_error_iff.1 hparse with
        ⟨hne, -⟩ | ⟨-, before, field, word, after, hsplit, -, hfault⟩
      · exact absurd hcount hne
      · obtain ⟨set, hset⟩ := haccept (field, word) (hsplit ▸ by simp)
        rw [hset] at hfault
        cases hfault

/-- Texts of the same tokens are read alike, unless they name an interval. -/
theorem parseChars_congr (h : tokens t = tokens s) (hs : ∀ rest, ¬ NamesInterval s rest) :
    parseChars interval t = parseChars interval s := by
  rcases text_cases s with hnil | ⟨rest, hevery⟩ | ⟨name, text, hmem, hname⟩ | hfields
  · rw [parseChars_of_reads (.empty hnil), parseChars_of_reads (.empty (h.trans hnil))]
  · exact absurd hevery (hs rest)
  · rw [parseChars_of_shortcut hmem hname, parseChars_of_shortcut hmem (h.trans hname)]
  · rw [parseChars_of_areFields hfields, parseChars_of_areFields (h ▸ hfields),
      CronFields.parse_congr h]

/-- Fields that are read were told by words. -/
theorem readsAs_of_reads {fields : CronFields} (h : Reads interval s (.ok (.cron fields))) :
    ∃ words, ReadsAs words fields := by
  cases h with
  | shortcut _ _ hfields => exact ⟨_, hfields⟩
  | fields _ hfields => exact ⟨_, hfields⟩

/-- Every field that is read admits a value, and only values within its bound. -/
theorem get_of_readsAs {fields : CronFields} (h : ReadsAs words fields) (field : Field) :
    (fields.get field).IsWithin field ∧ ∃ v, (fields.get field).contains v = true := by
  obtain ⟨hcount, hread⟩ := h
  obtain ⟨minute, hour, dayOfMonth, month, dayOfWeek, rfl⟩ := exists_five hcount
  simp only [Field.all, List.zip_cons_cons, List.zip_nil_right, List.forall_mem_cons] at hread
  obtain ⟨hminute, hhour, hdayOfMonth, hmonth, hdayOfWeek, -⟩ := hread
  cases field with
  | minute => exact parseField_values hminute
  | hour => exact parseField_values hhour
  | dayOfMonth => exact parseField_values hdayOfMonth
  | month => exact parseField_values hmonth
  | dayOfWeek => exact parseField_values hdayOfWeek

/-- What is read of a text is what the text says. -/
theorem reads_parse {s : String} {r : Except CronError Schedule} (h : parseWith interval s = r) :
    Reads interval s.toList r := h ▸ reads_parseChars interval s.toList

/-- However the text of an interval is read, reading a schedule follows the rules and no others:
what it gives is decided by the tokens of the text and, after `@every`, by what the text of the
interval is read as. `parse` is the case of `Interval.parse`. -/
theorem parse_eq_iff_reads (interval : IntervalParser) (s : String) :
    (∀ r, parseWith interval s = r ↔ Reads interval s.toList r) ∧
    ((∃ rest, NamesInterval s.toList rest) ↔ (tokens s.toList).head? = some "@every".toList) ∧
    (AreFields (tokens s.toList) → (tokens s.toList).length = Field.all.length →
      ((∃ fields, parseWith interval s = .ok (.cron fields)) ↔
        ∀ p ∈ Field.all.zip (tokens s.toList), ∃ set, parseField p.1 p.2 = .ok set)) ∧
    (∀ t : String, tokens t.toList = tokens s.toList → (∀ rest, ¬ NamesInterval s.toList rest) →
      parseWith interval t = parseWith interval s) ∧
    (∀ fields, parseWith interval s = .ok (.cron fields) → ∀ field,
      (fields.get field).IsWithin field ∧ ∃ v, (fields.get field).contains v = true) ∧
    (∀ d, parseWith interval s = .ok (.every d) → 0 < d.nanos) ∧
    ∀ e fault, parseWith interval s = .error e → e.fault? = some fault →
      ∃ rest, NamesInterval s.toList rest ∧ interval rest = .error (.broken fault) := by
  refine ⟨fun _ => ⟨reads_parse, parseChars_of_reads⟩,
    exists_namesInterval_iff, exists_parseChars_iff, fun t h hs => parseChars_congr h hs,
      ?_, ?_, ?_⟩
  · intro fields h
    obtain ⟨words, hread⟩ := readsAs_of_reads (reads_parse h)
    exact get_of_readsAs hread
  · intro d h
    cases reads_parse h with
    | every _ _ hpos => exact hpos
  · intro e fault h hbroken
    cases reads_parse h with
    | empty => cases hbroken
    | zero => cases hbroken
    | interval hevery hcause =>
      exact ⟨_, hevery, IntervalError.eq_broken_of_fault? hbroken ▸ hcause⟩
    | count => cases hbroken
    | fault _ hfault =>
      obtain ⟨-, _, _, _, _, -, -, hfault⟩ := hfault
      rw [fault?_of_parseField hfault] at hbroken
      cases hbroken

/-- `@every` is a word of its own, and a shortcut stands alone. -/
example : parse "@everyday" = .error (.fieldCount 1) ∧
    parse "@daily @daily" = .error (.fieldCount 2) := by
  decide

end Schedule

end CronDaemon.Cron
