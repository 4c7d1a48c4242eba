import CronDaemon.Proofs.Settings.Merging
import CronDaemon.Proofs.Text.Pieces
import CronDaemon.Settings.Load

/-!
# What loading comes to

All that can be wrong with the settings stands in one list, in the order in which it is found: first
the file, then the variables that are to hold numbers, and at last the rules that the settings break
once they are put together. The first of these is what loading answers; without any, every setting
has the value that the variables give it, or else the file, or else its built-in one. What the
variables give is told by the bytes that they are set to. The decoder of files and the database of
zones are whatever they are.
-/

namespace CronDaemon.Settings

namespace Source

theorem precedence_injective {a b : Source} (h : a.precedence = b.precedence) : a = b := by
  cases a <;> cases b <;> first | rfl | cases h

theorem pairwise_inOrder (sources : List Source) :
    (inOrder sources).Pairwise fun a b => decide (a.precedence ≤ b.precedence) = true := by
  refine List.pairwise_mergeSort (fun a b c hab hbc => ?_) (fun a b => ?_) sources
  · rw [decide_eq_true_iff] at hab hbc ⊢
    exact Nat.le_trans hab hbc
  · rw [Bool.or_eq_true, decide_eq_true_iff, decide_eq_true_iff]
    exact Nat.le_total ..

/-- In whatever order sources are given, they are read in the same one. -/
theorem inOrder_eq_of_perm {given others : List Source} (h : given.Perm others) :
    inOrder given = inOrder others := by
  have hperm : (inOrder given).Perm (inOrder others) :=
    (List.mergeSort_perm ..).trans (h.trans (List.mergeSort_perm ..).symm)
  refine hperm.eq_of_pairwise (fun a b _ _ hab hba => ?_) (pairwise_inOrder _) (pairwise_inOrder _)
  rw [decide_eq_true_iff] at hab hba
  exact precedence_injective (Nat.le_antisymm hab hba)

theorem inOrder_all : inOrder all = all := List.mergeSort_of_pairwise (by decide)

end Source

section

variable {ε α β : Type}

/-- An error is what comes of the first problem that there is. -/
def FirstOf : List (ε → Prop) → ε → Prop
  | [], _ => False
  | problem :: problems, e => problem e ∨ (∀ other, ¬ problem other) ∧ FirstOf problems e

theorem firstOf_cons_of_none {problem : ε → Prop} {problems : List (ε → Prop)}
    (h : ∀ e, ¬ problem e) (e : ε) : FirstOf (problem :: problems) e ↔ FirstOf problems e :=
  ⟨fun hfirst => hfirst.elim (fun hproblem => absurd hproblem (h e)) (·.2),
    fun hfirst => .inr ⟨h, hfirst⟩⟩

/-- Where a condition holds, the problem that it makes is the first one. -/
theorem firstOf_cons_of_holds {condition : Prop} (h : condition) (cause e : ε)
    (problems : List (ε → Prop)) :
    FirstOf ((fun e => condition ∧ e = cause) :: problems) e ↔ cause = e := by
  refine ⟨fun hfirst => ?_, fun he => .inl ⟨h, he.symm⟩⟩
  rcases hfirst with ⟨-, he⟩ | ⟨hnone, -⟩
  · exact he.symm
  · exact absurd ⟨h, rfl⟩ (hnone cause)

/-- There is an error unless there is no problem at all. -/
theorem forall_not_firstOf_iff {problems : List (ε → Prop)} :
    (∀ e, ¬ FirstOf problems e) ↔ ∀ problem ∈ problems, ∀ e, ¬ problem e := by
  induction problems with
  | nil => exact iff_of_true (fun e => id) nofun
  | cons problem problems ih =>
    rw [List.forall_mem_cons, ← ih]
    constructor
    · intro h
      have hnone : ∀ e, ¬ problem e := fun e hproblem => h e (.inl hproblem)
      exact ⟨hnone, fun e hfirst => h e ((firstOf_cons_of_none hnone e).2 hfirst)⟩
    · rintro ⟨hnone, hrest⟩ e hfirst
      exact hrest e ((firstOf_cons_of_none hnone e).1 hfirst)

/-- The first problem of two lists stands in the first of them, or else in the second one. -/
theorem firstOf_append_iff {problems others : List (ε → Prop)} (e : ε) :
    FirstOf (problems ++ others) e ↔
      FirstOf problems e ∨ (∀ other, ¬ FirstOf problems other) ∧ FirstOf others e := by
  rw [forall_not_firstOf_iff]
  induction problems with
  | nil => simp [FirstOf]
  | cons problem problems ih =>
    simp only [List.cons_append, FirstOf, ih, List.forall_mem_cons]
    tauto

/-- What is done in two steps fails in the first one, or else in the second one. -/
theorem bind_eq_error_iff_append {x : Except ε α} {f : α → Except ε β}
    {problems others : List (ε → Prop)} (hx : ∀ e, x = .error e ↔ FirstOf problems e)
    (hf : ∀ a, x = .ok a → ∀ e, f a = .error e ↔ FirstOf others e) (e : ε) :
    x >>= f = .error e ↔ FirstOf (problems ++ others) e := by
  rw [firstOf_append_iff]
  cases x with
  | error first =>
    have hfirst : FirstOf problems first := (hx first).1 rfl
    refine ⟨fun he => .inl ((hx e).1 (congrArg Except.error (Except.error.inj he))), fun h => ?_⟩
    rcases h with hproblem | ⟨hnone, -⟩
    · exact congrArg Except.error (Except.error.inj ((hx e).2 hproblem))
    · exact absurd hfirst (hnone first)
  | ok a =>
    have hnone : ∀ e, ¬ FirstOf problems e := fun e hproblem => nomatch (hx e).2 hproblem
    refine Iff.trans (hf a rfl e) ⟨fun h => .inr ⟨hnone, h⟩, fun h => ?_⟩
    exact h.elim (fun hproblem => absurd hproblem (hnone e)) (·.2)

theorem bind_eq_error_iff {x : Except ε α} {f : α → Except ε β} {problem : ε → Prop}
    {problems : List (ε → Prop)} (hx : ∀ e, x = .error e ↔ problem e)
    (hf : ∀ a, x = .ok a → ∀ e, f a = .error e ↔ FirstOf problems e) (e : ε) :
    x >>= f = .error e ↔ FirstOf (problem :: problems) e := by
  show _ ↔ FirstOf ([problem] ++ problems) e
  refine bind_eq_error_iff_append (fun e => ?_) hf e
  rw [hx, FirstOf, FirstOf, and_false, or_false]

end

namespace Environment

variable {env : Environment} {name text width : String} {e : ConfigError}

/-- A variable is set to a text that is not empty. Bytes that encode no text count as little as no
bytes at all. -/
def Sets (env : Environment) (name text : String) : Prop :=
  env.get? name = some text.toUTF8 ∧ text ≠ ""

/-- A variable is set to a number of 64 bits. -/
def Holds (env : Environment) (name : String) (n : Nat) : Prop :=
  ∃ text, env.Sets name text ∧ Text.IsNumeral text.toList n ∧ n < 2 ^ 64

/-- A variable is set to a truth value: `true` in any case and `1` are true, all else is false. -/
def Affirms (env : Environment) (name : String) (value : Bool) : Prop :=
  ∃ text, env.Sets name text ∧ (value = true ↔ text.toLower = "true" ∨ text = "1")

/-- What is wrong with a variable that is to hold a number: it is set to a text that is no such
number. -/
def Refuses (env : Environment) (name width : String) (e : ConfigError) : Prop :=
  ∃ text, env.Sets name text ∧ (∀ n < 2 ^ 64, ¬ Text.IsNumeral text.toList n) ∧
    e = .invalidValue name (.notNumber width text)

/-- The value that the variables give a setting. -/
def Gives (env : Environment) {α : Type} : Leaf α → α → Prop
  | .enabled => env.Affirms "PASTA_SERVER_SCHEDULER_ENABLED"
  | .timezone => env.Sets "PASTA_SERVER_SCHEDULER_TIMEZONE"
  | .catchUpWindowSecs => env.Holds "PASTA_SERVER_SCHEDULER_CATCH_UP_WINDOW_SECS"
  | .taskTimeoutSecs => env.Holds "PASTA_SERVER_SCHEDULER_TASK_TIMEOUT_SECS"
  | .shutdownGraceSecs => env.Holds "PASTA_SERVER_SCHEDULER_SHUTDOWN_GRACE_SECS"
  | .maxConcurrentTasks => env.Holds "PASTA_SERVER_SCHEDULER_MAX_CONCURRENT_TASKS"
  | .level => env.Sets "PASTA_SERVER_LOG_LEVEL"
  | .taskSchedule _ | .taskEnabled _ | .taskSkippable _ => fun _ => False

/-- What can be wrong with the variables, in the order in which those that are to hold numbers are
read. -/
def problems (env : Environment) : List (ConfigError → Prop) :=
  [env.Refuses "PASTA_SERVER_SCHEDULER_CATCH_UP_WINDOW_SECS" "u64",
   env.Refuses "PASTA_SERVER_SCHEDULER_TASK_TIMEOUT_SECS" "u64",
   env.Refuses "PASTA_SERVER_SCHEDULER_SHUTDOWN_GRACE_SECS" "u64",
   env.Refuses "PASTA_SERVER_SCHEDULER_MAX_CONCURRENT_TASKS" "usize"]

/-- The text of a variable is the one that it is set to. -/
theorem text?_eq_some_iff : env.text? name = some text ↔ env.Sets name text := by
  simp only [text?, Option.filter_eq_some_iff, Option.bind_eq_some_iff, Text.fromUTF8?_eq_some_iff,
    decide_eq_true_eq, Sets]
  refine and_congr_left' (Iff.intro ?_ fun h => ⟨_, h, rfl⟩)
  rintro ⟨bytes, hbytes, rfl⟩
  exact hbytes

theorem equalsWord_true_iff : equalsWord text "true" = true ↔ text.toLower = "true" := by
  have hlower : text.toLower.toList = text.toList.map Char.toLower := String.toList_map
  rw [equalsWord, beq_iff_eq, ← String.toList_inj, hlower]

theorem bool?_eq_some_iff {value : Bool} : env.bool? name = some value ↔
    env.Affirms name value := by
  simp only [bool?, Option.map_eq_some_iff, text?_eq_some_iff, Affirms]
  refine exists_congr fun text => and_congr_right fun _ => ?_
  rw [← equalsWord_true_iff, ← beq_iff_eq (a := text), ← Bool.or_eq_true]
  cases value <;> simp

/-- A text is read as a number exactly if it is the numeral of one of 64 bits. -/
theorem numeral?_max64_eq_some_iff {s : List Char} {n : Nat} :
    Text.numeral? Text.max64 s = some n ↔ Text.IsNumeral s n ∧ n < 2 ^ 64 := by
  rw [Text.numeral?_eq_some_iff, Text.le_max64_iff]

/-- Reading a number fails for a text that is none. -/
theorem number?_eq_error_iff : env.number? width name = .error e ↔ env.Refuses name width e := by
  rw [number?, Refuses]
  simp only [← text?_eq_some_iff]
  cases htext : env.text? name with
  | none => simp
  | some text =>
    simp only [Option.some.injEq, exists_eq_left']
    cases hn : Text.numeral? Text.max64 text.toList with
    | some n =>
      obtain ⟨hnumeral, hfits⟩ := numeral?_max64_eq_some_iff.1 hn
      exact iff_of_false nofun fun h => h.1 n hfits hnumeral
    | none =>
      have hnone : ∀ n < 2 ^ 64, ¬ Text.IsNumeral text.toList n := by
        intro n hfits hnumeral
        cases hn.symm.trans (numeral?_max64_eq_some_iff.2 ⟨hnumeral, hfits⟩)
      simp only [Except.error.injEq, and_iff_right hnone, eq_comm]

/-- A number that is read is the one that the variable holds. -/
theorem eq_some_iff_of_number? {value : Option Nat} (h : env.number? width name = .ok value)
    (n : Nat) : value = some n ↔ env.Holds name n := by
  rw [number?] at h
  simp only [Holds, ← text?_eq_some_iff, ← numeral?_max64_eq_some_iff]
  cases htext : env.text? name with
  | none =>
    rw [htext] at h
    cases h
    simp
  | some text =>
    simp only [htext] at h
    simp only [Option.some.injEq, exists_eq_left']
    split at h
    · next m hm =>
      cases h
      rw [hm]
    · cases h

/-- The variables make up a layer unless one of them does not hold the number that it is to hold. -/
theorem layer_eq_error_iff (e : ConfigError) : env.layer = .error e ↔ FirstOf env.problems e := by
  refine bind_eq_error_iff (fun e => number?_eq_error_iff) (fun _ _ => ?_) e
  refine bind_eq_error_iff (fun e => number?_eq_error_iff) (fun _ _ => ?_)
  refine bind_eq_error_iff (fun e => number?_eq_error_iff) (fun _ _ => ?_)
  exact bind_eq_error_iff (fun e => number?_eq_error_iff) fun _ _ e => iff_of_false nofun id

/-- The layer that the variables make up says what they give, and nothing about single tasks. -/
theorem read_of_layer {layer : Layer} (h : env.layer = .ok layer) :
    (∀ {α : Type} (leaf : Leaf α) (v : α), layer.read leaf = some v ↔ env.Gives leaf v) ∧
      ∀ id, layer.override? id = none := by
  obtain ⟨catchUp, hcatchUp, h⟩ := bind_eq_ok_iff.1 h
  obtain ⟨timeout, htimeout, h⟩ := bind_eq_ok_iff.1 h
  obtain ⟨grace, hgrace, h⟩ := bind_eq_ok_iff.1 h
  obtain ⟨workers, hworkers, h⟩ := bind_eq_ok_iff.1 h
  cases h
  refine ⟨fun leaf v => ?_, fun id => rfl⟩
  cases leaf with
  | enabled => exact bool?_eq_some_iff
  | timezone | level => exact text?_eq_some_iff
  | catchUpWindowSecs => exact eq_some_iff_of_number? hcatchUp v
  | taskTimeoutSecs => exact eq_some_iff_of_number? htimeout v
  | shutdownGraceSecs => exact eq_some_iff_of_number? hgrace v
  | maxConcurrentTasks => exact eq_some_iff_of_number? hworkers v
  | taskSchedule | taskEnabled | taskSkippable => exact iff_of_false nofun id

end Environment

namespace ConfigFile

/-- What can be wrong with the file at a path: the system refuses to read it, it holds no text, or
it holds one that the decoder finds malformed. -/
inductive Fails (decode : Decoder) (path : String) : ConfigFile → ConfigError → Prop
  | refused (fault : SystemFault) :
      Fails decode path (.refused fault) (.unreadable path (.system fault))
  | notText {bytes : ByteArray} (h : ∀ text : String, bytes ≠ text.toUTF8) :
      Fails decode path (.contents bytes) (.unreadable path .notText)
  | malformed {text : String} (h : decode text = none) :
      Fails decode path (.contents text.toUTF8) (.malformed path)

/-- The settings of a file. One that is missing sets nothing, nor does one that fails. -/
def settings (decode : Decoder) : ConfigFile → Layer
  | missing | refused _ => Layer.empty
  | contents bytes => ((String.fromUTF8? bytes).bind decode).getD Layer.empty

variable {file : ConfigFile} {decode : Decoder} {path : String}

theorem layer_eq_error_iff (e : ConfigError) :
    file.layer decode path = .error e ↔ file.Fails decode path e := by
  constructor
  · intro h
    unfold layer at h
    split at h
    · cases h
    · cases h
      exact .refused _
    · split at h
      · next hnone =>
        cases h
        exact .notText fun text htext => by
          cases hnone.symm.trans (Text.fromUTF8?_eq_some_iff.2 htext)
      · next text htext =>
        obtain rfl := Text.fromUTF8?_eq_some_iff.1 htext
        split at h <;> cases h
        exact .malformed ‹_›
  · intro h
    cases h with
    | refused => rfl
    | @notText bytes h =>
      have hnone : String.fromUTF8? bytes = none :=
        Option.eq_none_iff_forall_ne_some.2 fun text htext => h text
          (Text.fromUTF8?_eq_some_iff.1 htext)
      simp only [layer, hnone]
    | malformed h => simp only [layer, Text.fromUTF8?_eq_some_iff.2 rfl, h]

theorem eq_settings_of_layer {layer : Layer} (h : file.layer decode path = .ok layer) :
    layer = file.settings decode := by
  unfold ConfigFile.layer at h
  split at h
  · exact (Except.ok.inj h).symm
  · cases h
  · split at h
    · cases h
    · next text htext =>
      split at h
      · next hlayer =>
        cases h
        rw [settings, htext, Option.bind_some, hlayer, Option.getD_some]
      · cases h

end ConfigFile

/-- The rules in the order in which they are checked. -/
def Violation.all : List Violation := [unknownZone, noTaskTimeout, noWorkers]

namespace Origins

variable {origins : Origins} {decode : Decoder} {zones : Zone.Database}

/-- The value that a setting comes to: the one of the variables, or else of the file, or else the
built-in one. -/
def ComesTo (origins : Origins) (decode : Decoder) {α : Type} (leaf : Leaf α) (v : α) : Prop :=
  origins.environment.Gives leaf v ∨ (∀ other, ¬ origins.environment.Gives leaf other) ∧
    ((origins.file.settings decode).read leaf).or leaf.default? = some v

/-- The settings break a rule once they are put together. -/
def Breaks (origins : Origins) (decode : Decoder) (zones : Zone.Database) : Violation → Prop
  | .unknownZone => ∃ name, origins.ComesTo decode .timezone name ∧ zones name = none
  | .noTaskTimeout => origins.ComesTo decode .taskTimeoutSecs 0
  | .noWorkers => origins.ComesTo decode .maxConcurrentTasks 0

/-- What can be wrong with the settings once they are put together, in the order in which it is
checked. -/
def violations (origins : Origins) (decode : Decoder) (zones : Zone.Database) :
    List (ConfigError → Prop) :=
  Violation.all.map fun rule e => origins.Breaks decode zones rule ∧ e = .violation rule

/-- All that can be wrong with the settings, in the order in which it is found. -/
def problems (origins : Origins) (decode : Decoder) (zones : Zone.Database) :
    List (ConfigError → Prop) :=
  origins.file.Fails decode origins.path ::
    (origins.environment.problems ++ origins.violations decode zones)

/-- The check of settings that come to what they are to come to finds the first rule that is
broken. -/
theorem finalize_eq_error_iff {layer : Layer}
    (h : ∀ {α : Type} (leaf : Leaf α) (v : α),
      layer.resolve.read leaf = some v ↔ origins.ComesTo decode leaf v) (e : ConfigError) :
    layer.finalize zones = .error e ↔ FirstOf (origins.violations decode zones) e := by
  have hzone : (zones layer.resolveScheduler.timezone).isNone = true ↔
      origins.Breaks decode zones .unknownZone := by
    rw [Option.isNone_iff_eq_none]
    refine Iff.intro (fun hnone => ⟨_, (h .timezone _).1 rfl, hnone⟩) ?_
    rintro ⟨name, hname, hnone⟩
    have hread : layer.resolveScheduler.timezone = name :=
      Option.some.inj ((h .timezone name).2 hname)
    rwa [hread]
  have htimeout : layer.resolveScheduler.taskTimeoutSecs = 0 ↔
      origins.Breaks decode zones .noTaskTimeout :=
    (Option.some_inj (a := _) (b := 0)).symm.trans (h .taskTimeoutSecs 0)
  have hworkers : layer.resolveScheduler.maxConcurrentTasks = some 0 ↔
      origins.Breaks decode zones .noWorkers := h .maxConcurrentTasks 0
  have hfailed : ∀ rule, (Except.error (.violation rule) : Except ConfigError Config) = .error e ↔
      ConfigError.violation rule = e := fun rule => by rw [Except.error.injEq]
  rw [Layer.finalize, SchedulerConfig.violation?]
  simp only [violations, Violation.all, List.map_cons, List.map_nil]
  by_cases hfirst : origins.Breaks decode zones .unknownZone
  · rw [if_pos (hzone.2 hfirst), firstOf_cons_of_holds hfirst]
    exact hfailed .unknownZone
  rw [if_neg (mt hzone.1 hfirst), firstOf_cons_of_none fun e h => hfirst h.1]
  by_cases hsecond : origins.Breaks decode zones .noTaskTimeout
  · rw [if_pos (htimeout.2 hsecond), firstOf_cons_of_holds hsecond]
    exact hfailed .noTaskTimeout
  rw [if_neg (mt htimeout.1 hsecond), firstOf_cons_of_none fun e h => hsecond h.1]
  by_cases hthird : origins.Breaks decode zones .noWorkers
  · rw [if_pos (hworkers.2 hthird), firstOf_cons_of_holds hthird]
    exact hfailed .noWorkers
  rw [if_neg (mt hworkers.1 hthird), firstOf_cons_of_none fun e h => hthird h.1]
  refine iff_of_false (fun h => ?_) id
  cases h

/-- Merging the layers of the sources gives each setting the value that it comes to. -/
theorem read_resolve_mergeAll_iff {layer : Layer}
    (h : ∀ {α : Type} (leaf : Leaf α) (v : α),
      layer.read leaf = some v ↔ origins.environment.Gives leaf v) {α : Type} (leaf : Leaf α)
        (v : α) :
    (Layer.mergeAll [.empty, origins.file.settings decode, layer]).resolve.read leaf = some v ↔
      origins.ComesTo decode leaf v := by
  have hnone : layer.read leaf = none ↔ ∀ other, ¬ origins.environment.Gives leaf other := by
    simp only [Option.eq_none_iff_forall_ne_some, ne_eq, h]
  have hmerged : (Layer.mergeAll [.empty, origins.file.settings decode, layer]).resolve.read leaf =
      (layer.read leaf).or (((origins.file.settings decode).read leaf).or leaf.default?) := by
    rw [Layer.read_resolve_mergeAll_eq]
    simp only [Layer.uppermost?, List.reverse_cons, List.reverse_nil, List.nil_append,
      List.cons_append, List.findSome?_cons, List.findSome?_nil, Layer.read_empty]
    cases layer.read leaf <;> cases (origins.file.settings decode).read leaf <;> rfl
  rw [hmerged, Option.or_eq_some_iff, h, hnone, ComesTo]

/-- In whatever order sources are given, loading comes to the same. -/
theorem load_eq_of_perm (origins : Origins) {given others : List Source} (h : given.Perm others) :
    origins.load decode zones given = origins.load decode zones others := by
  rw [load, load, Source.inOrder_eq_of_perm h]

theorem override?_mergeAll {file layer : Layer} (h : ∀ id, layer.override? id = none)
    (id : String) : (Layer.mergeAll [.empty, file, layer]).override? id = file.override? id := by
  have hmerged : Layer.mergeAll [.empty, file, layer] = file.merge layer := by
    rw [Layer.mergeAll_empty_cons]
    exact congrArg (·.merge layer) (Layer.empty_merge file)
  rw [hmerged, Layer.override?_merge, h, Option.merge_none_right]

theorem load_all_eq (origins : Origins) : origins.load decode zones Source.all = (do
    let file ← origins.file.layer decode origins.path
    let environment ← origins.environment.layer
    (Layer.mergeAll [.empty, file, environment]).finalize zones) := by
  rw [load, Source.inOrder_all]
  simp only [Source.all, List.mapM_cons, List.mapM_nil, layer]
  cases origins.file.layer decode origins.path with
  | error e => rfl
  | ok file => cases origins.environment.layer <;> rfl

theorem load_environment_eq (origins : Origins) : origins.load decode zones [.environment] = (do
    (Layer.mergeAll [← origins.environment.layer]).finalize zones) := by
  rw [load, show Source.inOrder [.environment] = [.environment] from
    List.mergeSort_of_pairwise (List.pairwise_singleton ..)]
  simp only [List.mapM_cons, List.mapM_nil, layer]
  cases origins.environment.layer <;> rfl

/-- Loading fails with the first thing that is wrong, and with nothing else. -/
theorem load_all_eq_error_iff (e : ConfigError) : origins.load decode zones Source.all = .error e ↔
    FirstOf (origins.problems decode zones) e := by
  rw [load_all_eq]
  refine bind_eq_error_iff ConfigFile.layer_eq_error_iff (fun file hfile e => ?_) e
  obtain rfl := ConfigFile.eq_settings_of_layer hfile
  refine bind_eq_error_iff_append Environment.layer_eq_error_iff (fun layer hlayer => ?_) e
  exact finalize_eq_error_iff (read_resolve_mergeAll_iff (Environment.read_of_layer hlayer).1)

/-- In settings that were loaded each one has the value that it comes to. -/
theorem read_of_load {config : Config} (h : origins.load decode zones Source.all = .ok config) :
    (∀ {α : Type} (leaf : Leaf α) (v : α),
      config.read leaf = some v ↔ origins.ComesTo decode leaf v) ∧
    ∀ id, config.scheduler.tasks.get? id = (origins.file.settings decode).override? id := by
  rw [load_all_eq] at h
  obtain ⟨file, hfile, h⟩ := bind_eq_ok_iff.1 h
  obtain ⟨layer, hlayer, h⟩ := bind_eq_ok_iff.1 h
  obtain rfl := ConfigFile.eq_settings_of_layer hfile
  obtain rfl := Layer.eq_resolve_of_finalize h
  obtain ⟨hgives, hplain⟩ := Environment.read_of_layer hlayer
  refine ⟨read_resolve_mergeAll_iff hgives, fun id => ?_⟩
  rw [Layer.get?_tasks_resolve]
  exact override?_mergeAll hplain id

/-- What the file says about a setting that the variables set makes no difference. -/
theorem comesTo_of_overridden {file : ConfigFile} {α : Type} {leaf : Leaf α}
    (h : (∀ v, ¬ origins.environment.Gives leaf v) →
      (file.settings decode).read leaf = (origins.file.settings decode).read leaf) (v : α) :
    { origins with file := file }.ComesTo decode leaf v ↔ origins.ComesTo decode leaf v := by
  refine or_congr_right (and_congr_right fun hnone => ?_)
  rw [h hnone]

/-- Two files that fail alike, and say the same of every setting that the variables leave open, lead
to the same errors. -/
theorem load_eq_error_iff_of_overridden {file : ConfigFile}
    (hfails : ∀ e, file.Fails decode origins.path e ↔ origins.file.Fails decode origins.path e)
    (h : ∀ {α : Type} (leaf : Leaf α), (∀ v, ¬ origins.environment.Gives leaf v) →
      (file.settings decode).read leaf = (origins.file.settings decode).read leaf)
        (e : ConfigError) :
    { origins with file := file }.load decode zones Source.all = .error e ↔
      origins.load decode zones Source.all = .error e := by
  have hcomes : ∀ {α : Type} (leaf : Leaf α) (v : α), { origins with file := file }.ComesTo decode
      leaf v ↔ origins.ComesTo decode leaf v := fun leaf => comesTo_of_overridden (h leaf)
  have hbreaks : ({ origins with file := file } : Origins).Breaks decode zones =
      origins.Breaks decode zones := by
    funext rule
    cases rule <;> simp only [Breaks, hcomes]
  rw [load_all_eq_error_iff, load_all_eq_error_iff, problems, problems, violations, violations,
    hbreaks]
  simp only [FirstOf, hfails]

/-- Loading the settings of all sources fails with the first thing that is wrong with them: a file
that cannot be read or is malformed, then a variable that is set to a text that is not the number
that it is to hold, then a rule that is broken by what the settings come to. Otherwise each setting
has the value of the variables, or else of the file, or else its built-in one, and the overrides of
the tasks are those of the file. A variable counts if it is set to bytes that encode a text other
than the empty one. A value of the file is not looked at where a variable overrides it. Without a
file the outcome is that of the variables alone. The order in which the sources are given makes no
difference. -/
theorem load_all_first_problem (decode : Decoder) (zones : Zone.Database) (origins : Origins) :
    (∀ given : List Source, given.Perm Source.all →
      origins.load decode zones given = origins.load decode zones Source.all) ∧
    (∀ e, origins.load decode zones Source.all = .error e ↔
      FirstOf (origins.problems decode zones) e) ∧
    ((∀ problem ∈ origins.problems decode zones, ∀ e, ¬ problem e) →
      ∃ config, origins.load decode zones Source.all = .ok config ∧
        (∀ {α : Type} (leaf : Leaf α) (v : α),
          config.read leaf = some v ↔ origins.ComesTo decode leaf v) ∧
        ∀ id, config.scheduler.tasks.get? id = (origins.file.settings decode).override? id) ∧
    (∀ file : ConfigFile,
      (∀ e, file.Fails decode origins.path e ↔ origins.file.Fails decode origins.path e) →
      (∀ {α : Type} (leaf : Leaf α), (∀ v, ¬ origins.environment.Gives leaf v) →
        (file.settings decode).read leaf = (origins.file.settings decode).read leaf) →
      ∀ e, { origins with file := file }.load decode zones Source.all = .error e ↔
        origins.load decode zones Source.all = .error e) ∧
    (origins.file = .missing →
      origins.load decode zones Source.all = origins.load decode zones [.environment]) := by
  refine ⟨fun given => origins.load_eq_of_perm, load_all_eq_error_iff, fun hnone => ?_,
    fun file => load_eq_error_iff_of_overridden, fun hmissing => ?_⟩
  · cases hload : origins.load decode zones Source.all with
    | error e => exact absurd ((load_all_eq_error_iff e).1 hload) (forall_not_firstOf_iff.2 hnone e)
    | ok config => exact ⟨config, rfl, read_of_load hload⟩
  · rw [load_all_eq, load_environment_eq, hmissing]
    cases origins.environment.layer with
    | error e => rfl
    | ok layer =>
      exact congrArg (Layer.finalize · zones) (Layer.mergeAll_empty_cons [.empty, layer])

end Origins

end CronDaemon.Settings
