import Ambient.CommandLine.Invocation
import Mathlib.Data.List.Forall2
/-!
# Layouts of command lines

The words of a command line come in groups: an option with the word behind it, or a word of its own.
The words of a group are read together, whatever the second one looks like, so a command line is taken
apart into the arguments that it was put together from. What becomes of the arguments does not depend
on their order, except that the last value of an option counts, that a second file is refused, and that
a call for help ends everything.

## Main definitions

* `Argument.Spells`: the words of one argument, in any spelling.
* `Invocation.IsGivenBy`: arguments that say what an invocation holds, in any order.
* `Invocation.Draft.take`: one argument taken in.

## Main statements

* `Argument.ofWords_append`: a command line is taken apart group by group.
* `Invocation.ofArguments_append`: a run over arguments that are fine.
* `Invocation.parse_eq_ok_iff`: the command lines that stand for an invocation.
* `Invocation.exists_layout_iff`: the invocations that a command line stands for.
* `Invocation.parse_layout`: parsing undoes every layout; one file more, and a call for help.
-/

namespace Ambient

/-! ## Spellings -/

namespace Setting

variable {word : String} {s : Setting}

/-- The spellings of an option stand for that option and no other. -/
theorem ofFlag?_eq_some_iff : ofFlag? word = some s ↔ word ∈ s.flags := by
  constructor
  · intro found
    have spelled := List.find?_some found
    rwa [List.contains_iff_mem] at spelled
  · have known : ∀ t : Setting, ∀ flag ∈ t.flags, ofFlag? flag = some t := by
      intro t
      cases t <;> decide
    exact known s word

theorem longFlag_mem_flags (s : Setting) : s.longFlag ∈ s.flags := by
  cases s <;> decide

/-- An option starts with a dash and is more than that. -/
theorem dash_of_mem_flags (flag : word ∈ s.flags) :
    word.toList.head? = some '-' ∧ word ≠ "-" := by
  have dashed : ∀ t : Setting, ∀ flag ∈ t.flags, flag.toList.head? = some '-' ∧ flag ≠ "-" := by
    intro t
    cases t <;> decide
  exact dashed s word flag

end Setting

namespace Argument

/-- A word that names the file with the records: a dash, or a word that starts with none. -/
def IsPositional (word : String) : Prop :=
  word = "-" ∨ word.toList.head? ≠ some '-'

/-- The words of an argument. The value of an option may be any word. -/
inductive Spells : Argument → List String → Prop
  | denyWarnings : Spells .denyWarnings ["--deny-warnings"]
  | setting {s : Setting} {flag : String} (spelled : flag ∈ s.flags) (value : String) :
      Spells (.setting s value) [flag, value]
  | doclets {path : String} (positional : IsPositional path) : Spells (.doclets path) [path]

variable {a : Argument} {word : String} {group : List String}

/-- Words that start with a dash and are more than that name no file. -/
theorem IsPositional.ne (h : IsPositional word) {other : String}
    (dashed : other.toList.head? = some '-') (longer : other ≠ "-") : word ≠ other := by
  rintro rfl
  rcases h with dash | noDash
  · exact longer dash
  · exact noDash dashed

theorem IsPositional.ofFlag?_eq_none (h : IsPositional word) : Setting.ofFlag? word = none := by
  rw [Option.eq_none_iff_forall_ne_some]
  intro s found
  obtain ⟨dashed, longer⟩ := Setting.dash_of_mem_flags (Setting.ofFlag?_eq_some_iff.1 found)
  exact h.ne dashed longer rfl

theorem IsPositional.ofWord_eq (h : IsPositional word) : ofWord word = .doclets word := by
  have noHelp : word ∉ ["--help", "-h"] := by
    rw [List.mem_cons, List.mem_singleton, not_or]
    exact ⟨h.ne (by decide) (by decide), h.ne (by decide) (by decide)⟩
  have noDeny : word ≠ "--deny-warnings" := h.ne (by decide) (by decide)
  unfold IsPositional at h
  unfold ofWord
  rw [if_neg noHelp, if_neg noDeny, if_pos h]

/-- The words of an argument are read together. -/
theorem Spells.ofWords_append (h : Spells a group) (rest : List String) :
    ofWords (group ++ rest) = a :: ofWords rest := by
  cases h with
  | denyWarnings => rfl
  | setting spelled value =>
    have found := Setting.ofFlag?_eq_some_iff.2 spelled
    simp only [List.cons_append, List.nil_append, ofWords, found]
  | doclets positional =>
    simp only [List.cons_append, List.nil_append, ofWords, positional.ofFlag?_eq_none,
      positional.ofWord_eq]

/-- **A command line is taken apart group by group.** -/
theorem ofWords_append {arguments : List Argument} {groups : List (List String)}
    (spelled : List.Forall₂ Spells arguments groups) (rest : List String) :
    ofWords (groups.flatten ++ rest) = arguments ++ ofWords rest := by
  induction spelled with
  | nil => rfl
  | cons first _ ih => rw [List.flatten_cons, List.append_assoc, first.ofWords_append, ih]; rfl

/-- Whether an argument says something about an invocation. -/
def isStatement : Argument → Bool
  | .denyWarnings | .setting .. | .doclets _ => true
  | .help | .valueMissing _ | .unknown _ => false

theorem Spells.isStatement (h : Spells a group) : a.isStatement = true := by
  cases h <;> rfl

/-- Each of some arguments that are spelled out is spelled by one of the groups. -/
theorem exists_group {arguments : List Argument} {groups : List (List String)}
    (spelled : List.Forall₂ Spells arguments groups) : ∀ a ∈ arguments, ∃ group, Spells a group := by
  induction spelled with
  | nil => exact fun a mem => absurd mem List.not_mem_nil
  | cons first _ ih => exact List.forall_mem_cons.2 ⟨⟨_, first⟩, ih⟩

theorem isStatement_of_spelled {arguments : List Argument} {groups : List (List String)}
    (spelled : List.Forall₂ Spells arguments groups) : ∀ a ∈ arguments, a.isStatement = true := by
  intro a mem
  obtain ⟨group, spells⟩ := exists_group spelled a mem
  exact spells.isStatement

theorem spells_ofWord (states : (ofWord word).isStatement = true) : Spells (ofWord word) [word] := by
  unfold ofWord at states ⊢
  split at states
  · cases states
  · rename_i noHelp
    rw [if_neg noHelp]
    split at states
    · rename_i deny
      rw [if_pos deny, deny]
      exact .denyWarnings
    · rename_i noDeny
      rw [if_neg noDeny]
      split at states
      · rename_i positional
        rw [if_pos positional]
        exact .doclets positional
      · cases states

/-- A command line whose arguments all say something is put together from them. -/
theorem exists_spelled_ofWords (words : List String)
    (states : ∀ a ∈ ofWords words, a.isStatement = true) :
    ∃ groups, List.Forall₂ Spells (ofWords words) groups ∧ groups.flatten = words := by
  fun_induction ofWords words with
  | case1 => exact ⟨[], .nil, rfl⟩
  | case2 word rest noFlag ih =>
    rw [List.forall_mem_cons] at states
    obtain ⟨groups, spelled, whole⟩ := ih states.2
    refine ⟨[word] :: groups, .cons (spells_ofWord states.1) spelled, ?_⟩
    rw [List.flatten_cons, whole]
    rfl
  | case3 word s found =>
    rw [List.forall_mem_singleton] at states
    cases states
  | case4 word s found value rest ih =>
    rw [List.forall_mem_cons] at states
    obtain ⟨groups, spelled, whole⟩ := ih states.2
    have flag := Setting.ofFlag?_eq_some_iff.1 found
    refine ⟨[word, value] :: groups, .cons (.setting flag value) spelled, ?_⟩
    rw [List.flatten_cons, whole]
    rfl

/-- The file that an argument names. -/
def path? : Argument → Option String
  | .doclets path => some path
  | _ => none

/-- The value that an argument gives to an option. -/
def value? (s : Setting) : Argument → Option String
  | .setting t value => if t = s then some value else none
  | _ => none

end Argument

namespace Invocation

/-- The value of an option. -/
def get? (i : Invocation) : Setting → Option String
  | .config => i.config
  | .outDir => i.outDir
  | .root => i.root
  | .publicTypes => i.publicTypes

/-- The arguments, in any order, say what the invocation holds: its file once, for an option that is
set at least one value, the last of which counts, and for other options nothing. -/
structure IsGivenBy (i : Invocation) (arguments : List Argument) : Prop where
  doclets : arguments.filterMap Argument.path? = [i.doclets]
  settings : ∀ s, (arguments.filterMap (Argument.value? s)).getLast? = i.get? s
  denyWarnings : .denyWarnings ∈ arguments ↔ i.denyWarnings = true

/-- The options of an invocation that are set. -/
def setOptions (i : Invocation) : List Argument :=
  Setting.all.filterMap fun s => (i.get? s).map (.setting s)

theorem path?_setOptions (i : Invocation) : i.setOptions.filterMap Argument.path? = [] := by
  unfold setOptions
  rw [List.filterMap_filterMap, List.filterMap_eq_nil_iff]
  intro s _
  cases i.get? s <;> rfl

/-- Every option is among them at most once, with its own value. -/
theorem value?_setOptions (i : Invocation) (t : Setting) :
    i.setOptions.filterMap (Argument.value? t) = (i.get? t).toList := by
  have own : ∀ s, ((i.get? s).map (Argument.setting s)).bind (Argument.value? t) =
      if s = t then i.get? t else none := by
    intro s
    by_cases same : s = t
    · subst same
      cases i.get? s <;> simp [Argument.value?]
    · cases i.get? s <;> simp [Argument.value?, same]
  unfold setOptions
  rw [List.filterMap_filterMap]
  simp only [own]
  cases t <;> cases i.get? _ <;> rfl

theorem mem_setOptions {i : Invocation} {a : Argument} :
    a ∈ i.setOptions ↔ ∃ s value, i.get? s = some value ∧ a = .setting s value := by
  have listed : ∀ s, s ∈ Setting.all := fun s => by cases s <;> decide
  simp only [setOptions, List.mem_filterMap, listed, true_and, Option.map_eq_some_iff,
    @eq_comm _ a]

/-- Arguments that give an invocation, each option once. -/
def arguments (i : Invocation) : List Argument :=
  .doclets i.doclets :: (if i.denyWarnings then [.denyWarnings] else []) ++ i.setOptions

theorem isGivenBy_arguments (i : Invocation) : i.IsGivenBy i.arguments where
  doclets := by
    rw [arguments, List.filterMap_append, path?_setOptions]
    cases i.denyWarnings <;> rfl
  settings := by
    intro t
    rw [arguments, List.filterMap_append, value?_setOptions]
    cases i.denyWarnings <;> cases i.get? t <;> rfl
  denyWarnings := by
    have other : Argument.denyWarnings ∉ i.setOptions := by
      rintro mem
      obtain ⟨s, value, -, same⟩ := mem_setOptions.1 mem
      cases same
    cases deny : i.denyWarnings <;> simp [arguments, deny, other]

/-! ## Taking in arguments -/

namespace Draft

/-- The value of an option that is known so far. -/
def get? (d : Draft) : Setting → Option String
  | .config => d.config
  | .outDir => d.outDir
  | .root => d.root
  | .publicTypes => d.publicTypes

/-- One argument taken in. -/
def take (d : Draft) : Argument → Draft
  | .denyWarnings => { d with denyWarnings := true }
  | .setting s value => d.put value s
  | .doclets path => { d with doclets := some path }
  | .help | .valueMissing _ | .unknown _ => d

variable {d : Draft} {i : Invocation}

theorem doclets_take (d : Draft) (a : Argument) : (d.take a).doclets = a.path?.or d.doclets := by
  cases a with
  | setting s value => cases s <;> rfl
  | _ => rfl

theorem get?_take (s : Setting) (d : Draft) (a : Argument) :
    (d.take a).get? s = (a.value? s).or (d.get? s) := by
  cases a with
  | setting t value => cases t <;> cases s <;> rfl
  | _ => cases s <;> rfl

theorem denyWarnings_take (d : Draft) (a : Argument) :
    (d.take a).denyWarnings = true ↔ d.denyWarnings = true ∨ .denyWarnings = a := by
  cases a with
  | setting s value => cases s <;> simp [take, put]
  | _ => simp [take]

/-- **The last value counts.** What every argument overwrites or leaves alone is, after all of them,
what the last one of them says about it. -/
theorem foldl_take {known : Draft → Option String} {said? : Argument → Option String}
    (step : ∀ d a, known (d.take a) = (said? a).or (known d)) (arguments : List Argument)
    (d : Draft) :
    known (arguments.foldl take d) = (arguments.filterMap said?).getLast?.or (known d) := by
  induction arguments generalizing d with
  | nil => rfl
  | cons a rest ih =>
    rw [List.foldl_cons, ih, step]
    cases said : said? a with
    | none => rw [List.filterMap_cons_none said, Option.none_or]
    | some value =>
      rw [List.filterMap_cons_some said, List.getLast?_cons, Option.some_or]
      cases (rest.filterMap said?).getLast? <;> rfl

theorem denyWarnings_foldl (arguments : List Argument) (d : Draft) :
    (arguments.foldl take d).denyWarnings = true ↔
      d.denyWarnings = true ∨ .denyWarnings ∈ arguments := by
  induction arguments generalizing d with
  | nil => simp
  | cons a rest ih => rw [List.foldl_cons, ih, denyWarnings_take, List.mem_cons, or_assoc]

/-- A draft with a file in it is the invocation with the same contents. -/
theorem finish_eq_ok_iff : d.finish = .ok i ↔ d.doclets = some i.doclets ∧
    (∀ s, d.get? s = i.get? s) ∧ (d.denyWarnings = true ↔ i.denyWarnings = true) := by
  unfold finish
  constructor
  · intro finished
    split at finished
    · cases finished
    · rename_i path found
      cases finished
      exact ⟨found, fun s => by cases s <;> rfl, Iff.rfl⟩
  · rintro ⟨found, settings, deny⟩
    rw [found]
    have config : d.config = i.config := settings .config
    have outDir : d.outDir = i.outDir := settings .outDir
    have root : d.root = i.root := settings .root
    have publicTypes : d.publicTypes = i.publicTypes := settings .publicTypes
    have denyWarnings : d.denyWarnings = i.denyWarnings := Bool.eq_iff_iff.2 deny
    rw [config, outDir, root, publicTypes, denyWarnings]

end Draft

variable {d : Draft} {i : Invocation} {arguments front : List Argument} {words : List String}

/-- **A run over arguments that are fine.** If all of them say something and no second file is among
them, then they are taken in and the run goes on behind them. -/
theorem ofArguments_append (states : ∀ a ∈ front, a.isStatement = true)
    (once : (d.doclets.toList ++ front.filterMap Argument.path?).length ≤ 1)
    (rest : List Argument) :
    ofArguments d (front ++ rest) = ofArguments (front.foldl Draft.take d) rest := by
  induction front generalizing d with
  | nil => rfl
  | cons a front ih =>
    rw [List.forall_mem_cons] at states
    rw [List.cons_append, List.foldl_cons]
    cases a with
    | denyWarnings => exact ih states.2 once
    | setting s value =>
      have same : (d.put value s).doclets = d.doclets := by cases s <;> rfl
      exact ih states.2 (by rwa [same])
    | doclets path =>
      have none : d.doclets = none := by
        cases found : d.doclets with
        | none => rfl
        | some other => simp [found, Argument.path?] at once
      rw [none] at once
      have later := @ih { d with doclets := some path } states.2 once
      conv_lhs => unfold ofArguments
      rw [none]
      exact later
    | help => cases states.1
    | valueMissing s => cases states.1
    | unknown word => cases states.1

/-- A run that succeeds went over arguments that are fine. -/
theorem ofArguments_eq_ok_iff : ofArguments d arguments = .ok (some i) ↔
    (∀ a ∈ arguments, a.isStatement = true) ∧
      (d.doclets.toList ++ arguments.filterMap Argument.path?).length ≤ 1 ∧
      (arguments.foldl Draft.take d).finish = .ok i := by
  have ended : ∀ d : Draft, ofArguments d [] = .ok (some i) ↔ d.finish = .ok i := by
    intro d
    unfold ofArguments
    cases d.finish <;> simp [Except.map]
  constructor
  · intro parsed
    induction arguments generalizing d with
    | nil =>
      refine ⟨fun a mem => absurd mem List.not_mem_nil, ?_, (ended d).1 parsed⟩
      cases d.doclets <;> simp
    | cons a rest ih =>
      cases a with
      | denyWarnings =>
        obtain ⟨states, once, finished⟩ := ih parsed
        exact ⟨List.forall_mem_cons.2 ⟨rfl, states⟩, once, finished⟩
      | setting s value =>
        obtain ⟨states, once, finished⟩ := ih parsed
        have same : (d.put value s).doclets = d.doclets := by cases s <;> rfl
        rw [same] at once
        exact ⟨List.forall_mem_cons.2 ⟨rfl, states⟩, once, finished⟩
      | doclets path =>
        unfold ofArguments at parsed
        split at parsed
        · cases parsed
        · rename_i fresh
          rw [Option.not_isSome_iff_eq_none] at fresh
          obtain ⟨states, once, finished⟩ := ih parsed
          refine ⟨List.forall_mem_cons.2 ⟨rfl, states⟩, ?_, finished⟩
          rw [fresh]
          exact once
      | help => cases parsed
      | valueMissing s => cases parsed
      | unknown word => cases parsed
  · rintro ⟨states, once, finished⟩
    have run := ofArguments_append states once []
    rw [List.append_nil] at run
    rw [run, ended, finished]

/-- The arguments that give an invocation are those that are taken in for it. -/
theorem isGivenBy_iff : i.IsGivenBy arguments ↔
    (arguments.filterMap Argument.path?).length ≤ 1 ∧
      (arguments.foldl Draft.take {}).finish = .ok i := by
  have path := Draft.foldl_take Draft.doclets_take arguments {}
  have value : ∀ s, (arguments.foldl Draft.take {}).get? s =
      (arguments.filterMap (Argument.value? s)).getLast?.or (Draft.get? {} s) :=
    fun s => @Draft.foldl_take (Draft.get? · s) _ (Draft.get?_take s) arguments {}
  have deny := Draft.denyWarnings_foldl arguments {}
  have unset : ∀ s, Draft.get? {} s = none := fun s => by cases s <;> rfl
  simp only [unset, Option.or_none] at path value
  simp only [Bool.false_eq_true, false_or] at deny
  rw [Draft.finish_eq_ok_iff, path, deny]
  simp only [value]
  constructor
  · intro given
    refine ⟨?_, ?_, given.settings, given.denyWarnings⟩
    · rw [given.doclets]
      exact Nat.le_refl 1
    · rw [given.doclets]
      rfl
  · rintro ⟨once, last, settings, deny⟩
    refine ⟨?_, settings, deny⟩
    cases found : arguments.filterMap Argument.path? with
    | nil =>
      rw [found] at last
      cases last
    | cons path paths =>
      rw [found] at once last
      obtain rfl : paths = [] := List.eq_nil_of_length_eq_zero (by simpa using once)
      cases last
      rfl

/-! ## Layouts -/

/-- **The command lines that stand for an invocation** are those that are put together from arguments
that give it. -/
theorem parse_eq_ok_iff : parse words = .ok (some i) ↔
    ∃ arguments groups, i.IsGivenBy arguments ∧
      List.Forall₂ Argument.Spells arguments groups ∧ groups.flatten = words := by
  unfold parse
  constructor
  · intro parsed
    obtain ⟨states, once, finished⟩ := ofArguments_eq_ok_iff.1 parsed
    obtain ⟨groups, spelled, whole⟩ := Argument.exists_spelled_ofWords words states
    exact ⟨_, groups, isGivenBy_iff.2 ⟨once, finished⟩, spelled, whole⟩
  · rintro ⟨arguments, groups, given, spelled, rfl⟩
    have read := Argument.ofWords_append spelled []
    rw [List.append_nil, Argument.ofWords, List.append_nil] at read
    rw [read, ofArguments_eq_ok_iff]
    exact ⟨Argument.isStatement_of_spelled spelled, isGivenBy_iff.1 given⟩

/-- An invocation has a layout unless its file would be taken for an option. -/
theorem exists_layout_iff :
    (∃ words, parse words = .ok (some i)) ↔ Argument.IsPositional i.doclets := by
  simp only [parse_eq_ok_iff]
  constructor
  · rintro ⟨-, arguments, groups, given, spelled, -⟩
    have named : i.doclets ∈ arguments.filterMap Argument.path? := by
      rw [given.doclets]
      exact List.mem_singleton.2 rfl
    obtain ⟨a, mem, path⟩ := List.mem_filterMap.1 named
    obtain ⟨group, spells⟩ := Argument.exists_group spelled a mem
    cases spells with
    | doclets positional =>
      cases path
      exact positional
    | _ => cases path
  · intro positional
    refine ⟨_, i.arguments, i.arguments.map Argument.words, i.isGivenBy_arguments, ?_, rfl⟩
    rw [List.forall₂_map_right_iff, List.forall₂_same]
    intro a mem
    simp only [arguments, List.mem_append, List.mem_cons, mem_setOptions] at mem
    rcases mem with (rfl | mem) | ⟨s, value, -, rfl⟩
    · exact .doclets positional
    · split at mem
      · rw [List.mem_singleton.1 mem]
        exact .denyWarnings
      · cases mem
    · exact .setting s.longFlag_mem_flags value

/-- What follows groups with no second file among them is looked at with these taken in. -/
theorem parse_append {groups : List (List String)}
    (spelled : List.Forall₂ Argument.Spells arguments groups)
    (once : (arguments.filterMap Argument.path?).length ≤ 1) (rest : List String) :
    parse (groups.flatten ++ rest) =
      ofArguments (arguments.foldl Draft.take {}) (Argument.ofWords rest) := by
  unfold parse
  rw [Argument.ofWords_append spelled]
  exact @ofArguments_append {} arguments (Argument.isStatement_of_spelled spelled) once _

/-- **Parsing undoes every layout.** An invocation whose file is a dash or does not start with one is
read from every command line that names the file once and gives the options, in any spelling, order and
repetition, with any words as values. With one file more the command line is refused, and with a call
for help between two groups, in front of them or behind them, it is one. -/
theorem parse_layout {groups : List (List String)} (given : i.IsGivenBy arguments)
    (spelled : List.Forall₂ Argument.Spells arguments groups) :
    parse groups.flatten = .ok (some i) ∧
      (∀ path, Argument.IsPositional path →
        parse (groups.flatten ++ [path]) = .error (.unexpected path)) ∧
      ∀ before after, before ++ after = groups → ∀ help ∈ ["--help", "-h"],
        parse (before.flatten ++ help :: after.flatten) = .ok none := by
  obtain ⟨once, finished⟩ := isGivenBy_iff.1 given
  refine ⟨parse_eq_ok_iff.2 ⟨arguments, groups, given, spelled, rfl⟩, ?_, ?_⟩
  · intro path positional
    have read := (Argument.Spells.doclets positional).ofWords_append []
    have known := (Draft.finish_eq_ok_iff.1 finished).1
    rw [List.append_nil, Argument.ofWords] at read
    rw [parse_append spelled once, read]
    unfold ofArguments
    rw [known]
    rfl
  · rintro before after rfl help called
    -- The arguments in front of the call name no more files than all of them.
    have front := List.forall₂_take_append arguments before after spelled
    have fewer : ((arguments.take before.length).filterMap Argument.path?).length ≤ 1 :=
      Nat.le_trans ((List.take_sublist _ _).filterMap _).length_le once
    have read : Argument.ofWords (help :: after.flatten) =
        .help :: Argument.ofWords after.flatten := by
      simp only [List.mem_cons, List.not_mem_nil, or_false] at called
      rcases called with rfl | rfl <;> rfl
    rw [parse_append front fewer, read]
    rfl

/-- The standard input, a repeated option, a flag as a value and an empty value. -/
theorem parse_layout_flags :
    let i : Invocation :=
      { doclets := "-", root := some "--help", outDir := some "", denyWarnings := true }
    let arguments : List Argument := [.setting .root "a", .denyWarnings, .setting .outDir "",
      .doclets "-", .setting .root "--help"]
    let groups := [["-r", "a"], ["--deny-warnings"], ["--out-dir", ""], ["-"], ["--root", "--help"]]
    i.IsGivenBy arguments ∧ List.Forall₂ Argument.Spells arguments groups ∧
      parse groups.flatten = .ok (some i) ∧
      parse (groups.flatten ++ ["b.json"]) = .error (.unexpected "b.json") ∧
      parse ["-r", "a", "--deny-warnings", "-h", "--out-dir", "", "-", "--root", "--help"] =
        .ok none := by
  intro i arguments groups
  have given : i.IsGivenBy arguments := ⟨by decide, fun s => by cases s <;> decide, by decide⟩
  have spelled : List.Forall₂ Argument.Spells arguments groups :=
    .cons (.setting (by decide) "a") (.cons .denyWarnings (.cons (.setting (by decide) "")
      (.cons (.doclets (.inl rfl)) (.cons (.setting (by decide) "--help") .nil))))
  obtain ⟨parsed, refused, helped⟩ := parse_layout given spelled
  refine ⟨given, spelled, parsed, refused "b.json" (.inr (by decide)), ?_⟩
  exact helped [["-r", "a"], ["--deny-warnings"]] _ rfl "-h" (by decide)

end Invocation

end Ambient
