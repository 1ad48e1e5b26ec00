import Ambient.Declaration.Rendering
import Ambient.Proofs.Names.Tokens
/-!
# The keys of members

A member of a class or an interface is declared under a key. The key of a property is its name,
between quotes if the name is no identifier; the key of a method is its name as it is. Nothing in a
name is escaped, so a key denotes the name of its member only if nothing has to be.

## Main definitions

* `Token.Denotes`: a key is a name as an identifier, or a string literal that reads as the name.
* `Member.key`: the key of a member.
* `Member.beforeKey`, `Member.behindKey`: the rest of the line of a member.
* `Member.IsQuotedIn`: a method has the name of a property with its quotes.

## Main statements

* `Member.denotes_key_iff`: when a key denotes the name of its member.
* `Member.key_eq_iff`: when two members have the same key.
* `Member.last_step_key`: a member is declared under its key, which denotes its name exactly if
  nothing in the name has to be escaped.
-/

namespace Ambient

namespace Token

/-- A key denotes a name: it is the name, as an identifier, or it is a string literal that reads as
the name. -/
def Denotes (L : Alphabet) (key name : String) : Prop :=
  (key = name ∧ Spells L name.toList name.toList) ∨ ReadsAs key.toList (units name.toList)

variable {L : Alphabet} {name : String}

/-- A name as it is denotes itself only as an identifier. -/
theorem denotes_bare_iff : Denotes L name name ↔ Spells L name.toList name.toList := by
  simp [Denotes, not_readsAs_self]

theorem quotes_ne (name : String) : "\"" ++ name ++ "\"" ≠ name := by
  intro same
  have lengths := congrArg (fun text => text.toList.length) same
  rw [toList_quotes] at lengths
  simp only [quoted, List.length_cons, List.length_append, List.length_nil] at lengths
  omega

/-- A name between quotes denotes the name exactly if nothing in it has to be escaped. -/
theorem denotes_quotes_iff :
    Denotes L ("\"" ++ name ++ "\"") name ↔ ∀ c ∈ name.toList, IsPlain c := by
  rw [Denotes, toList_quotes, readsAs_quoted_iff, reads_self_iff]
  simp [quotes_ne]

end Token

open Token

namespace Member

variable {c : Config} {m other : Member}

/-- The key that a member is declared under in a class or an interface. -/
def key (m : Member) : String :=
  match m.form with
  | .property => keyText m.doclet.printedName
  | .method => m.doclet.printedName

/-- What stands in front of the key in the line of a member. -/
def beforeKey (m : Member) : String :=
  if m.owner = .classBody then m.staticPrefix else ""

/-- What stands behind the key in the line of a member. -/
def behindKey (c : Config) (m : Member) : String :=
  match m.form with
  | .property =>
    (if m.owner = .interfaceBody ∧ m.mayBeMissing then "?" else "") ++ ": " ++
      Line.print c (typeOrAny m.doclet.longname m.doclet.alternatives
        "property has no type, emitting any") ++ ";"
  | .method =>
    placeholderList m.doclet.placeholders ++ "(" ++
      Line.print c (paramsLine m.doclet.longname m.doclet.params) ++ "): " ++
      Line.print c (returnLine c m.doclet.longname m.doclet.returns) ++ ";"

/-! ## Keys and names -/

theorem printedName_of_named (named : m.doclet.name ≠ "") :
    m.doclet.printedName = m.doclet.name := by
  have filled : m.doclet.name.isEmpty = false := by simpa using named
  rw [Doclet.printedName, filled]
  rfl

/-- A key that is put into quotes. -/
def IsQuoted (m : Member) : Prop :=
  m.form = .property ∧ Text.isIdentifier m.doclet.name.toList = false

instance (m : Member) : Decidable m.IsQuoted := inferInstanceAs (Decidable (_ ∧ _))

theorem key_of_named (named : m.doclet.name ≠ "") :
    m.key = if m.IsQuoted then "\"" ++ m.doclet.name ++ "\"" else m.doclet.name := by
  unfold key
  rw [printedName_of_named named]
  by_cases isQuoted : m.IsQuoted
  · rw [if_pos isQuoted, isQuoted.1]
    show keyText m.doclet.name = _
    rw [keyText, isQuoted.2]
    rfl
  · rw [if_neg isQuoted]
    cases form : m.form with
    | property =>
      have isIdentifier : Text.isIdentifier m.doclet.name.toList = true := by
        simpa [IsQuoted, form] using isQuoted
      show keyText m.doclet.name = _
      rw [keyText, if_pos isIdentifier]
    | method => rfl

/-- **When a key denotes the name of its member.** A key in quotes does if nothing in the name has
to be escaped, and any other key if it is an identifier. -/
theorem denotes_key_iff (L : Alphabet) (named : m.doclet.name ≠ "") :
    Denotes L m.key m.doclet.name ↔
      if m.IsQuoted then ∀ c ∈ m.doclet.name.toList, IsPlain c
      else Spells L m.doclet.name.toList m.doclet.name.toList := by
  rw [key_of_named named]
  split
  · exact denotes_quotes_iff
  · exact denotes_bare_iff

/-- A method has the name of a property with the quotes that the property gets. -/
def IsQuotedIn (m other : Member) : Prop :=
  m.IsQuoted ∧ other.form = .method ∧ other.doclet.name = "\"" ++ m.doclet.name ++ "\""

/-- An identifier does not start with a quote. -/
theorem isIdentifier_quotes (name : String) :
    Text.isIdentifier ("\"" ++ name ++ "\"").toList = false := by
  rw [toList_quotes]
  rfl

/-- A key in quotes that is the key of another member without quotes. -/
theorem isQuotedIn_of_eq (isQuoted : m.IsQuoted) (bare : ¬ other.IsQuoted)
    (same : "\"" ++ m.doclet.name ++ "\"" = other.doclet.name) : m.IsQuotedIn other := by
  refine ⟨isQuoted, ?_, same.symm⟩
  cases form : other.form with
  | method => rfl
  | property =>
    refine absurd ⟨form, ?_⟩ bare
    rw [← same]
    exact isIdentifier_quotes m.doclet.name

/-- **When two members have the same key.** Their names are the same, or the one is a method whose
name is that of the other with quotes. -/
theorem key_eq_iff (named : m.doclet.name ≠ "") (named' : other.doclet.name ≠ "") :
    m.key = other.key ∧ m.doclet.name ≠ other.doclet.name ↔
      m.IsQuotedIn other ∨ other.IsQuotedIn m := by
  rw [key_of_named named, key_of_named named']
  constructor
  · rintro ⟨same, apart⟩
    by_cases isQuoted : m.IsQuoted
    · rw [if_pos isQuoted] at same
      by_cases isQuoted' : other.IsQuoted
      · rw [if_pos isQuoted', String.append_left_inj, String.append_right_inj] at same
        exact absurd same apart
      · rw [if_neg isQuoted'] at same
        exact Or.inl (isQuotedIn_of_eq isQuoted isQuoted' same)
    · rw [if_neg isQuoted] at same
      by_cases isQuoted' : other.IsQuoted
      · rw [if_pos isQuoted'] at same
        exact Or.inr (isQuotedIn_of_eq isQuoted' isQuoted same.symm)
      · rw [if_neg isQuoted'] at same
        exact absurd same apart
  · have one : ∀ {a b : Member}, a.IsQuotedIn b →
        (if a.IsQuoted then "\"" ++ a.doclet.name ++ "\"" else a.doclet.name) =
          (if b.IsQuoted then "\"" ++ b.doclet.name ++ "\"" else b.doclet.name) ∧
        a.doclet.name ≠ b.doclet.name := by
      rintro a b ⟨isQuoted, form, name⟩
      have bare : ¬ b.IsQuoted := fun isQuoted' => nomatch form.symm.trans isQuoted'.1
      rw [if_pos isQuoted, if_neg bare, name]
      exact ⟨rfl, (quotes_ne a.doclet.name).symm⟩
    rintro (inOther | inThis)
    · exact one inOther
    · exact ⟨(one inThis).1.symm, (one inThis).2.symm⟩

/-! ## The line of a member -/

/-- The line of a property has its key in it. -/
theorem print_propertyLine (level : Nat) (isProperty : m.form = .property)
    (inside : m.owner ≠ .moduleLevel) :
    (m.propertyLine c level).print c = m.beforeKey ++ m.key ++ m.behindKey c := by
  unfold propertyLine propertyHead beforeKey key behindKey
  rw [isProperty]
  cases owner : m.owner with
  | classBody => simp [Line.print, Piece.print, String.append_assoc]
  | interfaceBody => simp [Line.print, Piece.print, String.append_assoc]
  | moduleLevel => exact absurd owner inside

/-- The line of a method has its key in it. -/
theorem print_methodLine (level : Nat) (isMethod : m.form = .method)
    (inside : m.owner ≠ .moduleLevel) :
    (m.methodLine c level).print c = m.beforeKey ++ m.key ++ m.behindKey c := by
  unfold methodLine methodHead beforeKey key behindKey
  rw [isMethod]
  cases owner : m.owner with
  | classBody => simp [Line.print, Piece.print, String.append_assoc]
  | interfaceBody => simp [Line.print, Piece.print, String.append_assoc]
  | moduleLevel => exact absurd owner inside

theorem getLast?_steps_line (comment : Rendering) (line : Line) :
    ((comment ++ Rendering.line line).steps c).getLast? = some (.line (line.print c)) := by
  rw [Rendering.steps_append]
  exact List.getLast?_concat

/-- **A member is declared under its key.** The last line of a member of a class or an interface
that has a name and is not replaced is its declaration. The key in it denotes the name, whatever
letters there are, exactly if nothing in the name has to be escaped: a key in quotes denotes its
name if the name has no quote, no backslash and no line end, and any other key if the name is an
identifier. Two members with different names have one key exactly if the one is a method whose name
is that of the other with the quotes that the other gets. -/
theorem last_step_key (L : Alphabet) (c : Config) (level : Nat) (m : Member)
    (kept : c.memberReplacements.get? m.doclet.longname = none)
    (inside : m.owner ≠ .moduleLevel) (named : m.doclet.name ≠ "") :
    ((m.render c level).steps c).getLast? =
        some (.line (m.beforeKey ++ m.key ++ m.behindKey c)) ∧
      (Denotes L m.key m.doclet.name ↔
        if m.IsQuoted then ∀ ch ∈ m.doclet.name.toList, IsPlain ch
        else Spells L m.doclet.name.toList m.doclet.name.toList) ∧
      ∀ other : Member, other.doclet.name ≠ "" →
        (m.key = other.key ∧ m.doclet.name ≠ other.doclet.name ↔
          m.IsQuotedIn other ∨ other.IsQuotedIn m) := by
  refine ⟨?_, denotes_key_iff L named, fun other named' => key_eq_iff named named'⟩
  have own : m.render c level = m.renderOwn c level := by rw [render, kept]
  rw [own, renderOwn]
  cases form : m.form with
  | property => rw [getLast?_steps_line, print_propertyLine level form inside]
  | method => rw [getLast?_steps_line, print_methodLine level form inside]

/-- The key of a property with a dash in its name. -/
theorem last_step_key_dashed :
    let m : Member := .ofDoclet .property .classBody
      { name := "data-id", longname := "A#data-id", memberof := some "A" } {}
    ({} : Config).memberReplacements.get? m.doclet.longname = none ∧ m.owner ≠ .moduleLevel ∧
      m.doclet.name ≠ "" ∧
      ((m.render {} 1).steps {}).getLast? = some (.line "\"data-id\": any;") ∧
      Denotes Alphabet.words m.key "data-id" := by
  intro m
  have kept : ({} : Config).memberReplacements.get? m.doclet.longname = none := rfl
  have inside : m.owner ≠ .moduleLevel := by decide
  have named : m.doclet.name ≠ "" := by decide
  have spec := last_step_key Alphabet.words {} 1 m kept inside named
  have line : m.beforeKey ++ m.key ++ m.behindKey {} = "\"data-id\": any;" := by decide
  have plain : m.doclet.name.toList.all (fun ch => decide (IsPlain ch)) = true := by decide
  refine ⟨kept, inside, named, line ▸ spec.1, spec.2.1.2 ?_⟩
  rw [if_pos (by decide)]
  exact fun ch mem => of_decide_eq_true (List.all_eq_true.1 plain ch mem)

/-- A property with a quote in its name, a method with a dash in its name, and a method that has the
name of a property with its quotes. -/
theorem keys_unescaped :
    let named (form : MemberForm) (name : String) : Member :=
      .ofDoclet form .classBody { name, longname := "A#" ++ name, memberof := some "A" } {}
    (named .property "a\"b").key = "\"a\"b\"" ∧ (named .method "data-id").key = "data-id" ∧
      (∀ L : Alphabet, ¬ Denotes L (named .property "a\"b").key "a\"b" ∧
        ¬ Denotes L (named .method "data-id").key "data-id") ∧
      (named .property "data-id").key = (named .method "\"data-id\"").key := by
  intro named
  refine ⟨by decide, by decide, fun L => ⟨fun denotes => ?_, fun denotes => ?_⟩, by decide⟩
  · have plain := (denotes_key_iff (m := named .property "a\"b") L (by decide)).1 denotes
    rw [if_pos (by decide)] at plain
    exact (plain '"' (by decide)).1 rfl
  · have spelled := (denotes_key_iff (m := named .method "data-id") L (by decide)).1 denotes
    rw [if_neg (by decide)] at spelled
    exact not_spells_dash (by decide) (by decide) spelled

end Member

end Ambient
