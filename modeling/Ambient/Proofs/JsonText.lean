import Mathlib.Data.List.Basic
import Ambient.Json.Printer
import Ambient.Json.Reader
/-!
# Reading JSON text that was written

A value can be written in many ways, with any blanks between its tokens. Whatever the layout is, the
text reads as the value that was written, with the members of its objects in the same order. This is
about values that have no numbers in them.

## Main definitions

* `Json.Writes`: a text is some layout of a value.
* `Json.Shallow`: a value with bounded nesting and distinct keys in its objects.

## Main statements

* `Json.readString_flatMap_escaped`: reading a string undoes escaping it.
* `Json.readValue_writes`: a layout of a value reads as the value.
* `Json.writes_compactChars`, `Json.writes_prettyChars`: both printers write a layout.
* `Json.parse_compact`, `Json.parse_pretty`: what they print is read again.
-/

namespace Ambient.Json

/-! ## Layouts -/

/-- A text of blanks. -/
def IsGaps (text : List Char) : Prop := ∀ c ∈ text, isGap c = true

mutual

/-- A text is some layout of a value: its tokens in order, with blanks between them. -/
inductive Writes : List Char → Json → Prop
  | null : Writes "null".toList .null
  | bool (b : Bool) : Writes (if b then "true".toList else "false".toList) (.bool b)
  | str (s : String) : Writes (quoted s.toList) (.str s)
  | noItems {gaps : List Char} (blank : IsGaps gaps) : Writes ('[' :: (gaps ++ [']'])) (.arr [])
  | items {gaps text more : List Char} {item : Json} {rest : List Json} (blank : IsGaps gaps)
    (first : Writes text item) (others : WritesItems more rest) :
    Writes ('[' :: (gaps ++ (text ++ more))) (.arr (item :: rest))
  | noMembers {gaps : List Char} (blank : IsGaps gaps) :
    Writes ('\x7b' :: (gaps ++ ['\x7d'])) (.obj [])
  | members {gaps text more : List Char} {member : String × Json} {rest : List (String × Json)}
    (blank : IsGaps gaps) (first : WritesMember text member) (others : WritesMembers more rest) :
    Writes ('\x7b' :: (gaps ++ (text ++ more))) (.obj (member :: rest))

/-- The layout of the further items of an array, up to its end. -/
inductive WritesItems : List Char → List Json → Prop
  | close {gaps : List Char} (blank : IsGaps gaps) : WritesItems (gaps ++ [']']) []
  | next {gaps gaps' text more : List Char} {item : Json} {rest : List Json} (blank : IsGaps gaps)
    (blank' : IsGaps gaps') (first : Writes text item) (others : WritesItems more rest) :
    WritesItems (gaps ++ ',' :: (gaps' ++ (text ++ more))) (item :: rest)

/-- The layout of a member of an object. -/
inductive WritesMember : List Char → String × Json → Prop
  | member {gaps gaps' text : List Char} {value : Json} (key : String) (blank : IsGaps gaps)
    (blank' : IsGaps gaps') (written : Writes text value) :
    WritesMember (quoted key.toList ++ (gaps ++ ':' :: (gaps' ++ text))) (key, value)

/-- The layout of the further members of an object, up to its end. -/
inductive WritesMembers : List Char → List (String × Json) → Prop
  | close {gaps : List Char} (blank : IsGaps gaps) : WritesMembers (gaps ++ ['\x7d']) []
  | next {gaps gaps' text more : List Char} {member : String × Json} {rest : List (String × Json)}
    (blank : IsGaps gaps) (blank' : IsGaps gaps') (first : WritesMember text member)
    (others : WritesMembers more rest) :
    WritesMembers (gaps ++ ',' :: (gaps' ++ (text ++ more))) (member :: rest)

end

/-- A value without numbers, in which no more than some containers are nested and no object has a
key twice. -/
inductive Shallow : Nat → Json → Prop
  | null (n : Nat) : Shallow n .null
  | bool (n : Nat) (b : Bool) : Shallow n (.bool b)
  | str (n : Nat) (s : String) : Shallow n (.str s)
  | arr {n : Nat} {items : List Json} (inside : ∀ item ∈ items, Shallow n item) :
    Shallow (n + 1) (.arr items)
  | obj {n : Nat} {members : List (String × Json)} (distinct : (members.map Prod.fst).Nodup)
    (inside : ∀ member ∈ members, Shallow n member.2) : Shallow (n + 1) (.obj members)

variable {n depth fuel : Nat} {v : Json} {text rest gaps : List Char} {c : Char}

/-- A bound on the nesting may be raised. -/
theorem Shallow.mono (h : Shallow n v) {m : Nat} (le : n ≤ m) : Shallow m v := by
  induction h generalizing m with
  | null n => exact .null m
  | bool n b => exact .bool m b
  | str n s => exact .str m s
  | arr inside ih =>
    obtain ⟨m, rfl⟩ : ∃ k, m = k + 1 := ⟨m - 1, by omega⟩
    exact .arr fun item mem => ih item mem (by omega)
  | obj distinct inside ih =>
    obtain ⟨m, rfl⟩ : ∃ k, m = k + 1 := ⟨m - 1, by omega⟩
    exact .obj distinct fun member mem => ih member mem (by omega)

/-! ## Blanks -/

theorem skipGap_append (blank : IsGaps gaps) (text : List Char) :
    skipGap (gaps ++ text) = skipGap text := by
  induction gaps with
  | nil => rfl
  | cons c gaps ih =>
    unfold IsGaps at blank
    rw [List.forall_mem_cons] at blank
    rw [← ih blank.2, List.cons_append, skipGap, List.dropWhile_cons_of_pos blank.1]
    rfl

/-- What is no blank is not skipped. -/
theorem skipGap_cons (solid : isGap c = false) (text : List Char) :
    skipGap (c :: text) = c :: text := by
  rw [skipGap, List.dropWhile_cons_of_neg (by simpa using solid)]

/-- Blanks in front of a value do not matter. -/
theorem readValue_gaps (blank : IsGaps gaps) (fuel depth : Nat) (text : List Char) :
    readValue fuel depth (gaps ++ text) = readValue fuel depth text := by
  cases fuel with
  | zero => rw [readValue, readValue]
  | succ fuel =>
    rw [readValue, skipGap_append blank, readValue]

/-! ## Strings -/

theorem hexValue?_hexDigit : ∀ d < 16, hexValue? (hexDigit d) = some d := by decide

/-- A control character is read from its number. -/
theorem readEscape_control (control : c.toNat < 32) (text : List Char) :
    readEscape ('u' :: '0' :: '0' :: hexDigit (c.toNat / 16) :: hexDigit (c.toNat % 16) :: text) =
      .ok (c, text) := by
  have high := hexValue?_hexDigit (c.toNat / 16) (by omega)
  have low := hexValue?_hexDigit (c.toNat % 16) (by omega)
  have zero : hexValue? '0' = some 0 := rfl
  have number : ((0 * 16 + 0) * 16 + c.toNat / 16) * 16 + c.toNat % 16 = c.toNat := by omega
  have noTrail : ¬ (0xDC00 ≤ c.toNat ∧ c.toNat ≤ 0xDFFF) := by omega
  have noLead : ¬ (0xD800 ≤ c.toNat ∧ c.toNat ≤ 0xDBFF) := by omega
  simp only [readEscape, readHex, zero, high, low, number, noTrail, noLead, if_false,
    Char.ofNat_toNat]

/-- An escape in a string is read as what it stands for. -/
theorem readString_escape (code : List Char) {content : List Char}
    (known : readEscape (code ++ text) = .ok (c, text))
    (later : readString text = .ok (content, rest)) :
    readString ('\\' :: (code ++ text)) = .ok (c :: content, rest) := by
  rw [readString, if_neg (by decide), if_pos rfl]
  split
  · rename_i fault refused
    cases known.symm.trans refused
  · rename_i found after read
    cases known.symm.trans read
    rw [later]

/-- A character is read as it was escaped. -/
theorem readString_escaped (c : Char) {content : List Char}
    (later : readString text = .ok (content, rest)) :
    readString (escaped c ++ text) = .ok (c :: content, rest) := by
  unfold escaped
  split
  · exact readString_escape ['"'] rfl later
  · exact readString_escape ['\\'] rfl later
  · exact readString_escape ['n'] rfl later
  · exact readString_escape ['r'] rfl later
  · exact readString_escape ['t'] rfl later
  · exact readString_escape ['b'] rfl later
  · exact readString_escape ['f'] rfl later
  · rename_i noQuote noBackslash _ _ _ _ _
    split
    · rename_i control
      exact readString_escape _ (readEscape_control control text) later
    · rename_i noControl
      show readString (c :: text) = _
      rw [readString, if_neg noQuote, if_neg noBackslash, if_neg noControl, later]

/-- **Reading a string undoes escaping it.** -/
theorem readString_flatMap_escaped (s rest : List Char) :
    readString (s.flatMap escaped ++ '"' :: rest) = .ok (s, rest) := by
  induction s with
  | nil => rw [List.flatMap_nil, List.nil_append, readString, if_pos rfl]
  | cons c s ih =>
    rw [List.flatMap_cons, List.append_assoc]
    exact readString_escaped c ih

/-! ## Reading a layout -/

theorem ok_bind {ε α β : Type} (a : α) (f : α → Except ε β) : (Except.ok a >>= f) = f a := rfl

/-- A layout starts with a character of its first token. -/
theorem Writes.exists_cons (h : Writes text v) :
    ∃ c later, text = c :: later ∧ isGap c = false ∧ c ≠ ']' := by
  cases h with
  | bool b => cases b <;> exact ⟨_, _, rfl, rfl, by decide⟩
  | _ => exact ⟨_, _, rfl, rfl, by decide⟩

/-- Every layout of a value reads as the value, if containers may nest as deep as they do. -/
def ReadsBack (n : Nat) (v : Json) : Prop :=
  ∀ {text : List Char}, Writes text v → ∀ {fuel depth : Nat}, text.length ≤ fuel → n < depth →
    ∀ rest, readValue fuel depth (text ++ rest) = .ok (v, rest)

theorem readItems_writes {items : List Json} (each : ∀ item ∈ items, ReadsBack n item)
    (writes : WritesItems text items) (enough : text.length ≤ fuel) (deep : n < depth)
    (rest : List Char) : readItems fuel depth (text ++ rest) = .ok (items, rest) := by
  induction items generalizing text fuel with
  | nil =>
    cases writes with
    | close blank =>
      rw [List.length_append, List.length_singleton] at enough
      obtain ⟨fuel, rfl⟩ : ∃ k, fuel = k + 1 := ⟨fuel - 1, by omega⟩
      rw [List.append_assoc, readItems, skipGap_append blank]
      rfl
  | cons item items ih =>
    cases writes with
    | @next gaps gaps' first more _ _ blank blank' written others =>
      rw [List.forall_mem_cons] at each
      simp only [List.length_append, List.length_cons] at enough
      obtain ⟨fuel, rfl⟩ : ∃ k, fuel = k + 1 := ⟨fuel - 1, by omega⟩
      have room : first.length ≤ fuel ∧ more.length ≤ fuel := by omega
      have read : readValue fuel depth (gaps' ++ (first ++ (more ++ rest))) =
          .ok (item, more ++ rest) := by
        rw [readValue_gaps blank']
        exact each.1 written room.1 deep _
      have later := ih each.2 others room.2
      have skip : skipGap (gaps ++ ',' :: (gaps' ++ (first ++ more)) ++ rest) =
          ',' :: (gaps' ++ (first ++ (more ++ rest))) := by
        rw [List.append_assoc, skipGap_append blank]
        simp only [List.cons_append, List.append_assoc]
        exact skipGap_cons rfl _
      rw [readItems, skip]
      simp only [read, later, ok_bind]
      rfl

/-- A key is read up to its colon. -/
theorem readKey_quoted (key : String) (blank : IsGaps gaps) (text : List Char) :
    readKey (quoted key.toList ++ (gaps ++ ':' :: text)) = .ok (key, text) := by
  have name := readString_flatMap_escaped key.toList (gaps ++ ':' :: text)
  have colon : readColon (gaps ++ ':' :: text) = .ok text := by
    rw [readColon, skipGap_append blank]
    rfl
  have quotes : quoted key.toList ++ (gaps ++ ':' :: text) =
      '"' :: (key.toList.flatMap escaped ++ '"' :: (gaps ++ ':' :: text)) := by
    simp [quoted]
  rw [quotes, readKey]
  simp only [name, colon, ok_bind, String.ofList_toList]
  rfl

/-- A member is read as its key and its value. -/
theorem readKey_writes {member : String × Json} (writes : WritesMember text member)
    (each : ReadsBack n member.2) (enough : text.length ≤ fuel) (deep : n < depth)
    (rest : List Char) :
    skipGap (text ++ rest) = text ++ rest ∧
      ∃ behind, readKey (text ++ rest) = .ok (member.1, behind) ∧
        readValue fuel depth behind = .ok (member.2, rest) := by
  cases writes with
  | @member gaps gaps' value v key blank blank' written =>
    simp only [List.length_append, List.length_cons] at enough
    have name := readKey_quoted key blank (gaps' ++ (value ++ rest))
    have parts : quoted key.toList ++ (gaps ++ ':' :: (gaps' ++ value)) ++ rest =
        quoted key.toList ++ (gaps ++ ':' :: (gaps' ++ (value ++ rest))) := by
      simp only [List.append_assoc, List.cons_append]
    rw [parts]
    refine ⟨skipGap_cons rfl _, _, name, ?_⟩
    rw [readValue_gaps blank']
    exact each written (by omega) deep rest

theorem readMembers_writes {members : List (String × Json)}
    (each : ∀ member ∈ members, ReadsBack n member.2) (writes : WritesMembers text members)
    (enough : text.length ≤ fuel) (deep : n < depth) (rest : List Char) :
    readMembers fuel depth (text ++ rest) = .ok (members, rest) := by
  induction members generalizing text fuel with
  | nil =>
    cases writes with
    | close blank =>
      rw [List.length_append, List.length_singleton] at enough
      obtain ⟨fuel, rfl⟩ : ∃ k, fuel = k + 1 := ⟨fuel - 1, by omega⟩
      rw [List.append_assoc, readMembers, skipGap_append blank]
      rfl
  | cons member members ih =>
    cases writes with
    | @next gaps gaps' first more _ _ blank blank' written others =>
      rw [List.forall_mem_cons] at each
      simp only [List.length_append, List.length_cons] at enough
      obtain ⟨fuel, rfl⟩ : ∃ k, fuel = k + 1 := ⟨fuel - 1, by omega⟩
      have room : first.length ≤ fuel ∧ more.length ≤ fuel := by omega
      obtain ⟨start, behind, name, read⟩ := readKey_writes written each.1 room.1 deep (more ++ rest)
      have later := ih each.2 others room.2
      have skip : skipGap (gaps ++ ',' :: (gaps' ++ (first ++ more)) ++ rest) =
          ',' :: (gaps' ++ (first ++ (more ++ rest))) := by
        rw [List.append_assoc, skipGap_append blank]
        simp only [List.cons_append, List.append_assoc]
        exact skipGap_cons rfl _
      rw [readMembers, skip]
      simp only [skipGap_append blank', start, name, read, later, ok_bind]
      rfl

/-! ## Objects with distinct keys -/

/-- A member with a new key comes last. -/
theorem putMember_of_not_mem {key : String} {members : List (String × Json)}
    (new : key ∉ members.map Prod.fst) (value : Json) :
    putMember key value members = members ++ [(key, value)] := by
  induction members with
  | nil => rfl
  | cons member members ih =>
    obtain ⟨k, v⟩ := member
    rw [List.map_cons, List.mem_cons, not_or] at new
    rw [putMember, if_neg (Ne.symm new.1), ih new.2]
    rfl

theorem foldl_putMember (old : List (String × Json)) {members : List (String × Json)}
    (distinct : ((old ++ members).map Prod.fst).Nodup) :
    members.foldl (fun acc member => putMember member.1 member.2 acc) old = old ++ members := by
  induction members generalizing old with
  | nil => exact (List.append_nil old).symm
  | cons member members ih =>
    have new : member.1 ∉ old.map Prod.fst := by
      rw [List.map_append, List.map_cons, List.nodup_append] at distinct
      exact fun mem => distinct.2.2 _ mem _ List.mem_cons_self rfl
    rw [List.foldl_cons, putMember_of_not_mem new, ih _ (by simpa using distinct)]
    simp

/-- An object that is read member by member keeps them as they are. -/
theorem ofMembers_eq {members : List (String × Json)} (distinct : (members.map Prod.fst).Nodup) :
    ofMembers members = .obj members :=
  congrArg obj (foldl_putMember [] distinct)

/-! ## Reading values -/

/-- The text of a container is read one step further in. -/
theorem exists_step {open_ : Char} {inside : List Char}
    (enough : (open_ :: inside).length ≤ fuel) (deep : n + 1 < depth) :
    ∃ fuel' depth', fuel = fuel' + 1 ∧ depth = depth' + 1 ∧ inside.length ≤ fuel' ∧ n < depth' ∧
      ¬ depth ≤ 1 := by
  rw [List.length_cons] at enough
  exact ⟨fuel - 1, depth - 1, by omega, by omega, by omega, by omega, by omega⟩

theorem readsBack_null (n : Nat) : ReadsBack n .null := by
  intro text writes fuel depth enough deep rest
  cases writes
  obtain ⟨fuel, rfl⟩ : ∃ k, fuel = k + 1 := ⟨fuel - 1, by simp at enough; omega⟩
  rw [readValue]
  rfl

theorem readsBack_bool (n : Nat) (b : Bool) : ReadsBack n (.bool b) := by
  intro text writes fuel depth enough deep rest
  cases writes
  have filled : 0 < (if b then "true".toList else "false".toList).length := by
    cases b <;> decide
  obtain ⟨fuel, rfl⟩ : ∃ k, fuel = k + 1 := ⟨fuel - 1, by omega⟩
  rw [readValue]
  cases b <;> rfl

theorem readsBack_str (n : Nat) (s : String) : ReadsBack n (.str s) := by
  intro text writes fuel depth enough deep rest
  cases writes
  obtain ⟨fuel, rfl⟩ : ∃ k, fuel = k + 1 := ⟨fuel - 1, by simp [quoted] at enough; omega⟩
  have content := readString_flatMap_escaped s.toList rest
  have quotes : quoted s.toList ++ rest = '"' :: (s.toList.flatMap escaped ++ '"' :: rest) := by
    simp [quoted]
  rw [quotes, readValue, skipGap_cons rfl]
  simp only [content, ok_bind, String.ofList_toList]
  rfl

/-- An array is read if its items are. -/
theorem readsBack_arr {items : List Json} (each : ∀ item ∈ items, ReadsBack n item) :
    ReadsBack (n + 1) (.arr items) := by
  intro text writes fuel depth enough deep rest
  cases writes with
  | noItems blank =>
    obtain ⟨fuel, depth, rfl, rfl, -, -, further⟩ := exists_step enough deep
    rw [List.cons_append, List.append_assoc, readValue, skipGap_cons rfl]
    simp only [further, if_false, skipGap_append blank]
    rfl
  | @items gaps first more item items blank written others =>
    obtain ⟨fuel, depth, rfl, rfl, enough, deep, further⟩ := exists_step enough deep
    rw [List.forall_mem_cons] at each
    simp only [List.length_append] at enough
    have room : first.length ≤ fuel ∧ more.length ≤ fuel := by omega
    have read := each.1 written room.1 deep (more ++ rest)
    have later := readItems_writes each.2 others room.2 deep rest
    -- The first item starts with a character of its own, so the array is not taken for empty.
    obtain ⟨c, first, rfl, solid, noEnd⟩ := written.exists_cons
    have skip : skipGap (gaps ++ (c :: first ++ more) ++ rest) =
        c :: (first ++ (more ++ rest)) := by
      rw [List.append_assoc, skipGap_append blank]
      simp only [List.cons_append, List.append_assoc]
      exact skipGap_cons solid _
    rw [List.cons_append, readValue, skipGap_cons rfl]
    simp only [further, if_false, skip]
    split
    · rename_i closed
      exact absurd (List.cons.inj closed).1 noEnd
    · rename_i none
      cases none
    · show (readValue fuel depth ((c :: first) ++ (more ++ rest)) >>= _) = _
      simp only [read, later, ok_bind, Nat.add_sub_cancel]
      rfl

/-- An object with distinct keys is read if its values are. -/
theorem readsBack_obj {members : List (String × Json)}
    (distinct : (members.map Prod.fst).Nodup)
    (each : ∀ member ∈ members, ReadsBack n member.2) : ReadsBack (n + 1) (.obj members) := by
  intro text writes fuel depth enough deep rest
  cases writes with
  | noMembers blank =>
    obtain ⟨fuel, depth, rfl, rfl, -, -, further⟩ := exists_step enough deep
    rw [List.cons_append, List.append_assoc, readValue, skipGap_cons rfl]
    simp only [further, if_false, skipGap_append blank]
    rfl
  | @members gaps first more member members blank written others =>
    obtain ⟨fuel, depth, rfl, rfl, enough, deep, further⟩ := exists_step enough deep
    rw [List.forall_mem_cons] at each
    simp only [List.length_append] at enough
    have room : first.length ≤ fuel ∧ more.length ≤ fuel := by omega
    obtain ⟨start, behind, name, read⟩ :=
      readKey_writes written each.1 room.1 deep (more ++ rest)
    have later := readMembers_writes each.2 others room.2 deep rest
    have skip : skipGap (gaps ++ (first ++ more) ++ rest) = first ++ (more ++ rest) := by
      rw [List.append_assoc, skipGap_append blank, List.append_assoc, start]
    rw [List.cons_append, readValue, skipGap_cons rfl]
    simp only [further, if_false, skip]
    split
    · rename_i closed
      rw [closed] at name
      cases name
    · simp only [name, read, later, ok_bind, Nat.add_sub_cancel, ofMembers_eq distinct]
      rfl

/-- **A layout of a value reads as the value.** -/
theorem readValue_writes (h : Shallow n v) : ReadsBack n v := by
  induction h with
  | null n => exact readsBack_null n
  | bool n b => exact readsBack_bool n b
  | str n s => exact readsBack_str n s
  | arr inside ih => exact readsBack_arr ih
  | obj distinct inside ih => exact readsBack_obj distinct ih

/-- A text that is a layout of a value is read. -/
theorem parse_writes {text : String} (h : Shallow n v) (deep : n < depthLimit)
    (writes : Writes text.toList v) : parse text = .ok v := by
  have room : text.toList.length ≤ 2 * text.toList.length + 2 := by omega
  have read := readValue_writes h writes room deep []
  rw [List.append_nil] at read
  unfold parse
  simp only [read, ok_bind]
  rfl

/-! ## Printing -/

theorem isGaps_nil : IsGaps [] := fun _ mem => nomatch mem

theorem isGaps_blank : IsGaps [' '] := List.forall_mem_singleton.2 rfl

theorem isGaps_newline (level : Nat) : IsGaps (newline level) := by
  unfold newline IsGaps
  rw [List.forall_mem_cons]
  refine ⟨rfl, fun c mem => ?_⟩
  rw [List.eq_of_mem_replicate mem]
  rfl

section Entries

variable {items : List Json} {member : String × Json}
  {members : List (String × Json)}

/-- Items without blanks between them. -/
theorem writesItems_compact (item : Json)
    (each : ∀ item ∈ items, Writes (compactChars item) item) :
    ∃ more, compactItems (item :: items) ++ [']'] = compactChars item ++ more ∧
      WritesItems more items := by
  induction items generalizing item with
  | nil => exact ⟨[']'], by rw [compactItems], .close isGaps_nil⟩
  | cons next rest ih =>
    rw [List.forall_mem_cons] at each
    obtain ⟨more, same, others⟩ := ih next each.2
    refine ⟨',' :: (compactChars next ++ more), ?_, .next isGaps_nil isGaps_nil each.1 others⟩
    rw [compactItems, List.append_assoc, List.cons_append, same]

/-- Items with each one on a line of its own. -/
theorem writesItems_pretty {level : Nat} (outer : Nat) (item : Json)
    (each : ∀ item ∈ items, Writes (prettyChars level item) item) :
    ∃ more, prettyItems level (item :: items) ++ (newline outer ++ [']']) =
        newline level ++ (prettyChars level item ++ more) ∧ WritesItems more items := by
  induction items generalizing item with
  | nil =>
    refine ⟨newline outer ++ [']'], ?_, .close (isGaps_newline outer)⟩
    rw [prettyItems, List.append_assoc]
  | cons next rest ih =>
    rw [List.forall_mem_cons] at each
    obtain ⟨more, same, others⟩ := ih next each.2
    refine ⟨',' :: (newline level ++ (prettyChars level next ++ more)), ?_,
      .next isGaps_nil (isGaps_newline level) each.1 others⟩
    rw [prettyItems, List.append_assoc, List.append_assoc, List.cons_append, same]

/-- Members without blanks between them. -/
theorem writesMembers_compact
    (each : ∀ other ∈ member :: members, Writes (compactChars other.2) other.2) :
    ∃ text more, compactMembers (member :: members) ++ ['\x7d'] = text ++ more ∧
      WritesMember text member ∧ WritesMembers more members := by
  induction members generalizing member with
  | nil =>
    rw [List.forall_mem_singleton] at each
    refine ⟨_, ['\x7d'], ?_, .member member.1 isGaps_nil isGaps_nil each, .close isGaps_nil⟩
    rw [compactMembers]
    rfl
  | cons next rest ih =>
    rw [List.forall_mem_cons] at each
    obtain ⟨text, more, same, first, others⟩ := @ih next each.2
    refine ⟨_, ',' :: (text ++ more), ?_, .member member.1 isGaps_nil isGaps_nil each.1,
      .next isGaps_nil isGaps_nil first others⟩
    rw [compactMembers, ← same]
    simp

/-- Members with each one on a line of its own. -/
theorem writesMembers_pretty {level : Nat} (outer : Nat)
    (each : ∀ other ∈ member :: members, Writes (prettyChars level other.2) other.2) :
    ∃ text more, prettyMembers level (member :: members) ++ (newline outer ++ ['\x7d']) =
        newline level ++ (text ++ more) ∧
      WritesMember text member ∧ WritesMembers more members := by
  induction members generalizing member with
  | nil =>
    rw [List.forall_mem_singleton] at each
    refine ⟨_, newline outer ++ ['\x7d'], ?_, .member member.1 isGaps_nil isGaps_blank each,
      .close (isGaps_newline outer)⟩
    rw [prettyMembers]
    simp
  | cons next rest ih =>
    rw [List.forall_mem_cons] at each
    obtain ⟨text, more, same, first, others⟩ := @ih next each.2
    refine ⟨_, ',' :: (newline level ++ (text ++ more)), ?_,
      .member member.1 isGaps_nil isGaps_blank each.1,
      .next isGaps_nil (isGaps_newline level) first others⟩
    rw [prettyMembers, ← same]
    simp

end Entries

/-- **Printing without blanks writes a layout.** -/
theorem writes_compactChars (h : Shallow n v) : Writes v.compactChars v := by
  induction h with
  | null n => exact .null
  | bool n b =>
    cases b
    · exact .bool false
    · exact .bool true
  | str n s => exact .str s
  | @arr n items inside ih =>
    cases items with
    | nil => exact .noItems isGaps_nil
    | cons item items =>
      rw [List.forall_mem_cons] at ih
      obtain ⟨more, same, others⟩ := writesItems_compact item ih.2
      rw [compactChars, same]
      exact .items isGaps_nil ih.1 others
  | @obj n members distinct inside ih =>
    cases members with
    | nil => exact .noMembers isGaps_nil
    | cons member members =>
      obtain ⟨text, more, same, first, others⟩ := writesMembers_compact ih
      rw [compactChars, same]
      exact .members isGaps_nil first others

/-- **Printing one entry a line writes a layout.** -/
theorem writes_prettyChars (h : Shallow n v) (level : Nat) : Writes (v.prettyChars level) v := by
  induction h generalizing level with
  | null n => exact .null
  | bool n b =>
    cases b
    · exact .bool false
    · exact .bool true
  | str n s => exact .str s
  | @arr n items inside ih =>
    cases items with
    | nil => exact .noItems isGaps_nil
    | cons item items =>
      have each : ∀ other ∈ item :: items, Writes (prettyChars (level + 1) other) other :=
        fun other mem => ih other mem (level + 1)
      rw [List.forall_mem_cons] at each
      obtain ⟨more, same, others⟩ := writesItems_pretty level item each.2
      rw [prettyChars, List.append_assoc, same]
      exact .items (isGaps_newline (level + 1)) each.1 others
  | @obj n members distinct inside ih =>
    cases members with
    | nil => exact .noMembers isGaps_nil
    | cons member members =>
      have each : ∀ other ∈ member :: members, Writes (prettyChars (level + 1) other.2) other.2 :=
        fun other mem => ih other mem (level + 1)
      obtain ⟨text, more, same, first, others⟩ := writesMembers_pretty level each
      rw [prettyChars, List.append_assoc, same]
      exact .members (isGaps_newline (level + 1)) first others

/-- What is printed without blanks is read again. -/
theorem parse_compact (h : Shallow n v) (deep : n < depthLimit) : parse v.compact = .ok v := by
  refine parse_writes h deep ?_
  rw [compact, String.toList_ofList]
  exact writes_compactChars h

/-- What is printed one entry a line is read again. -/
theorem parse_pretty (h : Shallow n v) (deep : n < depthLimit) : parse v.pretty = .ok v := by
  refine parse_writes h deep ?_
  rw [pretty, String.toList_ofList]
  exact writes_prettyChars h 0

end Ambient.Json
