import Ambient.Proofs.TypeExpr.Elements
/-!
# Where the events of a type expression come from

The names and the untyped arrays that are reported for a type expression stand in its raw text, and
they stand in the type that is printed for it: one after another, in the order of the reports, so no
place accounts for two of them. This holds for every text, whatever is wrong with it.

## Main definitions

* `Text.InOrder`: words that stand in a text one after another.
* `TypeExpr.Event.spelling`, `TypeExpr.Event.printed`: what an event is in the raw text, and in the
  type that is printed.

## Main statements

* `TypeExpr.inOrder_parts`: the parts of a form stand in the text one after another.
* `TypeExpr.inOrder_tree`: the parts of a tree are printed one after another.
* `TypeExpr.isGenuine_events`: what is met is a name that is not replaced, or the word `array`.
* `Config.events_typeText`: the events of a type expression stand in the raw text and in the type.
-/

namespace Ambient

/-! ## Words in order -/

namespace Text

/-- Words that stand in a text one after another, without overlap. -/
inductive InOrder : List (List Char) → List Char → Prop
  | nil (text : List Char) : InOrder [] text
  | cons (before : List Char) {word rest : List Char} {words : List (List Char)}
      (tail : InOrder words rest) : InOrder (word :: words) (before ++ (word ++ rest))

namespace InOrder

variable {words words' : List (List Char)} {s t : List Char}

theorem prepend (before : List Char) (h : InOrder words s) : InOrder words (before ++ s) := by
  cases h with
  | nil => exact .nil _
  | cons before' tail =>
    rw [← List.append_assoc]
    exact .cons _ tail

theorem append (h : InOrder words s) (h' : InOrder words' t) :
    InOrder (words ++ words') (s ++ t) := by
  induction h with
  | nil s => exact h'.prepend s
  | cons before tail ih =>
    rw [List.append_assoc, List.append_assoc]
    exact .cons before ih

theorem extend (after : List Char) (h : InOrder words s) : InOrder words (s ++ after) := by
  have whole := h.append (.nil after)
  rwa [List.append_nil] at whole

theorem single (word : List Char) : InOrder [word] word := by
  have whole : InOrder [word] ([] ++ (word ++ [])) := .cons [] (.nil [])
  rwa [List.nil_append, List.append_nil] at whole

theorem of_isInfix (h : InOrder words s) (inside : s <:+: t) : InOrder words t := by
  obtain ⟨before, after, rfl⟩ := inside
  exact (h.prepend before).extend after

theorem isInfix_of_mem (h : InOrder words s) {word : List Char} (mem : word ∈ words) :
    word <:+: s := by
  induction h with
  | nil => cases mem
  | @cons before first rest words tail ih =>
    rcases List.mem_cons.1 mem with rfl | mem
    · exact ⟨before, rest, by rw [List.append_assoc]⟩
    · obtain ⟨front, behind, rfl⟩ := ih mem
      exact ⟨before ++ (first ++ front), behind, by simp only [List.append_assoc]⟩

/-- Words in order inside of pieces in order. -/
theorem flatMap {α : Type} {pieces : List α} {piece : α → List Char}
    {inside : α → List (List Char)} (h : InOrder (pieces.map piece) s)
    (each : ∀ a ∈ pieces, InOrder (inside a) (piece a)) : InOrder (pieces.flatMap inside) s := by
  induction pieces generalizing s with
  | nil => exact .nil s
  | cons a pieces ih =>
    rw [List.forall_mem_cons] at each
    rw [List.map_cons] at h
    cases h with
    | cons before tail =>
      rw [List.flatMap_cons]
      exact (each.1.append (ih tail each.2)).prepend before

/-- Words in order, each inside of a larger one. -/
theorem of_forall₂ {larger : List (List Char)} (h : InOrder larger s)
    (inside : List.Forall₂ (· <:+: ·) words larger) : InOrder words s := by
  induction inside generalizing s with
  | nil => exact .nil s
  | cons inside _ ih =>
    cases h with
    | cons before tail =>
      exact (((InOrder.single _).of_isInfix inside).append (ih tail)).prepend before

/-- Words in order inside of pieces that stand in the text themselves. -/
theorem flatMap_self {inside : List Char → List (List Char)} (h : InOrder words s)
    (each : ∀ word ∈ words, InOrder (inside word) word) : InOrder (words.flatMap inside) s := by
  have whole : InOrder (words.map id) s := by rwa [List.map_id]
  exact whole.flatMap each

/-- The pieces between separators. -/
theorem flatMap_cons (separator : Char) (pieces : List (List Char)) :
    InOrder pieces (pieces.flatMap (separator :: ·)) := by
  induction pieces with
  | nil => exact .nil _
  | cons piece pieces ih =>
    rw [List.flatMap_cons]
    exact .cons [separator] ih

end InOrder

theorem inOrder_joinWith (separator : String) (texts : List String) :
    InOrder (texts.map String.toList) (joinWith separator texts).toList := by
  induction texts with
  | nil => exact .nil _
  | cons text rest ih =>
    cases rest with
    | nil => exact .single _
    | cons next rest =>
      rw [joinWith_cons separator text (List.cons_ne_nil next rest), String.append_assoc,
        String.toList_append, String.toList_append]
      exact (InOrder.single text.toList).append (ih.prepend separator.toList)

theorem inOrder_joinWith_map {α : Type} (separator : String) (text : α → String) (items : List α) :
    InOrder (items.map fun item => (text item).toList)
      (joinWith separator (items.map text)).toList := by
  have order := inOrder_joinWith separator (items.map text)
  rwa [List.map_map] at order

theorem isInfix_trim (s : List Char) : trim s <:+: s := by
  obtain ⟨before, after, -, -, whole⟩ := exists_blanks_trim s
  exact ⟨before, after, by rw [List.append_assoc, ← whole]⟩

end Text

namespace TypeExpr

open Text (InOrder)

/-! ## The parts of a text -/

/-- The pieces between separators stand in the text one after another. -/
theorem inOrder_splitOutside (separator : Char) (text : List Char) :
    InOrder (splitOutside separator text) text := by
  rw [splitOutside_eq_flatMap]
  refine InOrder.flatMap_self ?_ fun piece _ => ?_
  · have whole := cutOutside_join separator 0 '\x00' text
    have pieces := (InOrder.single (cutOutside separator 0 '\x00' text).1).append
      (.flatMap_cons separator (cutOutside separator 0 '\x00' text).2)
    rwa [whole] at pieces
  · split
    · exact .nil _
    · exact (InOrder.single _).of_isInfix (Text.isInfix_trim piece)

theorem isInfix_withoutRestMark (text : List Char) : (withoutRestMark text).1 <:+: text := by
  rcases withoutRestMark_fst text with same | ⟨rest, dots, same⟩
  · rw [same]
    exact Text.isInfix_trim text
  · rw [same]
    refine (Text.isInfix_trim rest).trans (List.IsInfix.trans ?_ (Text.isInfix_trim text))
    rw [dots]
    exact (List.suffix_append _ rest).isInfix

theorem isInfix_withoutOptionalMark (text : List Char) : (withoutOptionalMark text).1 <:+: text := by
  rcases withoutOptionalMark_fst text with same | ⟨rest, mark, same⟩
  · rw [same]
    exact Text.isInfix_trim text
  · rw [same]
    refine (Text.isInfix_trim rest).trans (List.IsInfix.trans ?_ (Text.isInfix_trim text))
    rcases mark with mark | mark
    · rw [mark]
      exact (List.suffix_cons '?' rest).isInfix
    · rw [mark]
      exact (List.prefix_append rest ['=']).isInfix

theorem inOrder_readArguments (text : List Char) :
    InOrder ((readArguments text).map Argument.type) text := by
  have types : (readArguments text).map Argument.type =
      (splitOutside ',' text).flatMap fun entry =>
        if bindsContext entry then [] else [(Argument.read entry).type] := by
    unfold readArguments
    generalize splitOutside ',' text = entries
    induction entries with
    | nil => rfl
    | cons entry entries ih =>
      rw [List.flatMap_cons, ← ih, List.filter_cons]
      cases bindsContext entry <;> rfl
  rw [types]
  refine (inOrder_splitOutside ',' text).flatMap_self fun entry _ => ?_
  · split
    · exact .nil _
    · refine (InOrder.single _).of_isInfix ?_
      exact (isInfix_withoutOptionalMark _).trans (isInfix_withoutRestMark entry)

theorem inOrder_field (entry : List Char) : InOrder (Field.read entry).parts entry := by
  cases found : Field.read entry with
  | verbatim text => exact .nil _
  | keyed key type =>
    cases type with
    | none => exact .nil _
    | some type =>
      obtain ⟨word, blanks, blanks', -, -, -, rfl⟩ := Field.read_eq_keyed found
      exact ((((InOrder.single type).prepend blanks').prepend [':']).prepend blanks).prepend word

theorem inOrder_cutGeneric? {name base args : List Char}
    (found : cutGeneric? name = some (base, args)) :
    InOrder (base :: splitOutside ',' args) name := by
  obtain ⟨dot, k, -, rfl, -⟩ := cutGeneric?_eq_some found
  have inside := ((inOrder_splitOutside ',' args).extend [k]).prepend (dot ++ ['<'])
  rw [List.append_assoc] at inside
  exact (InOrder.single base).append inside

theorem inOrder_signature {name : List Char} {signature : Signature (List Char)}
    (found : Signature.read? name = some signature) :
    InOrder (signature.arguments.map Argument.type ++ signature.returns.toList) name := by
  obtain ⟨blanks, inside, k, after, -, rfl, -, -, arguments, returns⟩ :=
    Signature.read?_eq_some found
  have behind : InOrder signature.returns.toList after := by
    cases type : signature.returns with
    | none => exact .nil _
    | some type =>
      rw [type] at returns
      obtain ⟨rest, colon, rfl⟩ := readReturns?_eq_some returns
      refine (InOrder.single _).of_isInfix ((Text.isInfix_trim rest).trans ?_)
      refine List.IsInfix.trans ?_ (Text.isInfix_trim after)
      rw [colon]
      exact (List.suffix_cons ':' rest).isInfix
  rw [arguments]
  have whole := (inOrder_readArguments inside).append (behind.prepend [k])
  exact ((whole.prepend ['(']).prepend blanks).prepend _

/-- **The parts of a form stand in the text one after another.** -/
theorem inOrder_parts (name : List Char) : InOrder (Form.of name).parts name := by
  have wrapped : ∀ {opening closing : Char} {inner : List Char} {words : List (List Char)},
      insideBrackets? opening closing name = some inner → InOrder words inner →
        InOrder words name := by
    intro opening closing inner words found inside
    obtain ⟨k, rfl, -⟩ := insideBrackets?_eq_some found
    refine inside.of_isInfix ⟨[opening], [k], rfl⟩
  have cut := Form.cut_of name
  generalize Form.of name = form at cut ⊢
  cases cut with
  | array found =>
    refine (InOrder.single _).of_isInfix ?_
    rcases elementOf?_eq_some found with generic | brackets
    · obtain ⟨dot, k, -, rfl, -⟩ := cutGeneric?_eq_some generic
      exact ⟨"Array".toList ++ (dot ++ ['<']), [k], by simp⟩
    · rw [brackets]
      exact (List.prefix_append _ _).isInfix
  | dictionary found pieces =>
    have whole := inOrder_cutGeneric? found
    rw [pieces] at whole
    cases whole with
    | cons before tail => exact (tail.prepend _).prepend before
  | generic found => exact inOrder_cutGeneric? found
  | function found => exact inOrder_signature found
  | untypedArray => exact .nil _
  | union => exact inOrder_splitOutside '|' name
  | group found => exact wrapped found (.single _)
  | @record inside found =>
    refine wrapped found ?_
    show InOrder (((splitOutside ',' inside).map Field.read).flatMap Field.parts) inside
    rw [List.flatMap_map]
    exact (inOrder_splitOutside ',' inside).flatMap_self fun entry _ => inOrder_field entry
  | @marked inner found =>
    refine (InOrder.single inner).of_isInfix ?_
    rcases withoutMark?_eq_some found with mark | mark | mark
    · rw [mark]
      exact (List.suffix_cons '?' inner).isInfix
    · rw [mark]
      exact (List.suffix_cons '!' inner).isInfix
    · rw [mark]
      exact (List.prefix_append inner ['=']).isInfix
  | named => exact .nil _

/-! ## The parts of a tree -/

theorem eventsAll_eq_flatMap (types : List TypeExpr) : eventsAll types = types.flatMap events := by
  induction types with
  | nil => rfl
  | cons type types ih => rw [eventsAll, ih, List.flatMap_cons]

theorem eventsTypes_eq_flatMap (arguments : List (Argument TypeExpr)) :
    eventsTypes arguments = arguments.flatMap fun argument => argument.type.events := by
  induction arguments with
  | nil => rfl
  | cons argument arguments ih =>
    obtain ⟨type, isOptional, isRest⟩ := argument
    rw [eventsTypes, ih, List.flatMap_cons]

theorem eventsFields_eq_flatMap (fields : List (Field TypeExpr)) :
    eventsFields fields = fields.flatMap fun field => field.parts.flatMap events := by
  induction fields with
  | nil => rfl
  | cons field fields ih =>
    match field with
    | .keyed key (some type) =>
      rw [eventsFields, ih, List.flatMap_cons, Field.parts, List.flatMap_singleton]
    | .keyed key none => rw [eventsFields, ih, List.flatMap_cons]; rfl
    | .verbatim text => rw [eventsFields, ih, List.flatMap_cons]; rfl

/-- What is met at a text of some form itself, and not in its parts. -/
def Form.ownEvents (name : List Char) : Form → List Event
  | .untypedArray => [.untypedArray (String.ofList name)]
  | .named => [.reference (String.ofList name)]
  | _ => []

/-- The events of a tree are its own ones and those of its parts. -/
theorem Form.events_tree (readPart : List Char → TypeExpr) (name : List Char) (form : Form) :
    (form.tree readPart name).events =
      form.ownEvents name ++ form.parts.flatMap fun part => (readPart part).events := by
  cases form with
  | array element => simp [Form.tree, Form.parts, Form.ownEvents, events]
  | dictionary key value => simp [Form.tree, Form.parts, Form.ownEvents, events]
  | generic base args =>
    simp [Form.tree, Form.parts, Form.ownEvents, events, eventsAll_eq_flatMap, List.flatMap_map]
  | function signature =>
    obtain ⟨arguments, returns⟩ := signature
    cases returns <;>
      simp [Form.tree, Form.parts, Form.ownEvents, events, eventsTypes_eq_flatMap, eventsReturns,
        List.flatMap_map, Argument.map]
  | untypedArray => rfl
  | union members =>
    simp [Form.tree, Form.parts, Form.ownEvents, events, eventsAll_eq_flatMap, List.flatMap_map]
  | group inner => simp [Form.tree, Form.parts, Form.ownEvents, events]
  | record fields =>
    have field : ∀ field : Field (List Char), (field.map readPart).parts.flatMap events =
        field.parts.flatMap fun part => (readPart part).events := by
      intro field
      cases field with
      | keyed key type => cases type <;> simp [Field.map, Field.parts]
      | verbatim text => rfl
    simp [Form.tree, Form.parts, Form.ownEvents, events, eventsFields_eq_flatMap, List.flatMap_map,
      field, List.flatMap_assoc]
  | marked inner => simp [Form.tree, Form.parts, Form.ownEvents]
  | named => rfl

/-- The type of an argument is in the entry that is printed for the argument. -/
theorem isInfix_printArguments (index : Nat) (afterOptional : Bool)
    (arguments : List (Argument String)) :
    List.Forall₂ (· <:+: ·) (arguments.map fun argument => argument.type.toList)
      ((printArguments index afterOptional arguments).map String.toList) := by
  induction arguments generalizing index afterOptional with
  | nil => exact .nil
  | cons argument rest ih =>
    rw [printArguments]
    split
    · refine .cons ?_ (ih _ _)
      rw [String.toList_append, String.toList_append]
      exact ⟨_, _, rfl⟩
    · refine .cons ?_ (ih _ _)
      rw [String.toList_append]
      exact (List.suffix_append _ _).isInfix

theorem inOrder_printArguments (index : Nat) (afterOptional : Bool)
    (arguments : List (Argument String)) :
    InOrder (arguments.map fun argument => argument.type.toList)
      (Text.joinWith ", " (printArguments index afterOptional arguments)).toList :=
  (Text.inOrder_joinWith ", " _).of_forall₂ (isInfix_printArguments index afterOptional arguments)

theorem inOrder_signature_print (signature : Signature String) (defaultReturn : String) :
    InOrder (signature.arguments.map (fun argument => argument.type.toList) ++
        signature.returns.toList.map String.toList)
      (signature.print defaultReturn).toList := by
  obtain ⟨arguments, returns⟩ := signature
  have behind : InOrder (returns.toList.map String.toList) (returns.getD defaultReturn).toList := by
    cases returns with
    | none => exact .nil _
    | some type => exact .single _
  unfold Signature.print
  rw [String.append_assoc, String.append_assoc, String.toList_append, String.toList_append,
    String.toList_append]
  exact ((inOrder_printArguments 0 false arguments).append (behind.prepend _)).prepend _

theorem inOrder_field_text (field : Field (List Char)) (shown : List Char → String) :
    InOrder (field.parts.map fun part => (shown part).toList) (field.map shown).text.toList := by
  match field with
  | .keyed key (some type) =>
    show InOrder [(shown type).toList] (key ++ ": " ++ shown type ++ ";").toList
    rw [String.toList_append, String.toList_append]
    exact (InOrder.single _).of_isInfix ⟨_, _, rfl⟩
  | .keyed key none => exact .nil _
  | .verbatim text => exact .nil _

/-- **The parts of a tree are printed one after another.** -/
theorem inOrder_tree (readPart : List Char → TypeExpr) (d : String) (name : List Char) (form : Form) :
    InOrder (form.parts.map fun part => (print d (readPart part)).toList)
      (print d (form.tree readPart name)).toList := by
  have joined : ∀ (separator : String) (parts : List (List Char)),
      InOrder (parts.map fun part => (print d (readPart part)).toList)
        (Text.joinWith separator (printAll d (parts.map readPart))).toList := by
    intro separator parts
    rw [printAll_eq_map, List.map_map]
    exact Text.inOrder_joinWith_map separator (print d ∘ readPart) parts
  cases form with
  | array element =>
    show InOrder [_] (print d (readPart element) ++ "[]").toList
    rw [String.toList_append]
    exact (InOrder.single _).of_isInfix (List.prefix_append _ _).isInfix
  | dictionary key value =>
    show InOrder ([_] ++ [_]) ("\x7b [key: " ++ print d (readPart key) ++ "]: " ++
      print d (readPart value) ++ "; \x7d").toList
    simp only [String.toList_append, List.append_assoc]
    exact ((InOrder.single _).append (((InOrder.single _).extend _).prepend _)).prepend _
  | generic base args =>
    show InOrder ([_] ++ args.map _) (print d (readPart base) ++ "<" ++
      Text.joinWith ", " (printAll d (args.map readPart)) ++ ">").toList
    simp only [String.toList_append, List.append_assoc]
    exact (InOrder.single _).append (((joined ", " args).extend _).prepend _)
  | function signature =>
    have order := inOrder_signature_print
      ⟨printTypes d (signature.arguments.map (Argument.map readPart)),
        printReturns d (signature.returns.map readPart)⟩ d
    have parts : (printTypes d (signature.arguments.map (Argument.map readPart))).map
          (fun argument => argument.type.toList) ++
        (printReturns d (signature.returns.map readPart)).toList.map String.toList =
        (Form.function signature).parts.map fun part => (print d (readPart part)).toList := by
      rw [printTypes_eq_map, printReturns_eq_map, Form.parts, List.map_append, List.map_map,
        List.map_map, List.map_map]
      cases signature.returns <;> rfl
    rwa [parts] at order
  | untypedArray => exact .nil _
  | union members => exact joined "|" members
  | group inner =>
    show InOrder [_] ("(" ++ print d (readPart inner) ++ ")").toList
    rw [String.toList_append, String.toList_append]
    exact (InOrder.single _).of_isInfix ⟨_, _, rfl⟩
  | record fields =>
    cases fields with
    | nil => exact .nil _
    | cons field fields =>
      have inside := Text.inOrder_joinWith_map " "
        (fun field => (Field.map (print d ∘ readPart) field).text) (field :: fields)
      have printed : printFields d ((field :: fields).map (Field.map readPart)) =
          (field :: fields).map fun field => (Field.map (print d ∘ readPart) field).text := by
        rw [printFields_eq_map, List.map_map]
        exact List.map_congr_left fun field _ => by rw [Function.comp, Field.map_map]
      show InOrder (((field :: fields).flatMap Field.parts).map _) ("\x7b " ++
        Text.joinWith " " (printFields d ((field :: fields).map (Field.map readPart))) ++
          " \x7d").toList
      rw [printed, List.map_flatMap, String.toList_append, String.toList_append]
      refine (InOrder.flatMap inside fun field _ => ?_).of_isInfix ⟨_, _, rfl⟩
      exact inOrder_field_text field (print d ∘ readPart)
  | marked inner => exact .single _
  | named => exact .nil _

/-! ## The events of a type expression -/

/-- What an event is in the raw text. -/
def Event.spelling : Event → String
  | .reference name => name
  | .untypedArray word => word

/-- What an event is in the type that is printed. -/
def Event.printed : Event → String
  | .reference name => name
  | .untypedArray _ => "any[]"

/-- Only a text without parts is met itself. -/
theorem Form.ownEvents_eq_nil_or (name : List Char) (form : Form) :
    form.ownEvents name = [] ∨ form.parts = [] := by
  cases form <;> first
    | exact Or.inl rfl
    | exact Or.inr rfl

/-- The events of a tree stand in a text in which its own events stand, and its parts in order with
their events. -/
theorem inOrder_events_tree {readPart : List Char → TypeExpr} {name text : List Char} {form : Form}
    {word : Event → List Char} {place : List Char → List Char}
    (own : InOrder ((form.ownEvents name).map word) text)
    (order : InOrder (form.parts.map place) text)
    (each : ∀ part ∈ form.parts, InOrder ((readPart part).events.map word) (place part)) :
    InOrder ((form.tree readPart name).events.map word) text := by
  rw [Form.events_tree, List.map_append, List.map_flatMap]
  rcases form.ownEvents_eq_nil_or name with none | none
  · rw [none, List.map_nil, List.nil_append]
    exact order.flatMap each
  · rw [none, List.flatMap_nil, List.append_nil]
    exact own

variable (replacement? : String → Option String)

/-- The events stand in the raw text, in their order. -/
theorem inOrder_events_raw (raw : List Char) :
    InOrder ((read replacement? raw).events.map fun event => event.spelling.toList) raw := by
  induction raw using read_induction replacement? with
  | replaced raw text found => exact .nil _
  | formed raw found parts =>
    have order : InOrder ((Form.of (Text.trim raw)).parts.map id) (Text.trim raw) := by
      rw [List.map_id]
      exact inOrder_parts (Text.trim raw)
    refine (inOrder_events_tree ?_ order parts).of_isInfix (Text.isInfix_trim raw)
    cases Form.of (Text.trim raw) <;> first
      | exact .nil _
      | simpa [Form.ownEvents, Event.spelling] using InOrder.single (Text.trim raw)

/-- The events stand in the type that is printed, in their order. -/
theorem inOrder_events_print (d : String) (raw : List Char) :
    InOrder ((read replacement? raw).events.map fun event => event.printed.toList)
      (print d (read replacement? raw)).toList := by
  induction raw using read_induction replacement? with
  | replaced raw text found => exact .nil _
  | formed raw found parts =>
    refine inOrder_events_tree ?_ (inOrder_tree _ d _ _) parts
    cases Form.of (Text.trim raw) <;> first
      | exact .nil _
      | exact .single _

/-- A name that is not replaced, or the word `array`. -/
def Event.IsGenuine : Event → Prop
  | .reference name => replacement? name = none
  | .untypedArray word => Form.isArrayWord word.toList = true

theorem isGenuine_events (raw : List Char) :
    ∀ event ∈ (read replacement? raw).events, event.IsGenuine replacement? := by
  induction raw using read_induction replacement? with
  | replaced raw text found =>
    intro event mem
    cases mem
  | formed raw found parts =>
    intro event mem
    rw [Form.events_tree, List.mem_append, List.mem_flatMap] at mem
    rcases mem with own | ⟨part, mem, inside⟩
    · have cut := Form.cut_of (Text.trim raw)
      generalize Form.of (Text.trim raw) = form at cut own
      cases cut with
      | untypedArray word =>
        obtain rfl := List.mem_singleton.1 own
        show Form.isArrayWord (String.ofList _).toList = true
        rwa [String.toList_ofList]
      | named =>
        obtain rfl := List.mem_singleton.1 own
        exact found
      | _ => cases own
    · exact parts part mem event inside

end TypeExpr

/-! ## The events of a translation -/

open TypeExpr Text in
/-- **The events of a type expression are real.** Whatever the raw text, what is met stands in it and
in the type that is printed, in the same order and each at a place of its own: a name as it is, an
untyped array as it is spelled and as `any[]`. No name is replaced, and what is reported as an
untyped array is the word `array`. -/
theorem Config.events_typeText (c : Config) (raw : String) :
    InOrder ((c.typeText raw).events.map fun event => event.spelling.toList) raw.toList ∧
    InOrder ((c.typeText raw).events.map fun event => event.printed.toList)
      (c.typeText raw).text.toList ∧
    (∀ name, .reference name ∈ (c.typeText raw).events →
      name.toList <:+: raw.toList ∧ name.toList <:+: (c.typeText raw).text.toList ∧
      name ∉ c.typeReplacements.keys ∧ name ∉ Config.builtinReplacements.map Prod.fst) ∧
    ∀ word, .untypedArray word ∈ (c.typeText raw).events →
      Form.isArrayWord word.toList = true := by
  have spelled := inOrder_events_raw c.replacement? raw.toList
  have printed := inOrder_events_print c.replacement? c.defaultReturnType raw.toList
  refine ⟨spelled, printed, fun name mem => ⟨?_, ?_, ?_⟩, fun word mem => ?_⟩
  · exact spelled.isInfix_of_mem (List.mem_map.2 ⟨_, mem, rfl⟩)
  · exact printed.isInfix_of_mem (List.mem_map.2 ⟨_, mem, rfl⟩)
  · exact replacement?_eq_none_iff.1 (isGenuine_events c.replacement? raw.toList _ mem)
  · exact isGenuine_events c.replacement? raw.toList _ mem

end Ambient
