import ProtocolGen.Proofs.Emission.Fields
import ProtocolGen.Proofs.Emission.TopLevelNames
import ProtocolGen.Proofs.Naming.Attributes

/-!
# Names in the bodies of records

Which names the body of a record class binds, read from the code of its module. Those of its fields
come first, then those of the setters of its optional arguments, and the two methods that write it to
the wire and read it from there. The defaults of fields, which are evaluated in the body, look up no
names but those that they are made with.
-/

set_option autoImplicit false

namespace ProtocolGen.Emission

open ProtocolGen.Types ProtocolGen.Source

/-! ## Reading lines -/

/-- The annotated parameters of a function, from the text behind its name: the names right before
colons, up to a closing bracket. The characters of a name that has begun are given. -/
def annotatedParameters (word : List Char) : List Char → List String
  | [] => []
  | char :: rest =>
    if Naming.isNameChar char then annotatedParameters (word ++ [char]) rest
    else if char = ':' then String.ofList word :: annotatedParameters [] rest
    else if char = ')' then []
    else annotatedParameters [] rest

/-- The name of the function that a line begins, with its annotated parameters. -/
def functionOfLine? (line : String) : Option (String × List String) :=
  match line.toList.dropWhile Naming.isNameChar with
  | ' ' :: behind =>
    if line.toList.takeWhile Naming.isNameChar = "def".toList then
      some (String.ofList (behind.takeWhile Naming.isNameChar),
        annotatedParameters [] (behind.dropWhile Naming.isNameChar))
    else none
  | _ => none

/-- The name of the field that a line annotates. -/
def fieldOfLine? (line : String) : Option String :=
  match line.toList.dropWhile Naming.isNameChar with
  | ':' :: _ => some (String.ofList (line.toList.takeWhile Naming.isNameChar))
  | _ => none

/-- The name that an edit binds in the body of a class: that of a field or of a method. -/
def boundName? : Edit → Option String
  | .line text 1 => (fieldOfLine? text).or ((functionOfLine? text).map Prod.fst)
  | _ => none

def boundNames (edits : List Edit) : List String := edits.filterMap boundName?

/-- The names that are bound in a body, which ends before the next line outside of any indent. -/
def bodyNames : List Edit → List String
  | .line _ 0 :: _ => []
  | edit :: rest => (boundName? edit).toList ++ bodyNames rest
  | [] => []

def recordMark : String := "@dataclasses.dataclass(kw_only=True)"

/-- The record classes at the top of a module of some code, with the names in their bodies. -/
def recordBodies : List Edit → List (String × List String)
  | .line mark 0 :: .line head 0 :: rest =>
    if mark = recordMark then
      ((classOfLine? head).getD "", bodyNames rest) :: recordBodies (.line head 0 :: rest)
    else recordBodies (.line head 0 :: rest)
  | _ :: rest => recordBodies rest
  | [] => []

section Words

variable {inClass : Char → Bool} {word : List Char} (inside : ∀ char ∈ word, inClass char)

include inside

theorem takeWhile_word {next : Char} (outside : ¬ inClass next) (rest : List Char) :
    (word ++ next :: rest).takeWhile inClass = word := by
  rw [List.takeWhile_append_of_pos inside, List.takeWhile_cons_of_neg outside, List.append_nil]

theorem dropWhile_word {next : Char} (outside : ¬ inClass next) (rest : List Char) :
    (word ++ next :: rest).dropWhile inClass = next :: rest := by
  rw [List.dropWhile_append_of_pos inside, List.dropWhile_cons_of_neg outside]

end Words

section Lines

variable {name : String} (names : ∀ char ∈ name.toList, Naming.isNameChar char)

include names

theorem fieldOfLine?_annotated (rest : String) :
    fieldOfLine? (name ++ ": " ++ rest) = some name := by
  have chars : (name ++ ": " ++ rest).toList = name.toList ++ ':' :: ' ' :: rest.toList := by simp
  rw [fieldOfLine?, chars, dropWhile_word names (by decide), takeWhile_word names (by decide),
    String.ofList_toList]
  rfl

theorem functionOfLine?_head (rest : String) :
    functionOfLine? ("def " ++ name ++ "(" ++ rest) =
      some (name, annotatedParameters [] ('(' :: rest.toList)) := by
  have word : ∀ char ∈ "def".toList, Naming.isNameChar char := by decide
  have chars : ("def " ++ name ++ "(" ++ rest).toList =
      "def".toList ++ ' ' :: (name.toList ++ '(' :: rest.toList) := by simp
  rw [functionOfLine?, chars, dropWhile_word word (by decide), takeWhile_word word (by decide)]
  refine (if_pos rfl).trans ?_
  rw [dropWhile_word names (by decide), takeWhile_word names (by decide), String.ofList_toList]

end Lines

theorem fieldOfLine?_def (rest : String) : fieldOfLine? ("def " ++ rest) = none := by
  have word : ∀ char ∈ "def".toList, Naming.isNameChar char := by decide
  have chars : ("def " ++ rest).toList = "def".toList ++ ' ' :: rest.toList := by simp
  rw [fieldOfLine?, chars, dropWhile_word word (by decide)]
  rfl

theorem boundName?_field {name : String} (names : ∀ char ∈ name.toList, Naming.isNameChar char)
    (rest : String) : boundName? (.line (name ++ ": " ++ rest) 1) = some name := by
  rw [boundName?, fieldOfLine?_annotated names, Option.some_or]

theorem boundName?_method {name : String} (names : ∀ char ∈ name.toList, Naming.isNameChar char)
    (rest : String) : boundName? (.line ("def " ++ name ++ "(" ++ rest) 1) = some name := by
  have head := functionOfLine?_head names rest
  rw [boundName?, head, String.append_assoc, String.append_assoc, fieldOfLine?_def]
  rfl

/-! ## Bodies -/

/-- Code that stands inside of a body. -/
def isInner : Edit → Bool
  | .line _ 0 => false
  | _ => true

theorem boundNames_append (edits others : List Edit) :
    boundNames (edits ++ others) = boundNames edits ++ boundNames others :=
  List.filterMap_append

theorem boundNames_flatMap {Item : Type} {step : Item → List Edit} {names : Item → List String}
    {items : List Item} (one : ∀ item ∈ items, boundNames (step item) = names item) :
    boundNames (items.flatMap step) = items.flatMap names := by
  rw [boundNames, List.filterMap_flatMap]
  exact List.flatMap_congr one

theorem bodyNames_append {body : List Edit} (inner : body.all isInner) (behind : List Edit) :
    bodyNames (body ++ behind) = boundNames body ++ bodyNames behind := by
  induction body with
  | nil => rfl
  | cons edit rest ih =>
    rw [List.all_cons, Bool.and_eq_true] at inner
    have names : bodyNames (edit :: (rest ++ behind)) =
        (boundName? edit).toList ++ bodyNames (rest ++ behind) := by
      rw [bodyNames]
      rintro text rfl
      cases inner.1
    rw [List.cons_append, names, ih inner.2, boundNames, boundNames, List.filterMap_cons]
    cases boundName? edit <;> rfl

theorem recordBodies_cons_of_ne {edit : Edit} (unmarked : edit ≠ .line recordMark 0)
    (rest : List Edit) : recordBodies (edit :: rest) = recordBodies rest := by
  rw [recordBodies.eq_def]
  split
  · next mark head rest same =>
    cases same
    refine if_neg ?_
    rintro rfl
    exact unmarked rfl
  · next same =>
    cases same
    rfl
  · next same => cases same

theorem recordBodies_append {edits : List Edit} (unmarked : .line recordMark 0 ∉ edits)
    (behind : List Edit) : recordBodies (edits ++ behind) = recordBodies behind := by
  induction edits with
  | nil => rfl
  | cons edit rest ih =>
    rw [List.mem_cons, not_or] at unmarked
    rw [List.cons_append, recordBodies_cons_of_ne (Ne.symm unmarked.1), ih unmarked.2]

/-- Code that holds records and binds no name before the first of them. -/
structure HoldsRecords (edits : List Edit) (records : List (String × List String)) : Prop where
  quiet : ∀ behind, bodyNames behind = [] → bodyNames (edits ++ behind) = []
  reads : ∀ behind, bodyNames behind = [] →
    recordBodies (edits ++ behind) = records ++ recordBodies behind

namespace HoldsRecords

variable {edits others : List Edit} {records more : List (String × List String)}

theorem recordBodies_eq (holds : HoldsRecords edits records) : recordBodies edits = records := by
  have reads := holds.reads [] rfl
  rwa [List.append_nil, recordBodies, List.append_nil] at reads

theorem nil : HoldsRecords [] [] := ⟨fun _ quiet => quiet, fun _ _ => rfl⟩

theorem append (first : HoldsRecords edits records) (second : HoldsRecords others more) :
    HoldsRecords (edits ++ others) (records ++ more) where
  quiet behind quiet := by
    rw [List.append_assoc]
    exact first.quiet _ (second.quiet behind quiet)
  reads behind quiet := by
    rw [List.append_assoc, first.reads _ (second.quiet behind quiet), second.reads behind quiet,
      List.append_assoc]

theorem of_unmarked (quiet : ∀ behind, bodyNames behind = [] → bodyNames (edits ++ behind) = [])
    (unmarked : .line recordMark 0 ∉ edits) : HoldsRecords edits [] :=
  ⟨quiet, fun behind _ => recordBodies_append unmarked behind⟩

theorem of_collectEdits {Item : Type} {front : List Edit}
    {step : Item → Except Types.Failure (List Edit)} {items : List Item}
    {each : Item → List (String × List String)} (made : collectEdits front step items = .ok edits)
    (before : HoldsRecords front [])
    (one : ∀ item body, step item = .ok body → HoldsRecords body (each item)) :
    HoldsRecords edits (items.flatMap each) := by
  obtain ⟨bodies, rendered, finished⟩ := bind_eq_ok_iff.mp made
  cases finished
  have results := mapM_eq_ok_iff.mp rendered
  refine before.append ?_
  clear made rendered
  induction results with
  | nil => exact .nil
  | cons first _ ih => exact (one _ _ first).append ih

end HoldsRecords

/-! ## Records -/

section Record

variable {scope : Scope} {name : String} {fields : List Field} {setters : List Edit}

theorem boundNames_fieldEdits {field : Field}
    (names : ∀ char ∈ field.memberName.toList, Naming.isNameChar char) :
    boundNames (fieldEdits scope field) = [field.memberName] := by
  have bound (rest : String) :
      boundNames [.comment (field.property.expression.describe :: field.property.notes) 1 "#:",
        .line (field.memberName ++ ": " ++ rest) 1] = [field.memberName] := by
    simp only [boundNames, List.filterMap_cons, List.filterMap_nil, boundName?_field names]
    rfl
  rw [fieldEdits]
  cases field.default? scope with
  | none => exact bound _
  | some default =>
    have text : field.memberName ++ ": " ++ field.annotation scope ++ " = " ++ default =
        field.memberName ++ ": " ++ (field.annotation scope ++ " = " ++ default) := by
      simp only [String.append_assoc]
    dsimp only
    rw [text]
    exact bound _

theorem boundNames_toDictEdits : boundNames (toDictEdits fields) = ["to_dict"] := by
  have wire : boundNames (fields.flatMap toWireEdits) = fields.flatMap fun _ => [] :=
    boundNames_flatMap fun field _ => filterMap_toWireEdits (fun _ _ => rfl) field
  have nothing : (fields.flatMap fun _ => ([] : List String)) = [] :=
    List.flatMap_eq_nil_iff.mpr fun _ _ => rfl
  rw [toDictEdits, boundNames_append, boundNames_append, wire, nothing]
  rfl

theorem boundNames_fromDictEdits : boundNames (fromDictEdits scope name fields) = ["from_dict"] := by
  have call : boundNames (.line "return cls(" 2 :: fields.map fun field =>
      .line (field.memberName ++ "=" ++ field.fromWire scope ++ ",") 3) = [] := by
    rw [boundNames, List.filterMap_eq_nil_iff, List.forall_mem_cons, List.forall_mem_map]
    exact ⟨rfl, fun _ _ => rfl⟩
  have text : "def from_dict(cls, data: dict[str, Any]) -> " ++ name ++ ":" =
      "def " ++ "from_dict" ++ "(" ++ ("cls, data: dict[str, Any]) -> " ++ name ++ ":") := by
    simp [← String.toList_inj]
  have decorator : boundName? (.line "@classmethod" 1) = none := by decide
  have method : boundName? (.line ("def from_dict(cls, data: dict[str, Any]) -> " ++ name ++ ":") 1) =
      some "from_dict" := by
    rw [text]
    exact boundName?_method (by decide) _
  have head : boundNames [.blank 1, .line "@classmethod" 1,
      .line ("def from_dict(cls, data: dict[str, Any]) -> " ++ name ++ ":") 1] = ["from_dict"] := by
    simp only [boundNames, List.filterMap_cons, List.filterMap_nil, decorator, method]
    rfl
  unfold fromDictEdits
  rw [boundNames_append, head]
  split
  · rfl
  · rw [boundNames_append, call]
    rfl

theorem all_isInner_toDictEdits : (toDictEdits fields).all isInner := by
  have wire (field : Field) : (toWireEdits field).all isInner := by
    refine List.all_eq_true.mpr fun edit member => ?_
    obtain ⟨text, indent, rfl⟩ := exists_line_of_mem_toWireEdits member
    rfl
  simp [toDictEdits, isInner, wire]

theorem all_isInner_fromDictEdits : (fromDictEdits scope name fields).all isInner := by
  unfold fromDictEdits
  split <;> simp [isInner]

/-- What reads nothing where a name is asked for reads nothing where modules are. -/
theorem filterMap_requireModules {Part : Type} {read : Edit → Option Part}
    (silent : ∀ module names, read (.require module names) = none) (package : String)
    (modules : List String) : (requireModules package modules).filterMap read = [] := by
  rw [requireModules, List.filterMap_map]
  exact List.filterMap_eq_nil_iff.mpr fun _ _ => silent _ _

theorem boundNames_requireModules (package : String) (modules : List String) :
    boundNames (requireModules package modules) = [] :=
  filterMap_requireModules (fun _ _ => rfl) package modules

theorem mark_not_mem_of_inner {body : List Edit} (inner : body.all isInner) :
    .line recordMark 0 ∉ body := by
  intro member
  cases List.all_eq_true.mp inner _ member

theorem mark_ne_class (name rest : String) : recordMark ≠ "class " ++ name ++ rest := by
  intro same
  have first := congrArg (fun text => text.toList.head?) same
  simp [recordMark] at first

/-- A record holds its fields, its setters and the two methods that every record has. -/
theorem holdsRecords_recordEdits {package : String} {documentation : List String}
    (names : ∀ char ∈ name.toList, Naming.isNameChar char)
    (memberNames : ∀ field ∈ fields, ∀ char ∈ field.memberName.toList, Naming.isNameChar char)
    (inner : setters.all isInner) :
    HoldsRecords (recordEdits scope package name documentation fields setters)
      [(name, fields.map Field.memberName ++ boundNames setters ++ ["to_dict", "from_dict"])] := by
  let front : List Edit := [.declare, .require "dataclasses" [], .require "typing" ["Any"], .blank 2]
  let body : List Edit := [.docstring documentation 1] ++
    requireModules package (fields.flatMap fun field => field.modules scope) ++
    (if fields.isEmpty then [] else [.blank 1]) ++ fields.flatMap (fieldEdits scope) ++ setters ++
    toDictEdits fields ++ fromDictEdits scope name fields
  have split : recordEdits scope package name documentation fields setters =
      front ++ .line recordMark 0 :: .line ("class " ++ name ++ ":") 0 :: body := by
    simp only [recordEdits, front, body, recordMark, List.append_assoc, List.cons_append,
      List.nil_append]
  have bodyInner : body.all isInner := by
    simp [body, isInner, requireModules, fieldEdits, inner, all_isInner_toDictEdits,
      all_isInner_fromDictEdits]
  have gap : boundNames (if fields.isEmpty then [] else [.blank 1]) = [] := by
    split <;> rfl
  have bound : boundNames body =
      fields.map Field.memberName ++ boundNames setters ++ ["to_dict", "from_dict"] := by
    have members : boundNames (fields.flatMap (fieldEdits scope)) = fields.map Field.memberName := by
      rw [List.map_eq_flatMap]
      exact boundNames_flatMap fun field member => boundNames_fieldEdits (memberNames field member)
    have text : boundNames [.docstring documentation 1] = [] := rfl
    simp only [body, boundNames_append, boundNames_requireModules, gap, members, text,
      boundNames_toDictEdits, boundNames_fromDictEdits, List.nil_append, List.append_nil]
    exact List.append_assoc _ ["to_dict"] ["from_dict"]
  have head : classOfLine? ("class " ++ name ++ ":") = some name := classOfLine?_head names (by decide)
  have unmarked : .line recordMark 0 ∉ front := by decide
  constructor
  · intro behind _
    rw [split]
    rfl
  · intro behind quiet
    rw [split, List.append_assoc, recordBodies_append unmarked, List.cons_append, List.cons_append,
      recordBodies, if_pos rfl, recordBodies_cons_of_ne (by simp [(mark_ne_class name ":").symm]),
      recordBodies_append (mark_not_mem_of_inner bodyInner), head, bodyNames_append bodyInner, quiet,
      bound, List.append_nil]
    rfl

end Record

/-! ## Names that defaults look up -/

/-- What is read of an expression: the word that has begun, whether a dot stands before it, whether what
follows is evaluated later, and the names that are looked up. -/
structure Lookup where
  word : List Char
  isAttribute : Bool
  isLater : Bool
  names : List String
  deriving DecidableEq

namespace Lookup

def start : Lookup := ⟨[], false, false, []⟩

/-- A word is looked up unless it is a keyword, an attribute or the name of an argument. Behind `lambda`
nothing is looked up. -/
def step (lookup : Lookup) (char : Char) : Lookup :=
  if lookup.isLater then lookup
  else if Naming.isNameChar char then { lookup with word := lookup.word ++ [char] }
  else
    let other := lookup.word.isEmpty || lookup.isAttribute || char == '=' ||
      Text.isKeyword lookup.word
    { word := [],
      isAttribute := char == '.',
      isLater := lookup.word == "lambda".toList,
      names := if other then lookup.names else lookup.names ++ [String.ofList lookup.word] }

def read (lookup : Lookup) (text : String) : Lookup := text.toList.foldl step lookup

theorem read_append (lookup : Lookup) (text more : String) :
    lookup.read (text ++ more) = (lookup.read text).read more := by
  rw [read, String.toList_append, List.foldl_append, read, read]

theorem read_of_isLater {lookup : Lookup} (later : lookup.isLater) (text : String) :
    lookup.read text = lookup := by
  rw [read]
  induction text.toList with
  | nil => rfl
  | cons char chars ih => rw [List.foldl_cons, step, if_pos later, ih]

end Lookup

/-- The names that are looked up when an expression is evaluated. -/
def evaluatedNames (text : String) : List String := (Lookup.start.read (text ++ " ")).names

/-- What the defaults of fields are made with. -/
def defaultMakers : List String := ["dataclasses", "list", "dict"]

theorem evaluatedNames_factory (maker : String) : evaluatedNames (Field.factory maker) =
    (((Lookup.read ⟨[], false, false, ["dataclasses"]⟩ maker).read ")").read " ").names := by
  have begun : Lookup.start.read "dataclasses.field(default_factory=" =
      ⟨[], false, false, ["dataclasses"]⟩ := by decide +kernel
  unfold evaluatedNames Field.factory
  rw [Lookup.read_append, Lookup.read_append, Lookup.read_append, begun]

theorem evaluatedNames_lambda (body : String) :
    evaluatedNames (Field.factory ("lambda: " ++ body)) = ["dataclasses"] := by
  have stopped : Lookup.read ⟨[], false, false, ["dataclasses"]⟩ "lambda: " =
      ⟨[], false, true, ["dataclasses"]⟩ := by decide
  have kept (text : String) : Lookup.read ⟨[], false, true, ["dataclasses"]⟩ text =
      ⟨[], false, true, ["dataclasses"]⟩ := Lookup.read_of_isLater rfl text
  rw [evaluatedNames_factory, Lookup.read_append, stopped, kept, kept, kept]

/-- The default of a field looks up no other names in the body of its class. -/
theorem evaluatedNames_of_default? {scope : Scope} {field : Field} {text : String}
    (given : field.default? scope = some text) : evaluatedNames text ⊆ defaultMakers := by
  have none : evaluatedNames "None" ⊆ defaultMakers := by decide
  unfold Field.default? at given
  split at given
  · cases given
    exact none
  · split at given
    · cases given
    · split at given
      · cases given
        rw [String.append_assoc, evaluatedNames_lambda]
        decide
      · cases given
        rw [String.append_assoc, evaluatedNames_lambda]
        decide
      · cases given
        rw [evaluatedNames_factory]
        decide
      · cases given
        rw [evaluatedNames_factory]
        decide
      · cases given
        exact none

/-! ## The records of modules -/

/-- The names in the body of a record with some properties, of which some have setters. -/
def recordNames (properties settable : List Property) : List String :=
  (properties.map fun property => Naming.attributeName property.name) ++
    (settable.map fun property => Naming.setterName (Naming.attributeName property.name)) ++
    ["to_dict", "from_dict"]

theorem isNameChar_attributeName (name : String) :
    ∀ char ∈ (Naming.attributeName name).toList, Naming.isNameChar char :=
  fun _ => Naming.isNameChar_of_mem_safeIdentifier

theorem isNameChar_memberName_of_fieldsOf {index : TypeIndex} {scope : Scope} {domain owner : String}
    {properties : List Property} {fields : List Field}
    (made : fieldsOf index scope domain owner properties = .ok fields) :
    ∀ field ∈ fields, ∀ char ∈ field.memberName.toList, Naming.isNameChar char := by
  intro field member
  rw [memberName_of_fieldsOf made field member]
  exact isNameChar_attributeName _

theorem isNameChar_setterName (name : String) :
    ∀ char ∈ (Naming.setterName (Naming.attributeName name)).toList, Naming.isNameChar char := by
  refine Naming.isNameChar_of_mem_append (by decide) fun char member => ?_
  rw [withoutEndLowLines, String.toList_ofList] at member
  exact isNameChar_attributeName name char ((Naming.dropEndWhile_isPrefix _ _).subset member)

section Modules

variable {index : TypeIndex} {scope : Scope} {runtimeModule typesPackage : String}
  {domain owner : String} {properties : List Property} {fields : List Field} {edits : List Edit}

/-- A record that is made of properties, without setters. -/
theorem holdsRecords_of_fieldsOf {package name : String} {documentation : List String}
    (names : ∀ char ∈ name.toList, Naming.isNameChar char)
    (made : fieldsOf index scope domain owner properties = .ok fields) {setters : List Edit}
    {settable : List Property} (inner : setters.all isInner)
    (setterNames : boundNames setters =
      settable.map fun property => Naming.setterName (Naming.attributeName property.name)) :
    HoldsRecords (recordEdits scope package name documentation fields setters)
      [(name, recordNames properties settable)] := by
  have holds : HoldsRecords (recordEdits scope package name documentation fields setters) _ :=
    holdsRecords_recordEdits names (isNameChar_memberName_of_fieldsOf made) inner
  rwa [memberNames_of_fieldsOf made, setterNames] at holds

/-! ### Commands -/

theorem setterLine_eq (owner : String) (field : Field) :
    "def set_" ++ withoutEndLowLines field.memberName ++ "(self, " ++ field.memberName ++ ": " ++
        annotation none false field.ref ++ ") -> " ++ owner ++ ":" =
      "def " ++ Naming.setterName field.memberName ++ "(" ++ ("self, " ++ field.memberName ++ ": " ++
        annotation none false field.ref ++ ") -> " ++ owner ++ ":") := by
  simp [← String.toList_inj, Naming.setterName]

theorem boundNames_setterEdits (owner : String) {field : Field} {name : String}
    (member : field.memberName = Naming.attributeName name) :
    boundNames (setterEdits none owner field) =
      [Naming.setterName (Naming.attributeName name)] := by
  have head : boundName? (.line ("def " ++ Naming.setterName field.memberName ++ "(" ++ ("self, " ++
      field.memberName ++ ": " ++ annotation none false field.ref ++ ") -> " ++ owner ++ ":")) 1) =
        some (Naming.setterName field.memberName) := by
    rw [member]
    exact boundName?_method (isNameChar_setterName name) _
  rw [← member, setterEdits, setterLine_eq]
  simp only [boundNames, List.filterMap_cons, List.filterMap_nil, head]
  rfl

theorem boundNames_setters (made : fieldsOf index none domain owner properties = .ok fields) :
    boundNames ((fields.filter Field.omitEmpty).flatMap (setterEdits none owner)) =
      (properties.filter Property.optional).map fun property =>
        Naming.setterName (Naming.attributeName property.name) := by
  have each : ∀ field ∈ fields.filter Field.omitEmpty, boundNames (setterEdits none owner field) =
      [Naming.setterName (Naming.attributeName field.property.name)] := by
    intro field member
    exact boundNames_setterEdits owner
      (memberName_of_fieldsOf made field (List.mem_filter.mp member).1)
  rw [boundNames_flatMap each, ← optional_of_fieldsOf made, List.map_map, List.map_eq_flatMap]
  rfl

/-- The records of a command: its arguments, with setters for the optional ones, and its return
values. -/
def commandRecords (domain : String) (command : Command) : List (String × List String) :=
  (if command.parameters.isEmpty then []
    else [(Naming.argsName domain command.name,
      recordNames command.parameters command.optionalParameters)]) ++
  if command.returns.isEmpty then []
  else [(Naming.replyName domain command.name, recordNames command.returns [])]

theorem holdsRecords_payload {name : String} {documentation : List String}
    {settable : List Property} {setters : List Field → List Edit}
    (names : ∀ char ∈ name.toList, Naming.isNameChar char)
    (inner : ∀ fields, (setters fields).all isInner)
    (setterNames : ∀ fields, fieldsOf index none domain name properties = .ok fields →
      boundNames (setters fields) =
        settable.map fun property => Naming.setterName (Naming.attributeName property.name))
    (code : PayloadCode index typesPackage domain name documentation properties setters edits) :
    HoldsRecords edits
      (if properties.isEmpty then [] else [(name, recordNames properties settable)]) := by
  cases code with
  | absent empty =>
    rw [if_pos empty]
    exact .nil
  | record given made =>
    rw [if_neg given]
    exact holdsRecords_of_fieldsOf names made (inner _) (setterNames _ made)

theorem holdsRecords_commandEdits {command : Command}
    (made : commandEdits index typesPackage domain command = .ok edits) :
    HoldsRecords edits (commandRecords domain command) := by
  obtain ⟨args, returns, rfl, argsPayload, returnsPayload⟩ := exists_payloads_of_commandEdits made
  have inner (owner : String) (fields : List Field) :
      ((fields.filter Field.omitEmpty).flatMap (setterEdits none owner)).all isInner := by
    simp [setterEdits, isInner]
  exact HoldsRecords.append
    (holdsRecords_payload (Naming.isNameChar_argsName _ _) (inner _)
      (fun _ => boundNames_setters) argsPayload)
    (holdsRecords_payload (Naming.isNameChar_replyName _ _) (fun _ => rfl)
      (fun _ _ => rfl) returnsPayload)

theorem holdsRecords_registryEdits (heading className documentation : String)
    (entries : List (String × String)) :
    HoldsRecords (registryEdits heading className documentation entries) [] := by
  refine .of_unmarked (fun _ _ => rfl) ?_
  simp [registryEdits, mark_ne_class]

/-- The records of the commands module. -/
theorem recordBodies_commandsEdits {domains : List Domain}
    (made : commandsEdits index typesPackage domains = .ok edits) :
    recordBodies edits = domains.flatMap fun domain =>
      domain.commands.flatMap (commandRecords domain.name) := by
  refine HoldsRecords.recordBodies_eq (.of_collectEdits made ?_ fun domain body bodyMade => ?_)
  · exact holdsRecords_registryEdits _ _ _ _
  · exact .of_collectEdits bodyMade .nil fun _ _ => holdsRecords_commandEdits

/-! ### Events -/

/-- The record of an event's payload. -/
def eventRecord (domain : String) (event : Event) : String × List String :=
  (Naming.replyName domain event.name, recordNames event.parameters [])

theorem holdsRecords_eventEdits {event : Event}
    (made : eventEdits index typesPackage domain event = .ok edits) :
    HoldsRecords edits [eventRecord domain event] := by
  obtain ⟨fields, fieldsMade, finished⟩ := bind_eq_ok_iff.mp made
  cases finished
  have receiver : HoldsRecords (receiverEdits domain event.name) [] := by
    refine .of_unmarked (fun _ _ => rfl) ?_
    simp [receiverEdits, mark_ne_class]
  exact receiver.append
    (holdsRecords_of_fieldsOf (Naming.isNameChar_replyName _ _) fieldsMade rfl rfl)

/-- The records of the events module. -/
theorem recordBodies_eventsEdits {domains : List Domain}
    (made : eventsEdits index typesPackage domains = .ok edits) :
    recordBodies edits = domains.flatMap fun domain =>
      domain.events.map (eventRecord domain.name) := by
  refine HoldsRecords.recordBodies_eq (.of_collectEdits made ?_ fun domain body bodyMade => ?_)
  · exact holdsRecords_registryEdits _ _ _ _
  · rw [List.map_eq_flatMap]
    exact .of_collectEdits bodyMade .nil fun _ _ => holdsRecords_eventEdits

/-! ### Types -/

/-- The record of a declared type, when its class is one. -/
def typeRecords (index : TypeIndex) (domain : String) (declaration : TypeDeclaration) :
    List (String × List String) :=
  match (index.find? (keyOf domain declaration.id)).map TypeInfo.kind with
  | some .record =>
    [(Naming.className declaration.id, recordNames declaration.propertyList [])]
  | _ => []

theorem isNameChar_className (id : String) :
    ∀ char ∈ (Naming.className id).toList, Naming.isNameChar char :=
  fun _ => Naming.isNameChar_of_mem_safeIdentifier

theorem holdsRecords_aliasEdits (name : String) (documentation : List String) (target : TypeRef)
    (names : ∀ char ∈ name.toList, Naming.isNameChar char) :
    HoldsRecords (aliasEdits domain name documentation target) [] := by
  let written : String := annotation (some domain) true target
  let front : List Edit := [.declare, .require "typing" ["TypeAlias"]] ++
    requireModules siblingPackage (annotationModules (some domain) target) ++
    (if hasPart "Any" written then [.require "typing" ["Any"]] else [])
  let line : String := name ++ ": TypeAlias = " ++ written
  have split : aliasEdits domain name documentation target =
      front ++ [.blank 2, .comment documentation 0 "#", .line line 0] := rfl
  have inner : front.all isInner := by
    simp [front, isInner, requireModules]
  have bound : boundNames front = [] := by
    have gap : boundNames (if hasPart "Any" written then [.require "typing" ["Any"]] else []) = [] := by
      split <;> rfl
    simp only [front, boundNames_append, boundNames_requireModules, gap]
    rfl
  have apart : line ≠ recordMark := by
    intro same
    have text : line = name ++ ": " ++ ("TypeAlias = " ++ written) := by
      simp [line, ← String.toList_inj]
    have field := fieldOfLine?_annotated names ("TypeAlias = " ++ written)
    have none : fieldOfLine? recordMark = none := by decide
    rw [← text, same, none] at field
    cases field
  rw [split]
  refine .of_unmarked (fun behind _ => ?_) ?_
  · rw [List.append_assoc, bodyNames_append inner, bound]
    rfl
  · have unmarked := mark_not_mem_of_inner inner
    simp [unmarked, apart.symm]

theorem holdsRecords_enumerationEdits (name : String) (documentation labels : List String) :
    HoldsRecords (enumerationEdits runtimeModule name documentation labels) [] := by
  refine .of_unmarked (fun _ _ => rfl) ?_
  simp [enumerationEdits, mark_ne_class]

theorem holdsRecords_rawEdits (name : String) (documentation : List String) :
    HoldsRecords (rawEdits runtimeModule name documentation) [] := by
  refine .of_unmarked (fun _ _ => rfl) ?_
  simp [rawEdits, mark_ne_class]

theorem holdsRecords_declarationEdits {declaration : TypeDeclaration}
    (made : declarationEdits index runtimeModule domain declaration = .ok edits) :
    HoldsRecords edits (typeRecords index domain declaration) := by
  unfold typeRecords
  cases declarationCode_of_declarationEdits made with
  | record kind fieldsMade =>
    rw [kind]
    exact holdsRecords_of_fieldsOf (isNameChar_className _) fieldsMade rfl rfl
  | enumeration kind =>
    rw [kind]
    exact holdsRecords_enumerationEdits _ _ _
  | raw kind =>
    rw [kind]
    exact holdsRecords_rawEdits _ _
  | typeAlias other =>
    split
    · next kind => exact absurd kind other
    · exact holdsRecords_aliasEdits _ _ _ (isNameChar_className _)

/-- The records of a types module. -/
theorem recordBodies_typesEdits {domain : Domain}
    (made : typesEdits index runtimeModule domain = .ok edits) :
    recordBodies edits = domain.types.flatMap (typeRecords index domain.name) := by
  unfold typesEdits at made
  split at made
  · next untyped =>
    cases made
    rw [List.isEmpty_iff.mp untyped]
    rfl
  · refine HoldsRecords.recordBodies_eq (.of_collectEdits made ?_ fun declaration body bodyMade => ?_)
    · exact .of_unmarked (fun _ quiet => quiet) (by simp)
    · exact holdsRecords_declarationEdits bodyMade

end Modules

end ProtocolGen.Emission
