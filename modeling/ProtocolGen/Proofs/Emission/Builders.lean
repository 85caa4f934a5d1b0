import ProtocolGen.Proofs.Emission.RecordBodies
import ProtocolGen.Proofs.Types.DeclaredNames

/-!
# Functions that build arguments

The functions at the top of the client module, with their parameters, read from its code. There is one
for each command with an optional parameter, and it takes the required ones.
-/

set_option autoImplicit false

namespace ProtocolGen.Emission

open ProtocolGen.Types ProtocolGen.Source

/-! ## Parameters in the head of a function -/

/-- A character that stands in annotations without quotes. -/
def isAnnotationChar (char : Char) : Bool :=
  Naming.isNameChar char || ['[', ']', '.', ',', ' ', '|'].contains char

theorem isAnnotationChar_of_isNameChar {char : Char} (name : Naming.isNameChar char) :
    isAnnotationChar char := by
  rw [isAnnotationChar, name, Bool.true_or]

/-- Every character of a text stands in annotations. -/
def IsAnnotationText (text : String) : Prop := ∀ char ∈ text.toList, isAnnotationChar char

instance (text : String) : Decidable (IsAnnotationText text) :=
  inferInstanceAs (Decidable (∀ char ∈ text.toList, isAnnotationChar char = true))

theorem isAnnotationText_append {text more : String} :
    IsAnnotationText (text ++ more) ↔ IsAnnotationText text ∧ IsAnnotationText more := by
  simp only [IsAnnotationText, String.toList_append, List.forall_mem_append]

theorem isAnnotationText_annotated {scope : Scope} {ref : TypeRef}
    (named : ∀ declared ∈ ref.names, IsAnnotationText declared.className) :
    IsAnnotationText <| annotation scope false ref := by
  have qualified {declared : Declared} (name : IsAnnotationText declared.className) :
      IsAnnotationText (qualifiedName scope declared) := by
    unfold qualifiedName
    split
    · exact name
    · refine isAnnotationText_append.mpr ⟨isAnnotationText_append.mpr ⟨?_, by decide⟩, name⟩
      intro char member
      exact isAnnotationChar_of_isNameChar (Naming.isNameChar_of_mem_moduleName member)
  induction ref with
  | primitive primitive =>
    unfold annotation
    cases primitive <;> decide
  | any | map =>
    unfold annotation
    decide
  | array item ih =>
    exact isAnnotationText_append.mpr ⟨isAnnotationText_append.mpr ⟨by decide, ih named⟩, by decide⟩
  | record declared | enumeration declared | raw declared =>
    exact qualified (named declared List.mem_cons_self)
  | _ declared meaning => exact qualified (named declared List.mem_cons_self)

/-- The declared types that a resolved type is made of have the names of classes. -/
theorem isNameChar_of_resolve {index : TypeIndex} {domain : String} {owner : Option String}
    {expression : TypeExpression} {ref : TypeRef}
    (resolved : index.resolve domain owner expression = .ok ref) :
    ∀ declared ∈ ref.names, ∀ char ∈ declared.className.toList, Naming.isNameChar char := by
  intro declared named
  obtain ⟨info, -, rfl⟩ := TypeIndex.names_of_resolve resolved declared named
  exact isNameChar_className info.id

theorem isAnnotationText_of_fieldsOf {index : TypeIndex} {scope : Scope} {domain owner : String}
    {properties : List Property} {fields : List Field}
    (made : fieldsOf index scope domain owner properties = .ok fields) :
    ∀ field ∈ fields, IsAnnotationText <| field.annotation scope := by
  intro field member
  obtain ⟨property, ref, resolved, rfl⟩ := exists_fieldOf_of_mem made member
  have text : IsAnnotationText <| annotation scope false ref := by
    refine isAnnotationText_annotated fun declared named char inName => ?_
    exact isAnnotationChar_of_isNameChar (isNameChar_of_resolve resolved declared named char inName)
  unfold Field.annotation
  dsimp only
  split
  · exact isAnnotationText_append.mpr ⟨text, by decide⟩
  · exact text

theorem annotatedParameters_name {name : List Char} (names : ∀ char ∈ name, Naming.isNameChar char)
    (word rest : List Char) :
    annotatedParameters word (name ++ rest) = annotatedParameters (word ++ name) rest := by
  induction name generalizing word with
  | nil => rw [List.nil_append, List.append_nil]
  | cons first name ih =>
    obtain ⟨isName, others⟩ := List.forall_mem_cons.mp names
    rw [List.cons_append, annotatedParameters, if_pos isName, ih others, List.append_assoc,
      List.singleton_append]

/-- No parameter is read from an annotation, whatever stands behind it. -/
theorem annotatedParameters_of_annotated {text : List Char}
    (annotated : ∀ char ∈ text, isAnnotationChar char) {next : Char} (ends : next ∈ [',', ')'])
    (word rest : List Char) : annotatedParameters word (text ++ next :: rest) =
      if next = ')' then [] else annotatedParameters [] rest := by
  induction text generalizing word with
  | nil =>
    have others : ¬ Naming.isNameChar next ∧ next ≠ ':' := by
      simp only [List.mem_cons, List.not_mem_nil, or_false] at ends
      rcases ends with rfl | rfl <;> decide
    rw [List.nil_append, annotatedParameters, if_neg others.1, if_neg others.2]
  | cons first text ih =>
    obtain ⟨inAnnotations, others⟩ := List.forall_mem_cons.mp annotated
    have notColon : first ≠ ':' := by
      rintro rfl
      exact absurd inAnnotations (by decide)
    have notClosing : first ≠ ')' := by
      rintro rfl
      exact absurd inAnnotations (by decide)
    rw [List.cons_append, annotatedParameters, if_neg notColon, if_neg notClosing, ih others, ih others]
    exact ite_id _

/-- A parameter of a function with its annotation. -/
def parameterText (parameter : String × String) : String := parameter.1 ++ ": " ++ parameter.2

def parameterList (parameters : List (String × String)) : String :=
  ", ".intercalate (parameters.map parameterText)

theorem annotatedParameters_parameterList {parameters : List (String × String)}
    (names : ∀ parameter ∈ parameters, ∀ char ∈ parameter.1.toList, Naming.isNameChar char)
    (annotated : ∀ parameter ∈ parameters, IsAnnotationText parameter.2) (rest : List Char) :
    annotatedParameters [] ((parameterList parameters).toList ++ ')' :: rest) =
      parameters.map Prod.fst := by
  have one {parameter : String × String}
      (names : ∀ char ∈ parameter.1.toList, Naming.isNameChar char) (behind : List Char) :
      annotatedParameters [] ((parameterText parameter).toList ++ behind) =
        parameter.1 :: annotatedParameters [] (parameter.2.toList ++ behind) := by
    have chars : (parameterText parameter).toList ++ behind =
        parameter.1.toList ++ ':' :: ' ' :: (parameter.2.toList ++ behind) := by simp [parameterText]
    rw [chars, annotatedParameters_name names, List.nil_append, annotatedParameters,
      if_neg (by decide), if_pos rfl, annotatedParameters, if_neg (by decide), if_neg (by decide),
      if_neg (by decide), String.ofList_toList]
  induction parameters with
  | nil => rfl
  | cons parameter parameters ih =>
    obtain ⟨name, nameOthers⟩ := List.forall_mem_cons.mp names
    obtain ⟨annotatedFirst, annotatedOthers⟩ := List.forall_mem_cons.mp annotated
    have later := ih nameOthers annotatedOthers
    cases parameters with
    | nil =>
      have single := one name (')' :: rest)
      rwa [annotatedParameters_of_annotated annotatedFirst (by decide), if_pos rfl] at single
    | cons next parameters =>
      have chars : (parameterList (parameter :: next :: parameters)).toList ++ ')' :: rest =
          (parameterText parameter).toList ++
            ',' :: ' ' :: ((parameterList (next :: parameters)).toList ++ ')' :: rest) := by
        simp [parameterList, String.intercalate_cons_cons]
      rw [chars, one name, annotatedParameters_of_annotated annotatedFirst (by decide),
        if_neg (by decide), annotatedParameters, if_neg (by decide), if_neg (by decide),
        if_neg (by decide), later]
      rfl

theorem functionOfLine?_parameterList {name : String} {parameters : List (String × String)}
    (nameChars : ∀ char ∈ name.toList, Naming.isNameChar char)
    (names : ∀ parameter ∈ parameters, ∀ char ∈ parameter.1.toList, Naming.isNameChar char)
    (annotated : ∀ parameter ∈ parameters, IsAnnotationText parameter.2) (rest : String) :
    functionOfLine? ("def " ++ name ++ "(" ++ (parameterList parameters ++ ")" ++ rest)) =
      some (name, parameters.map Prod.fst) := by
  have chars : (parameterList parameters ++ ")" ++ rest).toList =
      (parameterList parameters).toList ++ ')' :: rest.toList := by simp
  rw [functionOfLine?_head nameChars, chars, annotatedParameters, if_neg (by decide),
    if_neg (by decide), if_neg (by decide), annotatedParameters_parameterList names annotated]

/-! ## Functions of the client module -/

/-- The function that an edit begins at the top of its module. -/
def definedFunction? : Edit → Option (String × List String)
  | .line text 0 => functionOfLine? text
  | _ => none

/-- The functions at the top of a module of some code, with their annotated parameters. -/
def definedFunctions (edits : List Edit) : List (String × List String) :=
  edits.filterMap definedFunction?

def requiredParameters (command : Command) : List Property :=
  command.parameters.filter fun property => !property.optional

/-- The function that builds the arguments of a command, with its parameters. -/
def argsFunction (domain : String) (command : Command) : String × List String :=
  (Naming.argsConstructorName domain command.name,
    (requiredParameters command).map fun property => Naming.attributeName property.name)

/-- The head of such a function, parted where the brackets of its parameters open and close. -/
theorem argsConstructorHead_eq (function parameters record : String) :
    "def " ++ function ++ "(" ++ parameters ++ ") -> commands." ++ record ++ ":" =
      "def " ++ function ++ "(" ++ (parameters ++ ")" ++ (" -> commands." ++ record ++ ":")) := by
  simp [← String.toList_inj]

section Functions

variable {index : TypeIndex} {runtimeModule typesPackage : String}

theorem definedFunctions_argsConstructor {domain : String} {command : Command} {edits : List Edit}
    (made : argsConstructor index typesPackage domain command = .ok edits) :
    definedFunctions edits = [argsFunction domain command] := by
  obtain ⟨fields, fieldsMade, finished⟩ := bind_eq_ok_iff.mp made
  cases finished
  let required := fields.filter fun field => !field.property.optional
  let parameters := required.map fun field => (field.memberName, field.annotation none)
  have names : ∀ parameter ∈ parameters, ∀ char ∈ parameter.1.toList, Naming.isNameChar char := by
    intro parameter member
    obtain ⟨field, inRequired, rfl⟩ := List.mem_map.mp member
    exact isNameChar_memberName_of_fieldsOf fieldsMade field (List.mem_filter.mp inRequired).1
  have annotated : ∀ parameter ∈ parameters, IsAnnotationText parameter.2 := by
    intro parameter member
    obtain ⟨field, inRequired, rfl⟩ := List.mem_map.mp member
    exact isAnnotationText_of_fieldsOf fieldsMade field (List.mem_filter.mp inRequired).1
  have bound : parameters.map Prod.fst =
      (requiredParameters command).map fun property => Naming.attributeName property.name := by
    have kept : required.map Field.property = requiredParameters command := by
      rw [requiredParameters, ← properties_of_fieldsOf fieldsMade, List.filter_map]
      rfl
    rw [← kept, List.map_map, List.map_map]
    exact List.map_congr_left fun field member =>
      memberName_of_fieldsOf fieldsMade field (List.mem_filter.mp member).1
  have head := functionOfLine?_parameterList (Naming.isNameChar_argsConstructorName domain command.name)
    names annotated (" -> commands." ++ Naming.argsName domain command.name ++ ":")
  have texts : ", ".intercalate (required.map fun field =>
      field.memberName ++ ": " ++ field.annotation none) = parameterList parameters := by
    rw [parameterList, List.map_map]
    rfl
  rw [argsConstructorEdits, argsConstructorHead_eq, texts, definedFunctions, List.filterMap_append,
    filterMap_requireModules fun _ _ => rfl]
  simp only [definedFunction?, List.filterMap_cons, List.filterMap_nil, head, List.nil_append]
  rw [argsFunction, bound]

theorem functionOfLine?_class (rest : String) : functionOfLine? ("class " ++ rest) = none := by
  have word : ∀ char ∈ "class".toList, Naming.isNameChar char := by decide
  have chars : ("class " ++ rest).toList = "class".toList ++ ' ' :: rest.toList := by simp
  rw [functionOfLine?, chars, dropWhile_word word (by decide), takeWhile_word word (by decide)]
  exact if_neg (by decide)

theorem definedFunctions_append (edits others : List Edit) :
    definedFunctions (edits ++ others) = definedFunctions edits ++ definedFunctions others :=
  List.filterMap_append

theorem definedFunctions_flatMap_eq_nil {Item : Type} {step : Item → List Edit}
    (none : ∀ item, definedFunctions (step item) = []) (items : List Item) :
    definedFunctions (items.flatMap step) = [] := by
  rw [definedFunctions, List.filterMap_flatMap, List.flatMap_eq_nil_iff]
  exact fun item _ => none item

theorem definedFunctions_capabilityEdits (domain : Domain) :
    definedFunctions (capabilityEdits domain) = [] := by
  rw [capabilityEdits, definedFunctions_append, definedFunctions_append,
    definedFunctions_flatMap_eq_nil fun _ => rfl, definedFunctions_flatMap_eq_nil fun _ => rfl]
  simp only [definedFunctions, definedFunction?, List.filterMap_cons, List.filterMap_nil,
    String.append_assoc, functionOfLine?_class, List.append_nil]

theorem definedFunctions_connectedEdits (domain : Domain) :
    definedFunctions (connectedEdits domain) = [] := by
  have commands (command : Command) :
      definedFunctions (commandMethodEdits domain.name command) = [] := by
    unfold commandMethodEdits
    dsimp only
    split <;> rfl
  rw [connectedEdits, definedFunctions_append, definedFunctions_append,
    definedFunctions_flatMap_eq_nil commands, definedFunctions_flatMap_eq_nil fun _ => rfl]
  simp only [definedFunctions, definedFunction?, List.filterMap_cons, List.filterMap_nil,
    String.append_assoc, functionOfLine?_class, List.append_nil]

theorem definedFunctions_streamEdits (domain : String) (event : Event) :
    definedFunctions (streamEdits runtimeModule domain event) = [] := by
  have head : functionOfLine? ("class _" ++ Naming.eventClientName domain event.name ++ "(events." ++
      Naming.eventClientName domain event.name ++ "):") = none := by
    have text : "class _" = "class " ++ "_" := rfl
    simp only [text, String.append_assoc, functionOfLine?_class]
  simp only [definedFunctions, streamEdits, definedFunction?, List.filterMap_cons, List.filterMap_nil,
    head]

theorem definedFunctions_domainClassEdits (domain : Domain) :
    definedFunctions (domainClassEdits runtimeModule domain) = [] := by
  have front : definedFunctions [.header (some clientHeading), .declare,
      .require "abc" ["ABC", "abstractmethod"]] = [] := rfl
  rw [domainClassEdits, definedFunctions_append, definedFunctions_append, definedFunctions_append,
    front, definedFunctions_capabilityEdits, definedFunctions_connectedEdits,
    definedFunctions_flatMap_eq_nil (definedFunctions_streamEdits domain.name)]
  rfl

theorem definedFunctions_clientClassEdits (domains : List Domain) :
    definedFunctions (clientClassEdits runtimeModule domains) = [] := by
  have setup : definedFunctions (clientSetup domains) = [] := by
    unfold clientSetup
    split
    · rfl
    · rw [definedFunctions, List.filterMap_map]
      exact List.filterMap_eq_nil_iff.mpr fun _ _ => rfl
  have head : functionOfLine? "class Client:" = none := by decide
  rw [clientClassEdits, definedFunctions_append, setup]
  simp only [definedFunctions, definedFunction?, List.filterMap_cons, List.filterMap_nil, head,
    List.append_nil]

/-- The functions at the top of the client module: one for each command with an optional parameter. -/
theorem definedFunctions_clientEdits {domains : List Domain} {edits : List Edit}
    (made : clientEdits index runtimeModule typesPackage domains = .ok edits) :
    definedFunctions edits = domains.flatMap fun domain =>
      (buildableCommands domain).map (argsFunction domain.name) := by
  have domain (domain : Domain) (body : List Edit)
      (bodyMade : domainEdits index runtimeModule typesPackage domain = .ok body) :
      definedFunctions body = (buildableCommands domain).map (argsFunction domain.name) := by
    rw [List.map_eq_flatMap, definedFunctions,
      filterMap_collectEdits bodyMade fun _ _ => definedFunctions_argsConstructor,
      ← definedFunctions, definedFunctions_domainClassEdits, List.nil_append]
  rw [definedFunctions, filterMap_collectEdits made domain, ← definedFunctions,
    definedFunctions_clientClassEdits, List.nil_append]

end Functions

end ProtocolGen.Emission
