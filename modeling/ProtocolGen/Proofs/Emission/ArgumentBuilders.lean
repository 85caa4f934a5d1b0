import ProtocolGen.Proofs.Emission.ClassCode
import ProtocolGen.Proofs.Emission.FieldViews

/-!
# Functions that build arguments, as their code has them

The functions at the top of the client module, each with its parameters, their annotations, the record
that it makes and what it passes to that. They match the records of arguments that have setters: a
function takes the fields of its record that have no default, and passes each under its own name.
-/

set_option autoImplicit false

namespace ProtocolGen.Emission

open ProtocolGen.Types ProtocolGen.Source

/-! ## Reading lines -/

/-- The name behind the start of a line, with what stands behind the bracket that opens after it. -/
def opening? (start line : String) : Option (String × String) :=
  (Text.afterStart? start.toList line.toList).bind (marked? "(")

/-- The entries that commas part in brackets, each of a name and what stands behind the mark after it. -/
def entriesIn (mark inside : String) : List (String × String) :=
  (parametersFrom 0 [] inside.toList).filterMap fun text => marked? mark (text.dropWhile (· == ' '))

/-- What a line says of a function: one begins with some parameters, or it returns a record that is
made with some keywords. -/
inductive BuilderPart where
  | head (name : String) (parameters : List (String × String))
  | result (record : String) (keywords : List (String × String))
  deriving DecidableEq, Repr

def builderPart? : Edit → Option BuilderPart
  | .line text 0 => (opening? "def " text).map fun (name, inside) => .head name (entriesIn ": " inside)
  | .line text 1 =>
    (opening? "return commands." text).map fun (name, inside) => .result name (entriesIn "=" inside)
  | _ => none

def builderParts (edits : List Edit) : List BuilderPart := edits.filterMap builderPart?

structure Builder where
  name : String
  parameters : List (String × String)
  record : String
  keywords : List (String × String)
  deriving DecidableEq, Repr

def Builder.parts (builder : Builder) : List BuilderPart :=
  [.head builder.name builder.parameters, .result builder.record builder.keywords]

/-- The functions that some parts make, each of a head and the result behind it. -/
def gatherBuilders : List BuilderPart → List Builder
  | .head name parameters :: .result record keywords :: rest =>
    ⟨name, parameters, record, keywords⟩ :: gatherBuilders rest
  | _ :: rest => gatherBuilders rest
  | [] => []

/-- The functions of some code that build records of arguments. -/
def builders (edits : List Edit) : List Builder := gatherBuilders (builderParts edits)

theorem gatherBuilders_parts (builders : List Builder) :
    gatherBuilders (builders.flatMap Builder.parts) = builders := by
  induction builders with
  | nil => rfl
  | cons builder builders ih =>
    rw [List.flatMap_cons, Builder.parts, List.cons_append, List.cons_append, List.nil_append,
      gatherBuilders, ih]

/-! ## Lines -/

theorem opening?_of_names {name : String} (names : ∀ char ∈ name.toList, Naming.isNameChar char)
    (start inside : String) : opening? start (start ++ name ++ "(" ++ inside) = some (name, inside) := by
  have parted : start ++ name ++ "(" ++ inside = start ++ (name ++ "(" ++ inside) := by
    simp only [String.append_assoc]
  rw [opening?, parted, String.toList_append, Text.afterStart?_append, Option.bind_some]
  exact marked?_of_names names rfl (by decide) inside

theorem opening?_eq_none {start line : String} (apart : start.toList.head? ≠ line.toList.head?)
    (notEmpty : start.toList ≠ []) : opening? start line = none := by
  have differs : Text.afterStart? start.toList line.toList = none := by
    cases spelled : start.toList with
    | nil => exact absurd spelled notEmpty
    | cons first more =>
      cases written : line.toList with
      | nil => rfl
      | cons other rest =>
        refine if_neg fun same => apart ?_
        rw [spelled, written, same]
        rfl
  rw [opening?, differs, Option.bind_none]

theorem builderPart?_class (rest : String) : builderPart? (.line ("class " ++ rest) 0) = none := by
  rw [builderPart?, opening?_eq_none (by simp) (by decide), Option.map_none]

theorem builderPart?_def (rest : String) : builderPart? (.line ("def " ++ rest) 1) = none := by
  rw [builderPart?, opening?_eq_none (by simp) (by decide), Option.map_none]

/-- Entries with a mark in each, as they stand in brackets. -/
def joinedEntries (mark : String) (entries : List (String × String)) : String :=
  ", ".intercalate (entries.map fun entry => entry.1 ++ mark ++ entry.2)

/-- Entries are read as they were joined. -/
theorem entriesIn_joined {mark : String} {first : Char} {more : List Char}
    (marks : mark.toList = first :: more) (outside : ¬ Naming.isNameChar first) (apart : first ≠ ' ')
    (wholeMark : IsWhole mark.toList) {entries : List (String × String)}
    (names : ∀ entry ∈ entries, ∀ char ∈ entry.1.toList, Naming.isNameChar char)
    (whole : ∀ entry ∈ entries, IsWhole entry.2.toList) (rest : String) :
    entriesIn mark (joinedEntries mark entries ++ ")" ++ rest) = entries := by
  let read (text : List Char) : Option (String × String) :=
    marked? mark (text.dropWhile (· == ' '))
  have chars : (joinedEntries mark entries ++ ")" ++ rest).toList =
      (joinedEntries mark entries).toList ++ ')' :: rest.toList := by simp
  have empty : read [] = none := by
    change (Text.afterStart? mark.toList []).map _ = none
    rw [marks]
    rfl
  have each : ∀ entry ∈ entries, read (entry.1 ++ mark ++ entry.2).toList = some entry := by
    intro entry member
    have begun : (entry.1 ++ mark ++ entry.2).toList.dropWhile (· == ' ') =
        (entry.1 ++ mark ++ entry.2).toList := by
      rw [String.toList_append, String.toList_append, marks]
      cases spelled : entry.1.toList with
      | nil => exact List.dropWhile_cons_of_neg (by simpa using apart)
      | cons letter letters =>
        refine List.dropWhile_cons_of_neg fun blank => ?_
        have isName := names entry member letter (by rw [spelled]; exact List.mem_cons_self)
        rw [eq_of_beq blank] at isName
        exact absurd isName (by decide)
    change marked? mark _ = some entry
    rw [begun]
    exact marked?_of_names (names entry member) marks outside entry.2
  have wholes : ∀ text ∈ entries.map fun entry => entry.1 ++ mark ++ entry.2,
      IsWhole text.toList := by
    intro text member
    obtain ⟨entry, inEntries, rfl⟩ := List.mem_map.mp member
    rw [String.toList_append, String.toList_append]
    exact ((isWhole_of_names (names entry inEntries)).append wholeMark).append
      (whole entry inEntries)
  rw [entriesIn, chars, joinedEntries,
    filterMap_parametersFrom empty (fun _ => rfl) (fun _ => rfl) wholes, List.filterMap_map]
  exact (List.filterMap_congr each).trans List.filterMap_some

section Entries

variable {name : String} {entries : List (String × String)}
  (nameChars : ∀ char ∈ name.toList, Naming.isNameChar char)
  (names : ∀ entry ∈ entries, ∀ char ∈ entry.1.toList, Naming.isNameChar char)
  (whole : ∀ entry ∈ entries, IsWhole entry.2.toList)

include nameChars names whole

theorem builderPart?_head (rest : String) :
    builderPart? (.line ("def " ++ name ++ "(" ++ (joinedEntries ": " entries ++ ")" ++ rest)) 0) =
      some (.head name entries) := by
  have read := @entriesIn_joined ": " _ _ rfl (by decide) (by decide) (isWhole_of_plain (by decide))
    entries names whole rest
  simp only [builderPart?, opening?_of_names nameChars, Option.map_some, read]

theorem builderPart?_result (rest : String) :
    builderPart? (.line ("return commands." ++ name ++ "(" ++
      (joinedEntries "=" entries ++ ")" ++ rest)) 1) = some (.result name entries) := by
  have read := @entriesIn_joined "=" _ _ rfl (by decide) (by decide) (isWhole_of_plain (by decide))
    entries names whole rest
  simp only [builderPart?, opening?_of_names nameChars, Option.map_some, read]

end Entries

theorem builderParts_append (edits others : List Edit) :
    builderParts (edits ++ others) = builderParts edits ++ builderParts others :=
  List.filterMap_append

theorem builderParts_function {head result : String} {first last : BuilderPart}
    (headPart : builderPart? (.line head 0) = some first)
    (resultPart : builderPart? (.line result 1) = some last) (documentation : List String) :
    builderParts [.blank 2, .line head 0, .docstring documentation 1, .line result 1] =
      [first, last] := by
  rw [builderParts, List.filterMap_cons_none rfl, List.filterMap_cons_some headPart,
    List.filterMap_cons_none rfl, List.filterMap_cons_some resultPart, List.filterMap_nil]

/-! ## Fields of arguments -/

/-- The fields of a class that have to be given when it is made. -/
def ClassCode.required (code : ClassCode) : List FieldCode :=
  code.fields.filter fun field => field.default?.isNone

/-- The function of a record that takes the fields without a default and passes each under its own
name. -/
structure Builds (builder : Builder) (code : ClassCode) : Prop where
  record : builder.record = code.name
  parameters : builder.parameters = code.required.map fun field => (field.name, field.annotation)
  keywords : builder.keywords = code.required.map fun field => (field.name, field.name)

section Arguments

variable {index : TypeIndex} {domain owner : String} {properties : List Property}
  {fields : List Field}

/-- In a module that is shared by all domains a type is written as an attribute of its module, so it has
the name of no class. -/
theorem annotation_ne_owner (names : ∀ char ∈ owner.toList, Naming.isNameChar char)
    (declared : Declared) : annotation none false (.record declared) ≠ owner := by
  intro same
  have dotted : '.' ∈ owner.toList := by
    rw [← same]
    simp [ annotation, quotedIf, qualifiedName, isOwn]
  exact absurd (names _ dotted) (by decide)

/-- So a required field there is never indirect, and it is what has no default. -/
theorem default?_eq_none_iff_required
    (made : fieldsOf index none domain owner properties = .ok fields)
    (names : ∀ char ∈ owner.toList, Naming.isNameChar char) :
    ∀ field ∈ fields, field.default? none = none ↔ ¬ field.property.optional := by
  intro field member
  obtain ⟨property, ref, -, rfl⟩ := exists_fieldOf_of_mem made member
  have notOwner : (isRecord ref && decide ( annotation none false ref = owner)) = false := by
    cases ref with
    | record declared => rw [decide_eq_false (annotation_ne_owner names declared), Bool.and_false]
    | primitive | any | map | array | enumeration | raw => simp only [isRecord, Bool.false_and]
    | _ declared meaning => simp only [isRecord, Bool.false_and]
  rw [default?_eq_none_iff]
  simp only [fieldOf, notOwner, Bool.or_false, Bool.not_eq_true]
  refine ⟨And.left, fun required => ⟨required, ?_⟩⟩
  rw [required, Bool.false_and]

/-- The function that builds the arguments of a command from the required ones. -/
def argsBuilder (index : TypeIndex) (domain : String) (command : Command) : Builder :=
  let name := Naming.argsName domain command.name
  let required := (sharedFields index domain name command.parameters).filter
    fun field => !field.property.optional
  ⟨Naming.argsConstructorName domain command.name,
    required.map fun field => (field.memberName, field.annotation none), name,
    required.map fun field => (field.memberName, field.memberName)⟩

theorem required_argsCode {command : Command}
    (made : fieldsOf index none domain (Naming.argsName domain command.name) command.parameters =
      .ok fields) :
    (argsCode index domain command).required =
      (fields.filter fun field => !field.property.optional).map Field.code := by
  rw [ClassCode.required, argsCode, sharedRecord, sharedFields_eq made, List.filter_map]
  refine congrArg (List.map Field.code) (List.filter_congr fun field member => ?_)
  have required := default?_eq_none_iff_required made (Naming.isNameChar_argsName _ _) field member
  rw [Function.comp_apply, Bool.eq_iff_iff, Option.isNone_iff_eq_none, Bool.not_eq_true',
    ← Bool.not_eq_true]
  exact required

end Arguments

section Client

variable {index : TypeIndex} {runtimeModule typesPackage domain : String} {edits : List Edit}

theorem builderParts_argsConstructor {command : Command}
    (made : argsConstructor index typesPackage domain command = .ok edits) :
    builderParts edits = (argsBuilder index domain command).parts := by
  obtain ⟨fields, fieldsMade, finished⟩ := bind_eq_ok_iff.mp made
  cases finished
  let required : List Field := fields.filter fun field => !field.property.optional
  have within : ∀ field ∈ required, field ∈ fields := fun _ member => (List.mem_filter.mp member).1
  have names : ∀ field ∈ required, ∀ char ∈ field.memberName.toList, Naming.isNameChar char :=
    fun field member => isNameChar_memberName_of_fieldsOf fieldsMade field (within field member)
  let parameters : List (String × String) :=
    required.map fun field => (field.memberName, field.annotation none)
  have head := builderPart?_head (Naming.isNameChar_argsConstructorName domain command.name)
    (List.forall_mem_map.mpr names : ∀ entry ∈ parameters, _)
    (List.forall_mem_map.mpr fun field member =>
      isWhole_annotation_of_fieldsOf fieldsMade none field (within field member))
    (" -> commands." ++ Naming.argsName domain command.name ++ ":")
  let keywords : List (String × String) :=
    required.map fun field => (field.memberName, field.memberName)
  have result := builderPart?_result (Naming.isNameChar_argsName domain command.name)
    (List.forall_mem_map.mpr names : ∀ entry ∈ keywords, _)
    (List.forall_mem_map.mpr fun field member => isWhole_of_names (names field member)) ""
  have entries : ", ".intercalate (required.map fun field =>
      field.memberName ++ ": " ++ field.annotation none) = joinedEntries ": " parameters := by
    rw [joinedEntries, List.map_map]
    rfl
  have resultLine : "return commands." ++ Naming.argsName domain command.name ++ "(" ++
        ", ".intercalate (required.map fun field => field.memberName ++ "=" ++ field.memberName) ++
        ")" =
      "return commands." ++ Naming.argsName domain command.name ++ "(" ++
        (joinedEntries "=" keywords ++ ")" ++ "") := by
    rw [joinedEntries, List.map_map]
    simp [← String.toList_inj, Function.comp_def]
  have modules (modules : List String) : builderParts (requireModules typesPackage modules) = [] :=
    filterMap_requireModules (fun _ _ => rfl) typesPackage modules
  have code : (argsBuilder index domain command).parts =
      [.head (Naming.argsConstructorName domain command.name) parameters,
        .result (Naming.argsName domain command.name) keywords] := by
    rw [argsBuilder, sharedFields_eq fieldsMade]
    rfl
  rw [argsConstructorEdits, argsConstructorHead_eq, entries, resultLine, builderParts_append, modules,
    builderParts_function head result, code, List.nil_append]

theorem builderParts_eq_nil {edits : List Edit} (quiet : ∀ edit ∈ edits, builderPart? edit = none) :
    builderParts edits = [] :=
  List.filterMap_eq_nil_iff.mpr quiet

theorem builderParts_flatMap_eq_nil {Item : Type} {step : Item → List Edit}
    (none : ∀ item, builderParts (step item) = []) (items : List Item) :
    builderParts (items.flatMap step) = [] := by
  rw [builderParts, List.filterMap_flatMap, List.flatMap_eq_nil_iff]
  exact fun item _ => none item

theorem builderPart?_commandSignature (domain : String) (command : Command) :
    builderPart? (.line (commandSignature domain command) 1) = none := by
  unfold commandSignature
  simp only [String.append_assoc, builderPart?_def]

theorem builderPart?_eventSignature (domain : String) (event : Event) :
    builderPart? (.line (eventSignature domain event) 1) = none := by
  unfold eventSignature
  simp only [String.append_assoc, builderPart?_def]

theorem builderParts_abstractMethodEdits {signature : String}
    (quiet : builderPart? (.line signature 1) = none) (module : String) (documentation : List String) :
    builderParts (.require "." [module] :: abstractMethodEdits signature documentation) = [] := by
  have decorator : builderPart? (.line "@abstractmethod" 1) = none := rfl
  rw [abstractMethodEdits, builderParts, List.filterMap_cons_none rfl, List.filterMap_cons_none rfl,
    List.filterMap_cons_none decorator, List.filterMap_cons_none quiet, List.filterMap_cons_none rfl,
    List.filterMap_nil]

theorem builderParts_capabilityEdits (domain : Domain) :
    builderParts (capabilityEdits domain) = [] := by
  have head : builderPart? (.line ("class " ++ Naming.domainClass domain.name ++ "(ABC):") 0) =
      none := by
    rw [String.append_assoc, builderPart?_class]
  rw [capabilityEdits, builderParts_append, builderParts_append,
    builderParts_flatMap_eq_nil fun command => builderParts_abstractMethodEdits
      (builderPart?_commandSignature domain.name command) _ _,
    builderParts_flatMap_eq_nil fun event => builderParts_abstractMethodEdits
      (builderPart?_eventSignature domain.name event) _ _,
    builderParts, List.filterMap_cons_none rfl, List.filterMap_cons_none head,
    List.filterMap_cons_none rfl, List.filterMap_nil]
  rfl

theorem builderParts_connectedEdits (domain : Domain) :
    builderParts (connectedEdits domain) = [] := by
  have commands (command : Command) :
      builderParts (commandMethodEdits domain.name command) = [] := by
    unfold commandMethodEdits
    dsimp only
    rw [builderParts_append, builderParts, List.filterMap_cons_none rfl,
      List.filterMap_cons_none (builderPart?_commandSignature domain.name command)]
    split <;> rfl
  have events (event : Event) : builderParts (eventMethodEdits domain.name event) = [] := by
    rw [eventMethodEdits, builderParts, List.filterMap_cons_none rfl,
      List.filterMap_cons_none (builderPart?_eventSignature domain.name event)]
    rfl
  have head : builderPart? (.line ("class " ++ Naming.domainClass domain.name ++ "Domain(" ++
      Naming.domainClass domain.name ++ "):") 0) = none := by
    simp only [String.append_assoc, builderPart?_class]
  have setUp : builderPart? (.line "def __init__(self, conn: Conn) -> None:" 1) = none :=
    builderPart?_def "__init__(self, conn: Conn) -> None:"
  rw [connectedEdits, builderParts_append, builderParts_append, builderParts_flatMap_eq_nil commands,
    builderParts_flatMap_eq_nil events, builderParts, List.filterMap_cons_none rfl,
    List.filterMap_cons_none head, List.filterMap_cons_none rfl, List.filterMap_cons_none rfl,
    List.filterMap_cons_none setUp]
  rfl

theorem builderParts_streamEdits (event : Event) :
    builderParts (streamEdits runtimeModule domain event) = [] := by
  have head : builderPart? (.line ("class _" ++ Naming.eventClientName domain event.name ++
      "(events." ++ Naming.eventClientName domain event.name ++ "):") 0) = none := by
    have text : "class _" = "class " ++ "_" := rfl
    simp only [text, String.append_assoc, builderPart?_class]
  have setUp : builderPart? (.line "def __init__(self, stream: Stream) -> None:" 1) = none :=
    builderPart?_def "__init__(self, stream: Stream) -> None:"
  have receive : builderPart? (.line ("def recv(self) -> events." ++
      Naming.replyName domain event.name ++ ":") 1) = none := by
    have text : "def recv(self) -> events." = "def " ++ "recv(self) -> events." := rfl
    simp only [text, String.append_assoc, builderPart?_def]
  have close : builderPart? (.line "def close(self) -> None:" 1) = none :=
    builderPart?_def "close(self) -> None:"
  refine builderParts_eq_nil ?_
  simp only [streamEdits, List.forall_mem_cons, head, setUp, receive, close, true_and]
  exact ⟨rfl, rfl, rfl, rfl, rfl, rfl, rfl, rfl, rfl, rfl, rfl, List.forall_mem_nil _⟩

theorem builderParts_domainClassEdits (domain : Domain) :
    builderParts (domainClassEdits runtimeModule domain) = [] := by
  have front : builderParts [.header (some clientHeading), .declare,
      .require "abc" ["ABC", "abstractmethod"]] = [] := rfl
  rw [domainClassEdits, builderParts_append, builderParts_append, builderParts_append, front,
    builderParts_capabilityEdits, builderParts_connectedEdits,
    builderParts_flatMap_eq_nil builderParts_streamEdits]
  rfl

theorem builderParts_clientClassEdits (domains : List Domain) :
    builderParts (clientClassEdits runtimeModule domains) = [] := by
  have setUp : builderParts (clientSetup domains) = [] := by
    unfold clientSetup
    split
    · rfl
    · rw [builderParts, List.filterMap_map]
      exact List.filterMap_eq_nil_iff.mpr fun _ _ => rfl
  have head : builderPart? (.line "class Client:" 0) = none := builderPart?_class "Client:"
  have method : builderPart? (.line "def __init__(self, conn: Conn) -> None:" 1) = none :=
    builderPart?_def "__init__(self, conn: Conn) -> None:"
  rw [clientClassEdits, builderParts_append, setUp, List.append_nil]
  refine builderParts_eq_nil ?_
  simp only [List.forall_mem_cons, head, method, true_and]
  exact ⟨rfl, rfl, rfl, rfl, rfl, rfl, List.forall_mem_nil _⟩

/-- The commands with optional parameters, each with the name of its domain. -/
def buildable (domains : List Domain) : List (String × Command) :=
  domains.flatMap fun domain => (buildableCommands domain).map fun command => (domain.name, command)

/-- The functions of the client module that build records: one for each command with an optional
parameter. -/
theorem builders_clientEdits {domains : List Domain}
    (made : clientEdits index runtimeModule typesPackage domains = .ok edits) :
    builders edits = (buildable domains).map fun command => argsBuilder index command.1 command.2 := by
  have ofDomain (domain : Domain) (body : List Edit)
      (bodyMade : domainEdits index runtimeModule typesPackage domain = .ok body) :
      builderParts body =
        ((buildableCommands domain).map (argsBuilder index domain.name)).flatMap Builder.parts := by
    rw [builderParts, filterMap_collectEdits bodyMade fun _ _ => builderParts_argsConstructor,
      ← builderParts, builderParts_domainClassEdits, List.nil_append, List.flatMap_map]
  rw [builders, builderParts, filterMap_collectEdits made ofDomain, ← builderParts,
    builderParts_clientClassEdits, List.nil_append, ← List.flatMap_assoc, gatherBuilders_parts,
    buildable, List.map_flatMap]
  simp only [List.map_map]
  rfl

end Client

section Records

variable {index : TypeIndex} {runtimeModule typesPackage : String} {edits : List Edit}
  {domains : List Domain}

/-- The classes of some code that have setters. -/
def settableClasses (edits : List Edit) : List ClassCode :=
  (classCodes edits).filter fun code => !code.setters.isEmpty

theorem settable_commandCodes (domain : String) (command : Command) :
    (commandCodes index domain command).filter (fun code => !code.setters.isEmpty) =
      if command.optionalParameters.isEmpty then [] else [argsCode index domain command] := by
  have settable : (argsCode index domain command).setters.isEmpty =
      command.optionalParameters.isEmpty := List.isEmpty_map
  have returns : (if command.returns.isEmpty then []
      else [sharedRecord index domain (Naming.replyName domain command.name) command.returns []]).filter
        (fun code => !code.setters.isEmpty) = [] := by
    split <;> rfl
  rw [commandCodes, List.filter_append, returns, List.append_nil]
  split
  · next empty =>
    rw [Command.optionalParameters, List.isEmpty_iff.mp empty]
    rfl
  · rw [List.filter_cons, settable]
    cases command.optionalParameters.isEmpty <;> rfl

/-- The records of the commands module that have setters: the arguments of each command with an optional
parameter. -/
theorem settableClasses_commandsEdits
    (made : commandsEdits index typesPackage domains = .ok edits) :
    settableClasses edits =
      (buildable domains).map fun command => argsCode index command.1 command.2 := by
  have ofCommands (domain : String) (commands : List Command) :
      (commands.flatMap (commandCodes index domain)).filter (fun code => !code.setters.isEmpty) =
        (commands.filter fun command => !command.optionalParameters.isEmpty).map
          (argsCode index domain) := by
    induction commands with
    | nil => rfl
    | cons command commands ih =>
      rw [List.flatMap_cons, List.filter_append, ih, settable_commandCodes, List.filter_cons]
      cases command.optionalParameters.isEmpty <;> rfl
  rw [settableClasses, classCodes_commandsEdits made, List.filter_cons_of_neg (by simp),
    List.filter_flatMap, buildable, List.map_flatMap]
  simp only [ofCommands, List.map_map]
  rfl

/-- The record of the arguments of a command: it has the name of that, a field for each parameter, and
one setter for each optional one. -/
structure HoldsArguments (domain : String) (command : Command) (code : ClassCode) : Prop where
  name : code.name = Naming.argsName domain command.name
  fields : code.fields.map FieldCode.name =
    command.parameters.map fun property => Naming.attributeName property.name
  setters : code.setters =
    command.optionalParameters.map fun property =>
      Naming.setterName (Naming.attributeName property.name)

section Buildable

variable {domain : String} {command : Command} {fields : List Field}
  (made : fieldsOf index none domain (Naming.argsName domain command.name) command.parameters =
    .ok fields)

include made

theorem holdsArguments_argsCode : HoldsArguments domain command (argsCode index domain command) where
  name := rfl
  fields := by
    rw [argsCode, sharedRecord, sharedFields_eq made, List.map_map, ← memberNames_of_fieldsOf made]
    rfl
  setters := rfl

theorem builds_argsBuilder :
    Builds (argsBuilder index domain command) (argsCode index domain command) where
  record := rfl
  parameters := by
    rw [required_argsCode made, argsBuilder, sharedFields_eq made, List.map_map]
    rfl
  keywords := by
    rw [required_argsCode made, argsBuilder, sharedFields_eq made, List.map_map]
    rfl

end Buildable

theorem exists_fieldsOf_of_mem_buildable
    (made : clientEdits index runtimeModule typesPackage domains = .ok edits) :
    ∀ command ∈ buildable domains, ∃ fields,
      fieldsOf index none command.1 (Naming.argsName command.1 command.2.name) command.2.parameters =
        .ok fields := by
  intro command member
  obtain ⟨domain, inDomains, inBuildable⟩ := List.mem_flatMap.mp member
  obtain ⟨command, inCommands, rfl⟩ := List.mem_map.mp inBuildable
  obtain ⟨body, bodyMade, -⟩ := exists_step_of_collectEdits made inDomains
  obtain ⟨function, functionMade, -⟩ := exists_step_of_collectEdits bodyMade inCommands
  obtain ⟨fields, fieldsMade, -⟩ := bind_eq_ok_iff.mp functionMade
  exact ⟨fields, fieldsMade⟩

end Records

end ProtocolGen.Emission
