import ProtocolGen.Emission.ClientModule
import ProtocolGen.Emission.EventsModule
import ProtocolGen.Proofs.Emission.Definitions
import ProtocolGen.Proofs.Emission.ModuleNames
import ProtocolGen.Proofs.Naming.Spelling

/-!
# Names at the top of the client module

What the client module imports and which classes it defines, read from its code. The classes are the
client and those of each domain. Of the names with a capital it imports `Conn` and, for its domains,
`ABC` and what the streams of events need; all the others are names of modules.
-/

set_option autoImplicit false

namespace ProtocolGen.Emission

open ProtocolGen.Types ProtocolGen.Source

/-- The names that an edit imports into its module. -/
def importsOf : Edit → List String
  | .require module [] => [module]
  | .require _ names => names
  | _ => []

/-- The names that are imported into a module of some code, which always has that of annotations. -/
def importedNames (edits : List Edit) : List String := "annotations" :: edits.flatMap importsOf

/-- The name of the class that a line begins, when it begins one. -/
def classOfLine? (line : String) : Option String :=
  if "class ".toList.isPrefixOf line.toList then
    some (String.ofList ((line.toList.drop "class ".toList.length).takeWhile Naming.isNameChar))
  else none

def definedClass? : Edit → Option String
  | .line text 0 => classOfLine? text
  | _ => none

/-- The classes that are defined at the top of a module of some code, in order. -/
def definedClasses (edits : List Edit) : List String := edits.filterMap definedClass?

/-! ## Classes -/

section Classes

variable {index : TypeIndex} {runtimeModule typesPackage : String}

theorem definedClasses_append (edits others : List Edit) :
    definedClasses (edits ++ others) = definedClasses edits ++ definedClasses others :=
  List.filterMap_append

theorem definedClasses_flatMap {Item : Type} {step : Item → List Edit} {classes : Item → List String}
    (one : ∀ item, definedClasses (step item) = classes item) (items : List Item) :
    definedClasses (items.flatMap step) = items.flatMap classes := by
  induction items with
  | nil => rfl
  | cons item items ih => rw [List.flatMap_cons, definedClasses_append, one, ih, List.flatMap_cons]

theorem definedClasses_flatMap_eq_nil {Item : Type} {step : Item → List Edit}
    (none : ∀ item, definedClasses (step item) = []) (items : List Item) :
    definedClasses (items.flatMap step) = [] := by
  rw [definedClasses_flatMap none, List.flatMap_eq_nil_iff]
  exact fun _ _ => rfl

theorem definedClasses_map_eq_nil {Item : Type} {step : Item → Edit}
    (none : ∀ item, definedClass? (step item) = none) (items : List Item) :
    definedClasses (items.map step) = [] := by
  rw [definedClasses, List.filterMap_map, List.filterMap_eq_nil_iff]
  exact fun item _ => none item

theorem definedClasses_collectEdits {Item : Type} {front : List Edit}
    {step : Item → Except Types.Failure (List Edit)} {items : List Item} {edits : List Edit}
    {classes : Item → List String} (made : collectEdits front step items = .ok edits)
    (one : ∀ item body, step item = .ok body → definedClasses body = classes item) :
    definedClasses edits = definedClasses front ++ items.flatMap classes :=
  filterMap_collectEdits made one

/-- The name in the head of a class ends where a character comes that stands in no name. -/
theorem classOfLine?_head {name tail : String} (names : ∀ char ∈ name.toList, Naming.isNameChar char)
    (ends : ¬ tail.toList.head?.any Naming.isNameChar) :
    classOfLine? ("class " ++ name ++ tail) = some name := by
  have behind : tail.toList.takeWhile Naming.isNameChar = [] := by
    cases chars : tail.toList with
    | nil => rfl
    | cons first rest =>
      rw [chars] at ends
      exact List.takeWhile_cons_of_neg ends
  have chars : ("class " ++ name ++ tail).toList = "class ".toList ++ (name.toList ++ tail.toList) := by
    rw [String.toList_append, String.toList_append, List.append_assoc]
  have head : "class ".toList.isPrefixOf ("class ".toList ++ (name.toList ++ tail.toList)) :=
    List.isPrefixOf_iff_prefix.mpr (List.prefix_append _ _)
  rw [classOfLine?, chars, if_pos head, List.drop_left, List.takeWhile_append_of_pos names, behind,
    List.append_nil, String.ofList_toList]

theorem definedClasses_requireModules (modules : List String) :
    definedClasses (requireModules typesPackage modules) = [] :=
  definedClasses_map_eq_nil (fun _ => rfl) modules

/-! ### Records and registries -/

theorem definedClasses_toDictEdits (fields : List Field) : definedClasses (toDictEdits fields) = [] := by
  have wire (field : Field) : definedClasses (toWireEdits field) = [] :=
    filterMap_toWireEdits (fun _ _ => rfl) field
  rw [toDictEdits, definedClasses_append, definedClasses_append, definedClasses_flatMap_eq_nil wire]
  rfl

theorem definedClasses_fromDictEdits (scope : Scope) (name : String) (fields : List Field) :
    definedClasses (fromDictEdits scope name fields) = [] := by
  have call : definedClasses (.line "return cls(" 2 :: fields.map fun field =>
      .line (field.memberName ++ "=" ++ field.fromWire scope ++ ",") 3) = [] :=
    (List.filterMap_cons_none rfl).trans (definedClasses_map_eq_nil (fun _ => rfl) fields)
  unfold fromDictEdits
  split
  · rfl
  · rw [definedClasses_append, definedClasses_append, call]
    rfl

theorem definedClasses_recordEdits {scope : Scope} {package name : String}
    {documentation : List String} {fields : List Field} {setters : List Edit}
    (names : ∀ char ∈ name.toList, Naming.isNameChar char) (inner : definedClasses setters = []) :
    definedClasses (recordEdits scope package name documentation fields setters) = [name] := by
  have head : classOfLine? ("class " ++ name ++ ":") = some name := classOfLine?_head names (by decide)
  have decorator : classOfLine? "@dataclasses.dataclass(kw_only=True)" = none := by decide
  have gap : definedClasses (if fields.isEmpty then [] else [.blank 1]) = [] := by
    split <;> rfl
  have members : definedClasses (fields.flatMap (fieldEdits scope)) = [] :=
    definedClasses_flatMap_eq_nil (fun _ => rfl) fields
  simp only [recordEdits, definedClasses_append, definedClasses_requireModules, gap, members, inner,
    definedClasses_toDictEdits, definedClasses_fromDictEdits, List.append_nil]
  simp only [definedClasses, definedClass?, List.filterMap_cons, List.filterMap_nil, head, decorator]

theorem definedClasses_registryEdits {heading className documentation : String}
    {entries : List (String × String)} (names : ∀ char ∈ className.toList, Naming.isNameChar char) :
    definedClasses (registryEdits heading className documentation entries) = [className] := by
  have head : classOfLine? ("class " ++ className ++ "(StrEnum):") = some className :=
    classOfLine?_head names (by decide)
  have gap : definedClasses (if entries.isEmpty then [] else [.blank 1]) = [] := by
    split <;> rfl
  rw [registryEdits, definedClasses_append, definedClasses_append, gap,
    definedClasses_map_eq_nil fun _ => rfl]
  simp only [definedClasses, definedClass?, List.filterMap_cons, List.filterMap_nil, head,
    List.append_nil]

/-- The classes of a command: that of its arguments and that of its return values, if it has any. -/
def commandClasses (domain : String) (command : Command) : List String :=
  (if command.parameters.isEmpty then [] else [Naming.argsName domain command.name]) ++
    if command.returns.isEmpty then [] else [Naming.replyName domain command.name]

theorem definedClasses_payload {domain name : String} {documentation : List String}
    {properties : List Property} {setters : List Field → List Edit} {edits : List Edit}
    (names : ∀ char ∈ name.toList, Naming.isNameChar char)
    (inner : ∀ fields, definedClasses (setters fields) = [])
    (code : PayloadCode index typesPackage domain name documentation properties setters edits) :
    definedClasses edits = if properties.isEmpty then [] else [name] := by
  cases code with
  | absent empty => exact (if_pos empty).symm
  | record given => rw [if_neg given, definedClasses_recordEdits names (inner _)]

theorem definedClasses_commandEdits {domain : String} {command : Command} {edits : List Edit}
    (made : commandEdits index typesPackage domain command = .ok edits) :
    definedClasses edits = commandClasses domain command := by
  obtain ⟨args, returns, rfl, argsPayload, returnsPayload⟩ := exists_payloads_of_commandEdits made
  have setters (owner : String) (fields : List Field) :
      definedClasses ((fields.filter Field.omitEmpty).flatMap (setterEdits none owner)) = [] :=
    definedClasses_flatMap_eq_nil (fun _ => rfl) _
  rw [definedClasses_append, commandClasses,
    definedClasses_payload (Naming.isNameChar_argsName _ _) (setters _) argsPayload,
    definedClasses_payload (Naming.isNameChar_replyName _ _) (fun _ => rfl) returnsPayload]

/-- The classes of the commands module are the registry and those of each command. -/
theorem definedClasses_commandsEdits {domains : List Domain} {edits : List Edit}
    (made : commandsEdits index typesPackage domains = .ok edits) :
    definedClasses edits = "CmdType" :: domains.flatMap fun domain =>
      domain.commands.flatMap (commandClasses domain.name) := by
  have registry : definedClasses (commandRegistryEdits domains) = ["CmdType"] :=
    definedClasses_registryEdits (by decide)
  rw [definedClasses_collectEdits made fun domain _ bodyMade =>
    definedClasses_collectEdits bodyMade fun _ _ => definedClasses_commandEdits, registry]
  rfl

def eventClasses (domain : String) (event : Event) : List String :=
  [Naming.eventClientName domain event.name, Naming.replyName domain event.name]

theorem definedClasses_receiverEdits (domain event : String) :
    definedClasses (receiverEdits domain event) = [Naming.eventClientName domain event] := by
  have head : classOfLine? ("class " ++ Naming.eventClientName domain event ++ "(ABC):") =
      some (Naming.eventClientName domain event) :=
    classOfLine?_head (Naming.isNameChar_eventClientName _ _) (by decide)
  simp only [receiverEdits, definedClasses, definedClass?, List.filterMap_cons, List.filterMap_nil,
    head]

theorem definedClasses_eventEdits {domain : String} {event : Event} {edits : List Edit}
    (made : eventEdits index typesPackage domain event = .ok edits) :
    definedClasses edits = eventClasses domain event := by
  obtain ⟨fields, -, finished⟩ := bind_eq_ok_iff.mp made
  cases finished
  rw [definedClasses_append, definedClasses_receiverEdits,
    definedClasses_recordEdits (Naming.isNameChar_replyName _ _) rfl]
  rfl

/-- The classes of the events module are the registry and those of each event. -/
theorem definedClasses_eventsEdits {domains : List Domain} {edits : List Edit}
    (made : eventsEdits index typesPackage domains = .ok edits) :
    definedClasses edits = "EventType" :: domains.flatMap fun domain =>
      domain.events.flatMap (eventClasses domain.name) := by
  have registry : definedClasses (eventRegistryEdits domains) = ["EventType"] :=
    definedClasses_registryEdits (by decide)
  rw [definedClasses_collectEdits made fun domain _ bodyMade =>
    definedClasses_collectEdits bodyMade fun _ _ => definedClasses_eventEdits, registry]
  rfl

/-! ### Domains -/

/-- The classes of a domain: the abstract one, the one behind it, and its events' receivers. -/
def classesOf (domain : Domain) : List String :=
  Naming.domainClass domain.name :: (Naming.domainClass domain.name ++ "Domain") ::
    domain.events.map fun event => "_" ++ Naming.eventClientName domain.name event.name

theorem definedClasses_capabilityEdits (domain : Domain) :
    definedClasses (capabilityEdits domain) = [Naming.domainClass domain.name] := by
  have head : classOfLine? ("class " ++ Naming.domainClass domain.name ++ "(ABC):") =
      some (Naming.domainClass domain.name) :=
    classOfLine?_head (fun _ => Naming.isNameChar_of_mem_domainClass) (by decide)
  rw [capabilityEdits, definedClasses_append, definedClasses_append,
    definedClasses_flatMap_eq_nil fun _ => rfl, definedClasses_flatMap_eq_nil fun _ => rfl]
  simp only [definedClasses, definedClass?, List.filterMap_cons, List.filterMap_nil, head,
    List.append_nil]

theorem definedClasses_commandMethodEdits (domain : String) (command : Command) :
    definedClasses (commandMethodEdits domain command) = [] := by
  unfold commandMethodEdits
  dsimp only
  split <;> rfl

theorem definedClasses_connectedEdits (domain : Domain) :
    definedClasses (connectedEdits domain) = [Naming.domainClass domain.name ++ "Domain"] := by
  have split : "class " ++ Naming.domainClass domain.name ++ "Domain(" ++
        Naming.domainClass domain.name ++ "):" =
      "class " ++ (Naming.domainClass domain.name ++ "Domain") ++
        ("(" ++ Naming.domainClass domain.name ++ "):") := by
    simp [← String.toList_inj]
  have names : ∀ char ∈ (Naming.domainClass domain.name ++ "Domain").toList,
      Naming.isNameChar char :=
    Naming.isNameChar_of_mem_append (fun _ => Naming.isNameChar_of_mem_domainClass) (by decide)
  have head : classOfLine? ("class " ++ (Naming.domainClass domain.name ++ "Domain") ++
        ("(" ++ Naming.domainClass domain.name ++ "):")) =
      some (Naming.domainClass domain.name ++ "Domain") :=
    classOfLine?_head names (by simp [String.toList_append]; decide)
  rw [connectedEdits, definedClasses_append, definedClasses_append,
    definedClasses_flatMap_eq_nil (definedClasses_commandMethodEdits domain.name),
    definedClasses_flatMap_eq_nil fun _ => rfl, split]
  simp only [definedClasses, definedClass?, List.filterMap_cons, List.filterMap_nil, head,
    List.append_nil]

theorem definedClasses_streamEdits (runtimeModule domain : String) (event : Event) :
    definedClasses (streamEdits runtimeModule domain event) =
      ["_" ++ Naming.eventClientName domain event.name] := by
  have split : "class _" ++ Naming.eventClientName domain event.name ++ "(events." ++
        Naming.eventClientName domain event.name ++ "):" =
      "class " ++ ("_" ++ Naming.eventClientName domain event.name) ++
        ("(events." ++ Naming.eventClientName domain event.name ++ "):") := by
    simp [← String.toList_inj]
  have names : ∀ char ∈ ("_" ++ Naming.eventClientName domain event.name).toList,
      Naming.isNameChar char :=
    Naming.isNameChar_of_mem_append (by decide) (Naming.isNameChar_eventClientName _ _)
  have head : classOfLine? ("class " ++ ("_" ++ Naming.eventClientName domain event.name) ++
        ("(events." ++ Naming.eventClientName domain event.name ++ "):")) =
      some ("_" ++ Naming.eventClientName domain event.name) :=
    classOfLine?_head names (by simp [String.toList_append]; decide)
  rw [streamEdits, split]
  simp only [definedClasses, definedClass?, List.filterMap_cons, List.filterMap_nil, head]

theorem definedClasses_domainClassEdits (domain : Domain) :
    definedClasses (domainClassEdits runtimeModule domain) = classesOf domain := by
  have front : definedClasses [.header (some clientHeading), .declare,
      .require "abc" ["ABC", "abstractmethod"]] = [] := rfl
  rw [domainClassEdits, definedClasses_append, definedClasses_append, definedClasses_append, front,
    definedClasses_capabilityEdits, definedClasses_connectedEdits,
    definedClasses_flatMap (definedClasses_streamEdits runtimeModule domain.name),
    ← List.map_eq_flatMap]
  rfl

theorem definedClasses_argsConstructor {domain : String} {command : Command} {edits : List Edit}
    (made : argsConstructor index typesPackage domain command = .ok edits) :
    definedClasses edits = [] := by
  obtain ⟨fields, -, finished⟩ := bind_eq_ok_iff.mp made
  cases finished
  have function (text : String) : classOfLine? ("def " ++ text) = none := by
    rw [classOfLine?, String.toList_append]
    exact if_neg (by simp)
  rw [argsConstructorEdits, definedClasses_append, definedClasses_requireModules]
  simp only [definedClasses, definedClass?, List.filterMap_cons, List.filterMap_nil,
    String.append_assoc, List.nil_append, function]

theorem definedClasses_domainEdits {domain : Domain} {edits : List Edit}
    (made : domainEdits index runtimeModule typesPackage domain = .ok edits) :
    definedClasses edits = classesOf domain := by
  rw [definedClasses_collectEdits made fun _ _ => definedClasses_argsConstructor,
    definedClasses_domainClassEdits, List.flatMap_eq_nil_iff.mpr fun _ _ => rfl, List.append_nil]

/-- The classes at the top of the client module are the client and those of each domain. -/
theorem definedClasses_clientEdits {domains : List Domain} {edits : List Edit}
    (made : clientEdits index runtimeModule typesPackage domains = .ok edits) :
    definedClasses edits = "Client" :: domains.flatMap classesOf := by
  have setup : definedClasses (clientSetup domains) = [] := by
    unfold clientSetup
    split
    · rfl
    · exact definedClasses_map_eq_nil (fun _ => rfl) domains
  have client : definedClasses (clientClassEdits runtimeModule domains) = ["Client"] := by
    rw [clientClassEdits, definedClasses_append, setup]
    rfl
  rw [definedClasses_collectEdits made fun _ _ => definedClasses_domainEdits, client]
  rfl

end Classes

/-! ## Imports -/

section Imports

variable {index : TypeIndex} {runtimeModule typesPackage name : String} {domain : Domain}
  {edits : List Edit}

theorem importsOf_requireModules (modules : List String) :
    (requireModules typesPackage modules).flatMap importsOf = modules := by
  rw [requireModules, List.flatMap_map]
  exact List.flatMap_singleton' modules

/-- The function that builds a command's arguments imports modules of domains. -/
theorem exists_moduleName_of_argsConstructor {command : Command}
    (made : argsConstructor index typesPackage domain.name command = .ok edits)
    (member : name ∈ edits.flatMap importsOf) : ∃ domain, name = Naming.moduleName domain := by
  obtain ⟨fields, -, finished⟩ := bind_eq_ok_iff.mp made
  cases finished
  rw [argsConstructorEdits, List.flatMap_append, importsOf_requireModules] at member
  simp only [importsOf, List.flatMap_cons, List.flatMap_nil, List.append_nil, List.mem_append,
    List.mem_flatMap] at member
  rcases member with ⟨field, -, own⟩ | ⟨field, -, annotated⟩
  · exact exists_moduleName_of_fieldModules own
  · exact exists_moduleName_of_annotationModules annotated

theorem importsOf_commandMethodEdits (command : Command) :
    (commandMethodEdits domain.name command).flatMap importsOf = [] := by
  unfold commandMethodEdits
  dsimp only
  split <;> rfl

/-- What the classes of a domain import, in the order of their code. -/
theorem importsOf_domainClassEdits : (domainClassEdits runtimeModule domain).flatMap importsOf =
    ["ABC", "abstractmethod"] ++ domain.commands.flatMap (fun _ => ["commands"]) ++
      domain.events.flatMap (fun _ => ["events"]) ++
      domain.events.flatMap (fun _ => ["EventDecodeError", "Stream"]) := by
  have methods : domain.commands.flatMap (fun command =>
      (commandMethodEdits domain.name command).flatMap importsOf) = [] :=
    List.flatMap_eq_nil_iff.mpr fun command _ => importsOf_commandMethodEdits command
  have receivers : domain.events.flatMap (fun event =>
      (eventMethodEdits domain.name event).flatMap importsOf) = [] :=
    List.flatMap_eq_nil_iff.mpr fun _ _ => rfl
  simp only [domainClassEdits, capabilityEdits, connectedEdits, List.flatMap_append,
    List.flatMap_assoc, methods, receivers]
  simp [importsOf, abstractMethodEdits, streamEdits]

theorem ne_of_hasCapital {known : String} (capital : Naming.HasCapital name)
    (small : ¬ Naming.HasCapital known) : name ≠ known := by
  rintro rfl
  exact small capital

theorem mem_importsOf_domainClassEdits_iff (capital : Naming.HasCapital name) :
    name ∈ (domainClassEdits runtimeModule domain).flatMap importsOf ↔
      name = "ABC" ∨ domain.events ≠ [] ∧ name ∈ ["EventDecodeError", "Stream"] := by
  have method : name ≠ "abstractmethod" := ne_of_hasCapital capital (by decide)
  have commands : name ≠ "commands" := ne_of_hasCapital capital (by decide)
  have events : name ≠ "events" := ne_of_hasCapital capital (by decide)
  have streams : name ∈ domain.events.flatMap (fun _ => ["EventDecodeError", "Stream"]) ↔
      domain.events ≠ [] ∧ name ∈ ["EventDecodeError", "Stream"] := by
    rw [List.mem_flatMap, exists_and_right, ← List.length_pos_iff_exists_mem, List.length_pos_iff]
  rw [importsOf_domainClassEdits, List.mem_append, List.mem_append, List.mem_append, streams]
  simp [method, commands, events]

theorem mem_importsOf_domainEdits_iff (capital : Naming.HasCapital name)
    (made : domainEdits index runtimeModule typesPackage domain = .ok edits) :
    name ∈ edits.flatMap importsOf ↔
      name = "ABC" ∨ domain.events ≠ [] ∧ name ∈ ["EventDecodeError", "Stream"] := by
  rw [mem_flatMap_collectEdits_iff made, mem_importsOf_domainClassEdits_iff capital]
  refine or_iff_left ?_
  rintro ⟨command, -, body, body_made, member⟩
  obtain ⟨other, rfl⟩ := exists_moduleName_of_argsConstructor body_made member
  exact Naming.not_hasCapital_moduleName other capital

/-- The names with a capital that the client module imports. -/
theorem mem_importedNames_clientEdits_iff {domains : List Domain} (capital : Naming.HasCapital name)
    (made : clientEdits index runtimeModule typesPackage domains = .ok edits) :
    name ∈ importedNames edits ↔ name = "Conn" ∨ domains ≠ [] ∧ name = "ABC" ∨
      (∃ domain ∈ domains, domain.events ≠ []) ∧ name ∈ ["EventDecodeError", "Stream"] := by
  have other : name ≠ "annotations" := ne_of_hasCapital capital (by decide)
  have setup : (clientSetup domains).flatMap importsOf = [] := by
    unfold clientSetup
    split
    · rfl
    · rw [List.flatMap_map]
      exact List.flatMap_eq_nil_iff.mpr fun _ _ => rfl
  have front : (clientClassEdits runtimeModule domains).flatMap importsOf = ["Conn"] := by
    rw [clientClassEdits, List.flatMap_append, setup]
    rfl
  have bodies : (∃ domain ∈ domains, ∃ body,
        domainEdits index runtimeModule typesPackage domain = .ok body ∧
          name ∈ body.flatMap importsOf) ↔
      ∃ domain ∈ domains,
        name = "ABC" ∨ domain.events ≠ [] ∧ name ∈ ["EventDecodeError", "Stream"] := by
    refine exists_congr fun domain => and_congr_right fun inDomains => ?_
    constructor
    · rintro ⟨body, body_made, member⟩
      exact (mem_importsOf_domainEdits_iff capital body_made).mp member
    · intro known
      obtain ⟨body, body_made, -⟩ := exists_step_of_collectEdits made inDomains
      exact ⟨body, body_made, (mem_importsOf_domainEdits_iff capital body_made).mpr known⟩
  rw [importedNames, List.mem_cons, or_iff_right other, mem_flatMap_collectEdits_iff made, front,
    List.mem_singleton, bodies]
  simp only [and_or_left, exists_or, ← and_assoc, exists_and_right,
    ← List.length_pos_iff_exists_mem, List.length_pos_iff]

end Imports

end ProtocolGen.Emission
