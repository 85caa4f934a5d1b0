import ProtocolGen.Package.Plan
import ProtocolGen.Proofs.Emission.MadeCode
import ProtocolGen.Proofs.Emission.NullFreeCode

/-!
# Texts that documentation shows

The texts of a protocol that generated code carries for a reader, unchanged but for white space and
escapes: the names of domains, commands and events, the descriptions of everything, the labels of
properties and the names of optional parameters. The documentation of a module has a null character
just where one of the texts that it shows has.
-/

set_option autoImplicit false

namespace ProtocolGen

open ProtocolGen.Source ProtocolGen.Types

/-! ## The texts of a protocol -/

def AllNullFree (texts : List String) : Prop := ∀ text ∈ texts, NullFree text

instance (texts : List String) : Decidable (AllNullFree texts) :=
  inferInstanceAs (Decidable (∀ text ∈ texts, NullFree text))

section Lists

variable {text : String} {texts others : List String}

@[simp] theorem allNullFree_nil : AllNullFree [] := List.forall_mem_nil _

@[simp] theorem allNullFree_cons : AllNullFree (text :: texts) ↔ NullFree text ∧ AllNullFree texts :=
  List.forall_mem_cons

@[simp] theorem allNullFree_append :
    AllNullFree (texts ++ others) ↔ AllNullFree texts ∧ AllNullFree others :=
  List.forall_mem_append

@[simp] theorem allNullFree_flatMap {Item : Type} {items : List Item} {texts : Item → List String} :
    AllNullFree (items.flatMap texts) ↔ ∀ item ∈ items, AllNullFree (texts item) := by
  simp only [AllNullFree, List.mem_flatMap]
  exact ⟨fun all item inItems text inTexts => all text ⟨item, inItems, inTexts⟩,
    fun each text ⟨item, inItems, inTexts⟩ => each item inItems text inTexts⟩

end Lists

def Property.shownTexts (property : Property) : List String :=
  property.expression.facets.description.toList ++ property.expression.labels?.getD []

/-- The texts of a declaration. Only a record shows those of its properties. -/
def TypeDeclaration.shownTexts (index : TypeIndex) (domain : String)
    (declaration : TypeDeclaration) : List String :=
  declaration.expression.facets.description.toList ++
    if (index.find? (keyOf domain declaration.id)).map TypeInfo.kind = some .record then
      declaration.propertyList.flatMap Property.shownTexts
    else []

def Command.shownTexts (command : Command) : List String :=
  command.name :: command.description.toList ++ command.parameters.flatMap Property.shownTexts ++
    command.optionalParameters.map Property.name ++ command.returns.flatMap Property.shownTexts

def Event.shownTexts (event : Event) : List String :=
  event.name :: event.description.toList ++ event.parameters.flatMap Property.shownTexts

def Domain.shownTexts (index : TypeIndex) (domain : Domain) : List String :=
  domain.name :: domain.description.toList ++
    domain.types.flatMap (TypeDeclaration.shownTexts index domain.name) ++
    domain.commands.flatMap Command.shownTexts ++ domain.events.flatMap Event.shownTexts

/-! ## Descriptions and notes -/

theorem nullFree_intercalate_iff {separator : String} {texts : List String}
    (free : NullFree separator) : NullFree (separator.intercalate texts) ↔ AllNullFree texts := by
  refine ⟨fun joined text member null => joined ?_, nullFree_intercalate free⟩
  rw [String.toList_intercalate, ← Text.joinWith_eq_intercalate]
  exact mem_joinWith_of_mem (List.mem_map_of_mem member) null

theorem nullFree_trimmed_iff (description : Option String) :
    NullFree (trimmed description) ↔ AllNullFree description.toList := by
  have trimmed_iff (text : String) :
      nullCharacter ∈ Text.trim text.toList ↔ nullCharacter ∈ text.toList := by
    refine ⟨fun member => ?_, mem_trim_of_mem solid_nullCharacter⟩
    rw [Text.trim, Text.trimEnd, Text.dropEndWhile_eq_rdropWhile] at member
    exact (List.dropWhile_suffix _).subset ((List.rdropWhile_prefix _ _).subset member)
  rw [trimmed, nullFree_ofList_iff, trimmed_iff]
  cases description with
  | none => exact iff_of_true (by decide) allNullFree_nil
  | some text => simp [NullFree]

@[simp] theorem nullFree_describe_iff (description : Option String) :
    NullFree (describe description) ↔ AllNullFree description.toList := by
  rw [← nullFree_trimmed_iff, describe]
  split
  · next empty =>
    rw [String.isEmpty_iff.mp empty]
    exact iff_of_true (by decide) (by decide)
  · rfl

theorem allNullFree_stateNotes {part : String} (free : NullFree part)
    (experimental deprecated : Bool) : AllNullFree (stateNotes part experimental deprecated) := by
  have note {before after : String} (first : NullFree before) (last : NullFree after) :
      NullFree (before ++ part ++ after) :=
    nullFree_append_iff.mpr ⟨nullFree_append_iff.mpr ⟨first, free⟩, last⟩
  unfold stateNotes
  rw [allNullFree_append]
  constructor
  · split
    · exact List.forall_mem_singleton.mpr
        (note (nullFree_literal (by decide)) (nullFree_literal (by decide)))
    · exact allNullFree_nil
  · split
    · exact List.forall_mem_singleton.mpr
        (note (nullFree_literal (by decide)) (nullFree_literal (by decide)))
    · exact allNullFree_nil

theorem allNullFree_property_notes_iff (property : Property) :
    AllNullFree property.notes ↔ AllNullFree (property.expression.labels?.getD []) := by
  have free : NullFree "property" := nullFree_literal (by decide)
  have state := allNullFree_stateNotes free property.experimental property.deprecated
  cases labels : property.expression.labels? with
  | none => simp [Property.notes, labels, state]
  | some labels' =>
    have quoted : AllNullFree (labels'.map fun label => "\"" ++ label ++ "\"") ↔
        AllNullFree labels' := by
      have quotes : NullFree "\"" := nullFree_literal (by decide)
      simp [AllNullFree, nullFree_append_iff, quotes]
    have fixed : NullFree "Values: " ∧ NullFree "." ∧ NullFree ", " := by simp (disch := decide)
    simp [Property.notes, labels, state, nullFree_append_iff, fixed,
      nullFree_intercalate_iff fixed.2.2, quoted]

namespace Emission

/-! ## The documentation of edits -/

section Edits

variable {edits others : List Edit}

@[simp] theorem documentationIsNullFree_nil : DocumentationIsNullFree [] :=
  List.forall_mem_nil _

@[simp] theorem documentationIsNullFree_cons (edit : Edit) :
    DocumentationIsNullFree (edit :: edits) ↔
      AllNullFree edit.documentation ∧ DocumentationIsNullFree edits :=
  List.forall_mem_cons

@[simp] theorem documentationIsNullFree_append :
    DocumentationIsNullFree (edits ++ others) ↔
      DocumentationIsNullFree edits ∧ DocumentationIsNullFree others :=
  List.forall_mem_append

@[simp] theorem documentationIsNullFree_flatMap {Item : Type} {items : List Item}
    {make : Item → List Edit} : DocumentationIsNullFree (items.flatMap make) ↔
      ∀ item ∈ items, DocumentationIsNullFree (make item) := by
  simp only [DocumentationIsNullFree, List.mem_flatMap]
  constructor
  · intro all item inItems edit inMade
    exact all edit ⟨item, inItems, inMade⟩
  · rintro each edit ⟨item, inItems, inMade⟩
    exact each item inItems edit inMade

/-- Edits without docstrings and comments show nothing. -/
theorem documentationIsNullFree_of_bare (bare : ∀ edit ∈ edits, edit.documentation = []) :
    DocumentationIsNullFree edits := by
  intro edit member
  rw [bare edit member]
  exact allNullFree_nil

theorem documentationIsNullFree_map_of_bare {Item : Type} {items : List Item} {make : Item → Edit}
    (bare : ∀ item ∈ items, (make item).documentation = []) :
    DocumentationIsNullFree (items.map make) :=
  documentationIsNullFree_of_bare (List.forall_mem_map.mpr bare)

@[simp] theorem documentationIsNullFree_requireModules (package : String) (modules : List String) :
    DocumentationIsNullFree (requireModules package modules) :=
  documentationIsNullFree_map_of_bare fun _ _ => rfl

/-- What each step shows is shown by what the steps are collected in. -/
theorem documentationIsNullFree_of_collectEdits {Item : Type} {front : List Edit}
    {step : Item → Except Types.Failure (List Edit)} {items : List Item} {shows : Item → Prop}
    (each : ∀ item ∈ items, ∀ body, step item = .ok body →
      (DocumentationIsNullFree body ↔ shows item))
    (made : collectEdits front step items = .ok edits) :
    DocumentationIsNullFree edits ↔
      DocumentationIsNullFree front ∧ ∀ item ∈ items, shows item := by
  obtain ⟨bodies, steps, finished⟩ := bind_eq_ok_iff.mp made
  cases finished
  have related := mapM_eq_ok_iff.mp steps
  rw [documentationIsNullFree_append, ← List.flatMap_id, documentationIsNullFree_flatMap]
  refine and_congr_right fun _ => ⟨fun all item inItems => ?_, fun all body inBodies => ?_⟩
  · obtain ⟨body, inBodies, step⟩ := exists_right_of_mem related inItems
    exact (each item inItems body step).mp (all body inBodies)
  · obtain ⟨item, inItems, step⟩ := exists_left_of_mem related inBodies
    exact (each item inItems body step).mpr (all item inItems)

end Edits

/-! ## Records -/

section Records

variable {index : TypeIndex} {scope : Scope} {fields : List Field}

/-- What the properties of a record show is what its fields show. -/
theorem shownTexts_of_fieldsOf {domain owner : String} {properties : List Property}
    (made : fieldsOf index scope domain owner properties = .ok fields) :
    AllNullFree (properties.flatMap Property.shownTexts) ↔
      ∀ field ∈ fields, AllNullFree field.property.shownTexts := by
  rw [allNullFree_flatMap, ← properties_of_fieldsOf made, List.forall_mem_map]

theorem documentation_fieldEdits (field : Field) :
    DocumentationIsNullFree (fieldEdits scope field) ↔ AllNullFree field.property.shownTexts := by
  simp [fieldEdits, Edit.documentation, Property.shownTexts, TypeExpression.describe,
    allNullFree_property_notes_iff]

theorem documentation_recordEdits (package name : String) (documentation : List String)
    (setters : List Edit) :
    DocumentationIsNullFree (recordEdits scope package name documentation fields setters) ↔
      AllNullFree documentation ∧ (∀ field ∈ fields, AllNullFree field.property.shownTexts) ∧
        DocumentationIsNullFree setters := by
  have gap : DocumentationIsNullFree (if fields = [] then [] else [.blank 1]) := by
    split <;> simp [Edit.documentation]
  have toDict : DocumentationIsNullFree (toDictEdits fields) := by
    have lines : ∀ field ∈ fields, DocumentationIsNullFree (toWireEdits field) := by
      refine fun field _ => documentationIsNullFree_of_bare fun edit member => ?_
      obtain ⟨text, indent, rfl⟩ := exists_line_of_mem_toWireEdits member
      rfl
    simpa [toDictEdits, Edit.documentation] using lines
  have fromDict : DocumentationIsNullFree (fromDictEdits scope name fields) := by
    have keywords : DocumentationIsNullFree (fields.map fun field =>
        .line (field.memberName ++ "=" ++ field.fromWire scope ++ ",") 3) :=
      documentationIsNullFree_map_of_bare fun _ _ => rfl
    unfold fromDictEdits
    split <;> simp [Edit.documentation, keywords]
  simp [recordEdits, Edit.documentation, gap, toDict, fromDict, documentation_fieldEdits]

end Records

/-! ## Types -/

section Types

variable {index : TypeIndex} {runtimeModule domain : String} {edits : List Edit}

theorem documentation_declarationEdits {declaration : TypeDeclaration}
    (made : declarationEdits index runtimeModule domain declaration = .ok edits) :
    DocumentationIsNullFree edits ↔ AllNullFree (declaration.shownTexts index domain) := by
  have notes : AllNullFree declaration.notes :=
    allNullFree_stateNotes (nullFree_literal (by decide)) declaration.experimental declaration.deprecated
  have own : AllNullFree (declaration.expression.describe :: declaration.notes) ↔
      AllNullFree declaration.expression.facets.description.toList := by
    simp [notes, TypeExpression.describe]
  cases declarationCode_of_declarationEdits made with
  | record kind fieldsMade =>
    rw [documentation_recordEdits, own, TypeDeclaration.shownTexts, if_pos kind,
      allNullFree_append, shownTexts_of_fieldsOf fieldsMade]
    simp
  | enumeration kind =>
    rw [TypeDeclaration.shownTexts, if_neg (by simp [kind]), List.append_nil, ← own,
      enumerationEdits, documentationIsNullFree_append,
      and_iff_left (documentationIsNullFree_map_of_bare fun _ _ => rfl)]
    simp [Edit.documentation]
  | raw kind =>
    rw [TypeDeclaration.shownTexts, if_neg (by simp [kind]), List.append_nil, ← own]
    simp [rawEdits, Edit.documentation]
  | typeAlias other =>
    rw [TypeDeclaration.shownTexts, if_neg other, List.append_nil, ← own]
    unfold aliasEdits
    dsimp only
    split <;> simp [Edit.documentation]

end Types

/-! ## Commands and events -/

section Commands

variable {index : TypeIndex} {typesPackage : String} {edits : List Edit}

theorem nullFree_wireName_iff {domain name : String} :
    NullFree (wireName domain name) ↔ NullFree domain ∧ NullFree name := by
  have dot : NullFree "." := nullFree_literal (by decide)
  simp [wireName, nullFree_append_iff, dot]

theorem documentation_registryEdits {heading className documentation : String}
    (entries : List (String × String)) (free : NullFree documentation) :
    DocumentationIsNullFree (registryEdits heading className documentation entries) := by
  unfold registryEdits
  refine documentationIsNullFree_append.mpr
    ⟨?_, documentationIsNullFree_map_of_bare fun _ _ => rfl⟩
  split <;> simp [Edit.documentation, free]

theorem documentation_setterEdits (owner : String) (field : Field) :
    DocumentationIsNullFree (setterEdits none owner field) ↔
      NullFree field.property.name ∧ AllNullFree field.property.shownTexts := by
  have fixed : NullFree "Set the optional " ∧ NullFree " argument." := by simp (disch := decide)
  simp [setterEdits, Edit.documentation, Property.shownTexts, TypeExpression.describe,
    allNullFree_property_notes_iff, nullFree_append_iff, fixed]

/-- The setters of a record show the names of its optional properties, beside what its fields show. -/
theorem documentation_setters {domain owner : String} {properties : List Property}
    {fields : List Field} (made : fieldsOf index none domain owner properties = .ok fields)
    (shown : ∀ field ∈ fields, AllNullFree field.property.shownTexts) :
    DocumentationIsNullFree ((fields.filter Field.omitEmpty).flatMap (setterEdits none owner)) ↔
      AllNullFree ((properties.filter Property.optional).map Property.name) := by
  have own : ∀ field ∈ fields.filter Field.omitEmpty, AllNullFree field.property.shownTexts :=
    fun field member => shown field (List.mem_filter.mp member).1
  rw [documentationIsNullFree_flatMap, ← optional_of_fieldsOf made, List.map_map, AllNullFree,
    List.forall_mem_map]
  refine forall₂_congr fun field member => ?_
  rw [documentation_setterEdits, and_iff_left (own field member)]
  rfl

/-- A record of properties shows what it is for and what they show, unless there are none. -/
theorem documentation_payload {domain name : String} {documentation : List String}
    {properties settable : List Property} {setters : List Field → List Edit} (bare : setters [] = [])
    (settersShow : ∀ fields, fieldsOf index none domain name properties = .ok fields →
      (∀ field ∈ fields, AllNullFree field.property.shownTexts) →
      (DocumentationIsNullFree (setters fields) ↔ AllNullFree (settable.map Property.name)))
    (code : PayloadCode index typesPackage domain name documentation properties setters edits) :
    DocumentationIsNullFree edits ↔ (properties ≠ [] → AllNullFree documentation) ∧
      AllNullFree (properties.flatMap Property.shownTexts) ∧
        AllNullFree (settable.map Property.name) := by
  cases code with
  | absent empty =>
    obtain rfl : properties = [] := List.isEmpty_iff.mp empty
    have settableFree : AllNullFree (settable.map Property.name) := by
      rw [← settersShow [] rfl (by simp), bare]
      exact documentationIsNullFree_nil
    simp [settableFree]
  | record given made =>
    have some : properties ≠ [] := fun empty => given (List.isEmpty_iff.mpr empty)
    rw [documentation_recordEdits, shownTexts_of_fieldsOf made, imp_iff_right some]
    exact and_congr_right fun _ => and_congr_right fun shown => settersShow _ made shown

/-- The texts that the records of a command show are free of null characters. -/
structure PayloadsAreNullFree (domain : String) (command : Command) : Prop where
  args : command.parameters ≠ [] → NullFree (wireName domain command.name)
  parameters : AllNullFree (command.parameters.flatMap Property.shownTexts)
  setters : AllNullFree (command.optionalParameters.map Property.name)
  reply : command.returns ≠ [] → NullFree (wireName domain command.name)
  returns : AllNullFree (command.returns.flatMap Property.shownTexts)

theorem documentation_commandEdits {domain : String} {command : Command}
    (made : commandEdits index typesPackage domain command = .ok edits) :
    DocumentationIsNullFree edits ↔ PayloadsAreNullFree domain command := by
  obtain ⟨args, returns, rfl, argsPayload, returnsPayload⟩ := exists_payloads_of_commandEdits made
  have fixed : NullFree "Arguments for " ∧ NullFree "Return values of " ∧ NullFree "." := by
    simp (disch := decide)
  have argsShown : AllNullFree ["Arguments for " ++ wireName domain command.name ++ "."] ↔
      NullFree (wireName domain command.name) := by simp [nullFree_append_iff, fixed]
  have returnsShown : AllNullFree ["Return values of " ++ wireName domain command.name ++ "."] ↔
      NullFree (wireName domain command.name) := by simp [nullFree_append_iff, fixed]
  have returnsSettable : AllNullFree (([] : List Property).map Property.name) := by simp
  rw [documentationIsNullFree_append,
    documentation_payload rfl (fun _ => documentation_setters) argsPayload, argsShown,
    documentation_payload rfl
      (fun _ _ _ => iff_of_true documentationIsNullFree_nil returnsSettable) returnsPayload,
    returnsShown]
  constructor
  · intro ⟨⟨args, parameters, setters⟩, reply, returns, _⟩
    exact ⟨args, parameters, setters, reply, returns⟩
  · intro shown
    exact ⟨⟨shown.args, shown.parameters, shown.setters⟩, shown.reply, shown.returns, returnsSettable⟩

theorem documentation_commandsEdits {domains : List Domain}
    (made : commandsEdits index typesPackage domains = .ok edits) :
    DocumentationIsNullFree edits ↔
      ∀ domain ∈ domains, ∀ command ∈ domain.commands, PayloadsAreNullFree domain.name command := by
  refine (documentationIsNullFree_of_collectEdits ?_ made).trans
    (and_iff_right (documentation_registryEdits _ (nullFree_literal (by decide))))
  intro domain _ edits made
  exact (documentationIsNullFree_of_collectEdits (fun _ _ _ => documentation_commandEdits) made).trans
    (and_iff_right documentationIsNullFree_nil)

theorem documentation_eventsEdits {domains : List Domain}
    (made : eventsEdits index typesPackage domains = .ok edits) :
    DocumentationIsNullFree edits ↔ ∀ domain ∈ domains, ∀ event ∈ domain.events,
      NullFree domain.name ∧ AllNullFree event.shownTexts := by
  refine (documentationIsNullFree_of_collectEdits ?_ made).trans
    (and_iff_right (documentation_registryEdits _ (nullFree_literal (by decide))))
  intro domain _ edits made
  refine (documentationIsNullFree_of_collectEdits ?_ made).trans
    (and_iff_right documentationIsNullFree_nil)
  intro event _ edits made
  obtain ⟨fields, fieldsMade, finished⟩ := bind_eq_ok_iff.mp made
  cases finished
  have notes : AllNullFree event.notes := allNullFree_stateNotes (nullFree_literal (by decide)) _ _
  have receiver : DocumentationIsNullFree (receiverEdits domain.name event.name) ↔
      NullFree (wireName domain.name event.name) := by
    simp (disch := decide) [receiverEdits, Edit.documentation, nullFree_append_iff]
  rw [documentationIsNullFree_append, documentation_recordEdits, receiver, nullFree_wireName_iff,
    Event.shownTexts, ← shownTexts_of_fieldsOf fieldsMade]
  simp [Event.describe, notes, and_assoc]

end Commands

/-! ## The client module -/

section Client

variable {index : TypeIndex} {runtimeModule typesPackage : String} {edits : List Edit}

/-- The texts of a domain that the client module shows. -/
structure FacadeIsNullFree (domain : Domain) : Prop where
  name : NullFree domain.name
  description : AllNullFree domain.description.toList
  commands : ∀ command ∈ domain.commands,
    NullFree command.name ∧ AllNullFree command.description.toList
  events : ∀ event ∈ domain.events, NullFree event.name ∧ AllNullFree event.description.toList

theorem documentation_capabilityEdits (domain : Domain) :
    DocumentationIsNullFree (capabilityEdits domain) ↔ FacadeIsNullFree domain := by
  have fixed : NullFree "The " ∧ NullFree " domain. " ∧ NullFree "Command " ∧ NullFree "Event " ∧
      NullFree "." := by simp (disch := decide)
  have notes : AllNullFree domain.notes := allNullFree_stateNotes (nullFree_literal (by decide)) _ _
  have commandNotes (command : Command) : AllNullFree command.notes :=
    allNullFree_stateNotes (nullFree_literal (by decide)) _ _
  have eventNotes (event : Event) : AllNullFree event.notes :=
    allNullFree_stateNotes (nullFree_literal (by decide)) _ _
  have parts : DocumentationIsNullFree (capabilityEdits domain) ↔
      ((NullFree domain.name ∧ AllNullFree domain.description.toList) ∧
        ∀ command ∈ domain.commands,
          NullFree command.name ∧ AllNullFree command.description.toList) ∧
        ∀ event ∈ domain.events, NullFree event.name ∧ AllNullFree event.description.toList := by
    simp [capabilityEdits, abstractMethodEdits, Edit.documentation, nullFree_append_iff, fixed, notes,
      commandNotes, eventNotes, Domain.describe, nullFree_trimmed_iff, Command.describe,
      Event.describe, and_assoc]
  rw [parts]
  exact ⟨fun ⟨⟨⟨name, description⟩, commands⟩, events⟩ => ⟨name, description, commands, events⟩,
    fun shown => ⟨⟨⟨shown.name, shown.description⟩, shown.commands⟩, shown.events⟩⟩

theorem documentation_connectedEdits (domain : Domain) :
    DocumentationIsNullFree (connectedEdits domain) := by
  have commands : ∀ command ∈ domain.commands,
      DocumentationIsNullFree (commandMethodEdits domain.name command) := by
    intro command _
    unfold commandMethodEdits
    dsimp only
    refine documentationIsNullFree_append.mpr ⟨by simp [Edit.documentation], ?_⟩
    split <;> simp [Edit.documentation]
  have events : ∀ event ∈ domain.events,
      DocumentationIsNullFree (eventMethodEdits domain.name event) := by
    intro event _
    simp [eventMethodEdits, Edit.documentation]
  have fixed : NullFree " implemented over a connection." := nullFree_literal (by decide)
  simpa [connectedEdits, Edit.documentation, nullFree_append_iff, fixed] using ⟨commands, events⟩

theorem documentation_argsConstructor {domain : String} {command : Command}
    (made : argsConstructor index typesPackage domain command = .ok edits) :
    DocumentationIsNullFree edits ↔ NullFree domain ∧ NullFree command.name := by
  obtain ⟨fields, -, finished⟩ := bind_eq_ok_iff.mp made
  cases finished
  have fixed : NullFree "Initialize the arguments for " ∧ NullFree "." ∧
      NullFree " with the required arguments." := by simp (disch := decide)
  simp [argsConstructorEdits, Edit.documentation, nullFree_append_iff, fixed]

theorem documentation_clientEdits {domains : List Domain}
    (made : clientEdits index runtimeModule typesPackage domains = .ok edits) :
    DocumentationIsNullFree edits ↔ ∀ domain ∈ domains, FacadeIsNullFree domain := by
  have setup : DocumentationIsNullFree (clientSetup domains) := by
    unfold clientSetup
    split
    · simp [Edit.documentation]
    · exact documentationIsNullFree_map_of_bare fun _ _ => rfl
  have client : DocumentationIsNullFree (clientClassEdits runtimeModule domains) := by
    refine documentationIsNullFree_append.mpr ⟨?_, setup⟩
    simp (disch := decide) [Edit.documentation]
  refine (documentationIsNullFree_of_collectEdits ?_ made).trans (and_iff_right client)
  intro domain _ edits made
  have streams : ∀ event ∈ domain.events,
      DocumentationIsNullFree (streamEdits runtimeModule domain.name event) := by
    intro event _
    simp [streamEdits, Edit.documentation]
  have front : DocumentationIsNullFree (domainClassEdits runtimeModule domain) ↔
      FacadeIsNullFree domain := by
    simpa [domainClassEdits, Edit.documentation, documentation_capabilityEdits,
      documentation_connectedEdits] using fun _ => streams
  refine (documentationIsNullFree_of_collectEdits
    (fun command _ edits => documentation_argsConstructor) made).trans ?_
  rw [front]
  refine and_iff_left_of_imp fun shown command member => ⟨shown.name, ?_⟩
  exact (shown.commands command (List.mem_filter.mp member).1).1

end Client

/-! ## All modules -/

/-- The documentation of the types module of a domain, behind its heading. -/
theorem documentation_typesEdits {index : TypeIndex} {runtimeModule : String} {domain : Domain}
    {edits : List Edit} (made : typesEdits index runtimeModule domain = .ok edits) :
    DocumentationIsNullFree edits ↔
      AllNullFree (domain.types.flatMap (TypeDeclaration.shownTexts index domain.name)) := by
  unfold typesEdits at made
  split at made
  · next empty =>
    cases made
    have none : domain.types = [] := by simpa using empty
    simp [none]
  · refine (documentationIsNullFree_of_collectEdits
      (fun declaration _ edits => documentation_declarationEdits) made).trans ?_
    simp [Edit.documentation]

theorem allNullFree_command_iff {domain : String} {command : Command} (free : NullFree domain) :
    AllNullFree command.shownTexts ↔
      (NullFree command.name ∧ AllNullFree command.description.toList) ∧
        PayloadsAreNullFree domain command := by
  rw [Command.shownTexts, allNullFree_append, allNullFree_append, allNullFree_append,
    allNullFree_cons]
  constructor
  · intro ⟨⟨⟨own, parameters⟩, setters⟩, returns⟩
    have wire : NullFree (wireName domain command.name) := nullFree_wireName_iff.mpr ⟨free, own.1⟩
    exact ⟨own, fun _ => wire, parameters, setters, fun _ => wire, returns⟩
  · intro ⟨own, payloads⟩
    exact ⟨⟨⟨own, payloads.parameters⟩, payloads.setters⟩, payloads.returns⟩

/-- The texts of a domain are what its modules show of it together. -/
theorem allNullFree_domain_iff {index : TypeIndex} {domain : Domain} :
    AllNullFree (domain.shownTexts index) ↔ FacadeIsNullFree domain ∧
      AllNullFree (domain.types.flatMap (TypeDeclaration.shownTexts index domain.name)) ∧
      (∀ command ∈ domain.commands, PayloadsAreNullFree domain.name command) ∧
      ∀ event ∈ domain.events, NullFree domain.name ∧ AllNullFree event.shownTexts := by
  have facade (event : Event) (shown : AllNullFree event.shownTexts) :
      NullFree event.name ∧ AllNullFree event.description.toList :=
    allNullFree_cons.mp (allNullFree_append.mp shown).1
  rw [Domain.shownTexts, allNullFree_append, allNullFree_append, allNullFree_append,
    allNullFree_cons, @allNullFree_flatMap _ domain.commands,
    @allNullFree_flatMap _ domain.events]
  constructor
  · intro ⟨⟨⟨⟨name, description⟩, types⟩, commands⟩, events⟩
    have command (command : Command) (member : command ∈ domain.commands) :=
      (allNullFree_command_iff name).mp (commands command member)
    exact ⟨⟨name, description, fun own member => (command own member).1,
        fun event member => facade event (events event member)⟩, types,
      fun own member => (command own member).2, fun event member => ⟨name, events event member⟩⟩
  · intro ⟨shown, types, payloads, events⟩
    exact ⟨⟨⟨⟨shown.name, shown.description⟩, types⟩,
        fun command member => (allNullFree_command_iff shown.name).mpr
          ⟨shown.commands command member, payloads command member⟩⟩,
      fun event member => (events event member).2⟩

end Emission

end ProtocolGen
