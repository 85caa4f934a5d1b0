import ProtocolGen.Package.Plan
import ProtocolGen.Proofs.Documentation.Classification

/-!
# Code without documentation

The code of generated modules with all docstrings and comments left out. It is the same for protocols
that differ in nothing but documentation: no field, default, import, setter or expression depends on
it.
-/

set_option autoImplicit false

namespace ProtocolGen.Emission

open ProtocolGen.Types ProtocolGen.Source

/-- Whether an edit only writes documentation. -/
def isDocumentation : Edit → Bool
  | .docstring .. | .comment .. => true
  | _ => false

def code (edits : List Edit) : List Edit := edits.filter fun edit => !isDocumentation edit

@[simp] theorem code_nil : code [] = [] := rfl

@[simp] theorem code_append (edits others : List Edit) :
    code (edits ++ others) = code edits ++ code others :=
  List.filter_append _ _

section Edits

variable (edits : List Edit)

@[simp] theorem code_header (docstring : Option String) :
    code (.header docstring :: edits) = .header docstring :: code edits := rfl

@[simp] theorem code_declare : code (.declare :: edits) = .declare :: code edits := rfl

@[simp] theorem code_require (module : String) (names : List String) :
    code (.require module names :: edits) = .require module names :: code edits := rfl

@[simp] theorem code_line (text : String) (indent : Nat) :
    code (.line text indent :: edits) = .line text indent :: code edits := rfl

@[simp] theorem code_blank (count : Nat) :
    code (.blank count :: edits) = .blank count :: code edits := rfl

@[simp] theorem code_docstring (texts : List String) (indent : Nat) :
    code (.docstring texts indent :: edits) = code edits := rfl

@[simp] theorem code_comment (texts : List String) (indent : Nat) (mark : String) :
    code (.comment texts indent mark :: edits) = code edits := rfl

end Edits

theorem code_flatten (bodies : List (List Edit)) :
    code bodies.flatten = (bodies.map code).flatten :=
  List.filter_flatten

theorem code_flatMap {Item : Type} (items : List Item) (make : Item → List Edit) :
    code (items.flatMap make) = items.flatMap fun item => code (make item) :=
  List.filter_flatMap

/-! ## Fields -/

def Field.undocumented (field : Field) : Field :=
  { field with property := field.property.undocumented }

namespace Field

variable (field : Field)

@[simp] theorem memberName_undocumented : field.undocumented.memberName = field.memberName := rfl

@[simp] theorem ref_undocumented : field.undocumented.ref = field.ref := rfl

@[simp] theorem indirect_undocumented : field.undocumented.indirect = field.indirect := rfl

@[simp] theorem omitEmpty_undocumented : field.undocumented.omitEmpty = field.omitEmpty := rfl

@[simp] theorem name_undocumented : field.undocumented.property.name = field.property.name := rfl

@[simp] theorem annotation_undocumented (scope : Scope) :
    field.undocumented.annotation scope = field.annotation scope := by
  simp only [Field.annotation, ref_undocumented, indirect_undocumented]
  rfl

@[simp] theorem modules_undocumented (scope : Scope) :
    field.undocumented.modules scope = field.modules scope := by
  simp only [modules, defaultModules, fromWireModules, decodesWire, ref_undocumented,
    indirect_undocumented, omitEmpty_undocumented]
  rfl

@[simp] theorem default?_undocumented (scope : Scope) :
    field.undocumented.default? scope = field.default? scope := by
  simp only [default?, ref_undocumented, indirect_undocumented, omitEmpty_undocumented]
  rfl

@[simp] theorem fromWire_undocumented (scope : Scope) :
    field.undocumented.fromWire scope = field.fromWire scope := by
  simp only [fromWire, wireItem, wireGet, key, ref_undocumented, indirect_undocumented,
    omitEmpty_undocumented, name_undocumented]
  rfl

end Field

theorem fieldsOf_undocumented (index : TypeIndex) (scope : Scope) (domain owner : String)
    (properties : List Property) :
    fieldsOf index.undocumented scope domain owner (properties.map Property.undocumented) =
      (fieldsOf index scope domain owner properties).map (List.map Field.undocumented) := by
  rw [fieldsOf, fieldsOf, map_mapM, List.mapM_map]
  congr 1
  funext property
  have resolved : index.undocumented.resolve domain (some property.undocumented.name)
      property.undocumented.expression = index.resolve domain (some property.name)
        property.expression :=
    resolve_congr (TypeExpression.undocumented_undocumented property.expression)
  rw [Function.comp_apply, resolved]
  cases index.resolve domain (some property.name) property.expression with
  | error failure => rfl
  | ok ref =>
    change Except.ok (fieldOf index.undocumented scope owner property.undocumented ref) = _
    rw [fieldOf, needsIndirection_undocumented]
    rfl

/-! ## Records -/

theorem toWireEdits_undocumented (field : Field) :
    toWireEdits field.undocumented = toWireEdits field := by
  simp only [toWireEdits, Field.key, Field.encoded, Field.place, Field.presence,
    Field.ref_undocumented, Field.indirect_undocumented, Field.omitEmpty_undocumented,
    Field.name_undocumented, Field.memberName_undocumented]
  rfl

section Records

variable (scope : Scope) (fields : List Field)

theorem toDictEdits_undocumented :
    toDictEdits (fields.map Field.undocumented) = toDictEdits fields := by
  simp only [toDictEdits, List.flatMap_map, toWireEdits_undocumented]

theorem fromDictEdits_undocumented (name : String) :
    fromDictEdits scope name (fields.map Field.undocumented) = fromDictEdits scope name fields := by
  simp only [fromDictEdits, List.isEmpty_map, List.map_map, Function.comp_def,
    Field.memberName_undocumented, Field.fromWire_undocumented]

theorem code_fieldEdits (field : Field) :
    code (fieldEdits scope field.undocumented) = code (fieldEdits scope field) := by
  simp [fieldEdits]

theorem code_recordEdits (package name : String) (documentation other : List String)
    {setters otherSetters : List Edit} (same : code setters = code otherSetters) :
    code (recordEdits scope package name documentation (fields.map Field.undocumented) setters) =
      code (recordEdits scope package name other fields otherSetters) := by
  simp [recordEdits, code_flatMap, List.flatMap_map, same, code_fieldEdits,
    toDictEdits_undocumented, fromDictEdits_undocumented]

end Records

/-! ## Steps that make edits -/

theorem code_pure {edits others : List Edit} (same : code edits = code others) :
    (pure edits : Except Types.Failure (List Edit)).map code =
      (pure others : Except Types.Failure (List Edit)).map code :=
  congrArg Except.ok same

theorem code_bind {Value : Type} {make otherMake : Value → List Edit}
    (made : Except Types.Failure Value) (same : ∀ value, code (make value) = code (otherMake value)) :
    (made >>= fun value => pure (make value)).map code =
      (made >>= fun value => pure (otherMake value)).map code := by
  cases made with
  | error failure => rfl
  | ok value => exact code_pure (same value)

/-- Edits that are made of fields with and without documentation have the same code. -/
theorem code_bind_fields {make otherMake : List Field → List Edit}
    (made : Except Types.Failure (List Field))
    (same : ∀ fields, code (make (fields.map Field.undocumented)) = code (otherMake fields)) :
    (made.map (List.map Field.undocumented) >>= fun fields => pure (make fields)).map code =
      (made >>= fun fields => pure (otherMake fields)).map code := by
  cases made with
  | error failure => rfl
  | ok fields => exact code_pure (same fields)

/-- Edits that are collected from steps with the same code have the same code. -/
theorem code_collectEdits {Item : Type} {front otherFront : List Edit}
    {step otherStep : Item → Except Types.Failure (List Edit)} {change : Item → Item}
    {items : List Item} (sameFront : code front = code otherFront)
    (sameStep : ∀ item, (step (change item)).map code = (otherStep item).map code) :
    (collectEdits front step (items.map change)).map code =
      (collectEdits otherFront otherStep items).map code := by
  have bodies : (items.mapM fun item => step (change item)).map (List.map code) =
      (items.mapM otherStep).map (List.map code) := by
    rw [map_mapM, map_mapM]
    simp only [sameStep]
  have collected (made : Except Types.Failure (List (List Edit))) (before : List Edit) :
      (made >>= fun bodies => pure (before ++ bodies.flatten)).map code =
        (made.map (List.map code)).map fun bodies => code before ++ bodies.flatten := by
    cases made with
    | error failure => rfl
    | ok bodies => exact congrArg Except.ok (by rw [code_append, code_flatten])
  rw [collectEdits, collectEdits, List.mapM_map, collected, collected, sameFront]
  exact congrArg _ bodies

/-! ## Types modules -/

section Modules

variable (index : TypeIndex) (runtimeModule typesPackage : String)

theorem enumeration_undescribed (expression : TypeExpression) :
    expression.undescribed.facets.enumeration = expression.facets.enumeration := by
  cases expression <;> rfl

theorem code_declarationEdits (domain : String) (declaration : TypeDeclaration) :
    (declarationEdits index.undocumented runtimeModule domain declaration.undocumented).map code =
      (declarationEdits index runtimeModule domain declaration).map code := by
  have kind : (index.undocumented.find? (keyOf domain declaration.id)).map TypeInfo.kind =
      (index.find? (keyOf domain declaration.id)).map TypeInfo.kind := by
    rw [find?_undocumented, Option.map_map]
    rfl
  have resolved := @resolve_congr index domain none _ _
    (TypeExpression.undocumented_undescribed declaration.expression)
  unfold declarationEdits
  dsimp only
  rw [TypeDeclaration.id_undocumented, kind, TypeDeclaration.expression_undocumented, resolved,
    enumeration_undescribed, TypeDeclaration.propertyList_undocumented, fieldsOf_undocumented]
  split
  · exact code_bind_fields _ fun fields => code_recordEdits _ fields _ _ _ _ rfl
  · exact code_pure (by simp [enumerationEdits])
  · exact code_pure (by simp [rawEdits])
  · exact code_bind _ fun target => by simp [aliasEdits]

theorem code_typesEdits (domain : Domain) :
    (typesEdits index.undocumented runtimeModule domain.undocumented).map code =
      (typesEdits index runtimeModule domain).map code := by
  rw [typesEdits, typesEdits, Domain.types_undocumented, Domain.name_undocumented,
    List.isEmpty_map]
  split
  · rfl
  · exact code_collectEdits rfl (code_declarationEdits index runtimeModule domain.name)

/-! ## The commands and events modules -/

theorem code_setterEdits (scope : Scope) (owner : String) (field : Field) :
    code (setterEdits scope owner field.undocumented) = code (setterEdits scope owner field) := by
  simp [setterEdits, Field.place]

theorem code_argsEdits (domain : String) (command : Command) :
    (argsEdits index.undocumented typesPackage domain command.undocumented).map code =
      (argsEdits index typesPackage domain command).map code := by
  have setters (owner : String) (fields : List Field) :
      code (((fields.map Field.undocumented).filter Field.omitEmpty).flatMap (setterEdits none owner)) =
        code ((fields.filter Field.omitEmpty).flatMap (setterEdits none owner)) := by
    rw [List.filter_map, code_flatMap, code_flatMap, List.flatMap_map]
    simp only [code_setterEdits]
    rfl
  unfold argsEdits
  dsimp only
  rw [Command.name_undocumented, Command.parameters_undocumented, List.isEmpty_map,
    fieldsOf_undocumented]
  split
  · rfl
  · exact code_bind_fields _ fun fields => code_recordEdits none fields _ _ _ _ (setters _ fields)

theorem code_returnsEdits (domain : String) (command : Command) :
    (returnsEdits index.undocumented typesPackage domain command.undocumented).map code =
      (returnsEdits index typesPackage domain command).map code := by
  unfold returnsEdits
  dsimp only
  rw [Command.name_undocumented, Command.returns_undocumented, List.isEmpty_map,
    fieldsOf_undocumented]
  split
  · rfl
  · exact code_bind_fields _ fun fields => code_recordEdits none fields _ _ _ _ rfl

theorem code_commandEdits (domain : String) (command : Command) :
    (commandEdits index.undocumented typesPackage domain command.undocumented).map code =
      (commandEdits index typesPackage domain command).map code := by
  have joined (args returns : Except Types.Failure (List Edit)) :
      (args >>= fun args => returns >>= fun returns => pure (args ++ returns)).map code =
        args.map code >>= fun args => returns.map code >>= fun returns => pure (args ++ returns) := by
    cases args with
    | error failure => rfl
    | ok args =>
      cases returns with
      | error failure => rfl
      | ok returns => exact congrArg Except.ok (code_append args returns)
  rw [commandEdits, commandEdits, joined, joined, code_argsEdits, code_returnsEdits]

theorem code_eventEdits (domain : String) (event : Event) :
    (eventEdits index.undocumented typesPackage domain event.undocumented).map code =
      (eventEdits index typesPackage domain event).map code := by
  unfold eventEdits
  dsimp only
  rw [Event.name_undocumented, Event.parameters_undocumented, fieldsOf_undocumented]
  refine code_bind_fields _ fun fields => ?_
  rw [code_append, code_append, code_recordEdits none fields _ _ _ _ rfl]

theorem commandRegistryEdits_undocumented (domains : List Domain) :
    commandRegistryEdits (domains.map Domain.undocumented) = commandRegistryEdits domains := by
  simp only [commandRegistryEdits, List.flatMap_map, Domain.undocumented, List.map_map]
  rfl

theorem eventRegistryEdits_undocumented (domains : List Domain) :
    eventRegistryEdits (domains.map Domain.undocumented) = eventRegistryEdits domains := by
  simp only [eventRegistryEdits, List.flatMap_map, Domain.undocumented, List.map_map]
  rfl

theorem code_commandsEdits (domains : List Domain) :
    (commandsEdits index.undocumented typesPackage (domains.map Domain.undocumented)).map code =
      (commandsEdits index typesPackage domains).map code := by
  rw [commandsEdits, commandsEdits, commandRegistryEdits_undocumented]
  exact code_collectEdits rfl fun domain =>
    code_collectEdits rfl (code_commandEdits index typesPackage domain.name)

theorem code_eventsEdits (domains : List Domain) :
    (eventsEdits index.undocumented typesPackage (domains.map Domain.undocumented)).map code =
      (eventsEdits index typesPackage domains).map code := by
  rw [eventsEdits, eventsEdits, eventRegistryEdits_undocumented]
  exact code_collectEdits rfl fun domain =>
    code_collectEdits rfl (code_eventEdits index typesPackage domain.name)

/-! ## The client module -/

theorem commandSignature_undocumented (domain : String) (command : Command) :
    commandSignature domain command.undocumented = commandSignature domain command := by
  rw [commandSignature, commandSignature, Command.name_undocumented,
    Command.parameters_undocumented, Command.returns_undocumented, List.isEmpty_map,
    List.isEmpty_map]

theorem commandMethodEdits_undocumented (domain : String) (command : Command) :
    commandMethodEdits domain command.undocumented = commandMethodEdits domain command := by
  rw [commandMethodEdits, commandMethodEdits, commandSignature_undocumented,
    Command.name_undocumented, Command.parameters_undocumented, Command.returns_undocumented,
    List.isEmpty_map, List.isEmpty_map]

theorem eventSignature_undocumented (domain : String) (event : Event) :
    eventSignature domain event.undocumented = eventSignature domain event := by
  rw [eventSignature, eventSignature, Event.name_undocumented]

theorem eventMethodEdits_undocumented (domain : String) (event : Event) :
    eventMethodEdits domain event.undocumented = eventMethodEdits domain event := by
  rw [eventMethodEdits, eventMethodEdits, eventSignature_undocumented, Event.name_undocumented]

theorem streamEdits_undocumented (domain : String) (event : Event) :
    streamEdits runtimeModule domain event.undocumented = streamEdits runtimeModule domain event := by
  rw [streamEdits, streamEdits, Event.name_undocumented]

section Domains

variable (domain : Domain)

theorem code_capabilityEdits :
    code (capabilityEdits domain.undocumented) = code (capabilityEdits domain) := by
  rw [capabilityEdits, capabilityEdits, Domain.name_undocumented, Domain.commands_undocumented,
    Domain.events_undocumented]
  simp only [code_append, code_flatMap, List.flatMap_map, code_require, abstractMethodEdits,
    code_blank, code_line, code_docstring, commandSignature_undocumented,
    eventSignature_undocumented]

theorem connectedEdits_undocumented :
    connectedEdits domain.undocumented = connectedEdits domain := by
  rw [connectedEdits, connectedEdits, Domain.name_undocumented, Domain.commands_undocumented,
    Domain.events_undocumented, List.flatMap_map, List.flatMap_map]
  simp only [commandMethodEdits_undocumented, eventMethodEdits_undocumented]

theorem code_domainClassEdits :
    code (domainClassEdits runtimeModule domain.undocumented) =
      code (domainClassEdits runtimeModule domain) := by
  rw [domainClassEdits, domainClassEdits, Domain.name_undocumented, Domain.events_undocumented,
    connectedEdits_undocumented, List.flatMap_map]
  simp only [code_append, code_capabilityEdits, streamEdits_undocumented]

theorem buildableCommands_undocumented :
    buildableCommands domain.undocumented =
      (buildableCommands domain).map Command.undocumented := by
  rw [buildableCommands, buildableCommands, Domain.commands_undocumented, List.filter_map]
  congr 2
  funext command
  change (!((command.parameters.map Property.undocumented).filter Property.optional).isEmpty) = _
  rw [List.filter_map, List.isEmpty_map]
  rfl

end Domains

theorem code_argsConstructorEdits (domain : String) (command : Command) (fields : List Field) :
    code (argsConstructorEdits typesPackage domain command.undocumented
      (fields.map Field.undocumented)) =
    code (argsConstructorEdits typesPackage domain command fields) := by
  have required : (fields.map Field.undocumented).filter (fun field => !field.property.optional) =
      (fields.filter fun field => !field.property.optional).map Field.undocumented := by
    rw [List.filter_map]
    rfl
  unfold argsConstructorEdits
  dsimp only
  rw [Command.name_undocumented, required]
  simp only [code_append, List.map_map, List.flatMap_map, Function.comp_def,
    Field.ref_undocumented, Field.memberName_undocumented, Field.annotation_undocumented,
    code_blank, code_line, code_docstring]

theorem code_argsConstructor (domain : String) (command : Command) :
    (argsConstructor index.undocumented typesPackage domain command.undocumented).map code =
      (argsConstructor index typesPackage domain command).map code := by
  rw [argsConstructor, argsConstructor, Command.name_undocumented, Command.parameters_undocumented,
    fieldsOf_undocumented]
  exact code_bind_fields _ fun fields => code_argsConstructorEdits typesPackage domain command fields

theorem code_domainEdits (domain : Domain) :
    (domainEdits index.undocumented runtimeModule typesPackage domain.undocumented).map code =
      (domainEdits index runtimeModule typesPackage domain).map code := by
  rw [domainEdits, domainEdits, buildableCommands_undocumented]
  exact code_collectEdits (code_domainClassEdits runtimeModule domain)
    (code_argsConstructor index typesPackage domain.name)

theorem code_clientEdits (domains : List Domain) :
    (clientEdits index.undocumented runtimeModule typesPackage
      (domains.map Domain.undocumented)).map code =
    (clientEdits index runtimeModule typesPackage domains).map code := by
  rw [clientEdits, clientEdits]
  refine code_collectEdits ?_ (code_domainEdits index runtimeModule typesPackage)
  have setup : clientSetup (domains.map Domain.undocumented) = clientSetup domains := by
    rw [clientSetup, clientSetup, List.isEmpty_map, List.map_map]
    rfl
  rw [clientClassEdits, clientClassEdits, setup]

end Modules

end ProtocolGen.Emission
