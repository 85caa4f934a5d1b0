import ProtocolGen.Emission.ClientModule
import ProtocolGen.Emission.EventsModule
import ProtocolGen.Emission.TypesModule
import ProtocolGen.Proofs.Emission.Definitions
import ProtocolGen.Proofs.Emission.ModuleNames
import ProtocolGen.Proofs.Naming.SafeNames
import ProtocolGen.Proofs.Source.ImportKeywords

/-!
# Modules that code asks for

Code takes names from the runtime, from the package of the types modules, from its own package and from
a few standard modules, and imports `dataclasses` as a whole. The names that it takes are fixed or those
of domains' modules, so that each of them may be imported.
-/

set_option autoImplicit false

namespace ProtocolGen

theorem Naming.isImportable_moduleName (domain : String) : Source.IsImportable (moduleName domain) := by
  have safe : IsSafeName (moduleName domain) := isSafeName_guardAmong _ _
  exact ⟨safe.identifier, fun keyword => safe.notKeyword (Source.isKeyword_iff.mp keyword)⟩

namespace Emission

open ProtocolGen.Types ProtocolGen.Source

/-! ## Edits -/

/-- The modules that code takes names from. -/
def sourceModules (runtimeModule typesPackage : String) : List String :=
  [runtimeModule, typesPackage, ".client", ".", "abc", "enum", "typing"]

/-- Whether an edit asks for what code may have: for `dataclasses` as a whole, or for names that may be
imported from one of some modules. -/
def AsksAmong (sources : List String) : Edit → Prop
  | .require module [] => module = "dataclasses"
  | .require module names => module ∈ sources ∧ ∀ name ∈ names, IsImportable name
  | _ => True

/-- Edits each of which asks for what code may have. -/
def AskAmong (sources : List String) (edits : List Edit) : Prop := ∀ edit ∈ edits, AsksAmong sources edit

section Edits

variable {sources : List String} {edits others : List Edit}

@[simp] theorem askAmong_nil : AskAmong sources [] := fun _ member => nomatch member

@[simp] theorem askAmong_cons (edit : Edit) :
    AskAmong sources (edit :: edits) ↔ AsksAmong sources edit ∧ AskAmong sources edits :=
  List.forall_mem_cons

@[simp] theorem askAmong_append :
    AskAmong sources (edits ++ others) ↔ AskAmong sources edits ∧ AskAmong sources others :=
  List.forall_mem_append

theorem askAmong_flatMap {Item : Type} {items : List Item} {make : Item → List Edit}
    (each : ∀ item, AskAmong sources (make item)) : AskAmong sources (items.flatMap make) := by
  intro edit member
  obtain ⟨item, -, inMade⟩ := List.mem_flatMap.mp member
  exact each item edit inMade

theorem askAmong_map {Item : Type} {items : List Item} {make : Item → Edit}
    (each : ∀ item ∈ items, AsksAmong sources (make item)) : AskAmong sources (items.map make) :=
  List.forall_mem_map.mpr each

theorem askAmong_of_collectEdits {Item : Type} {front : List Edit}
    {step : Item → Except Types.Failure (List Edit)} {items : List Item}
    (frontAsks : AskAmong sources front)
    (each : ∀ item edits, step item = .ok edits → AskAmong sources edits)
    (made : collectEdits front step items = .ok edits) : AskAmong sources edits := by
  intro edit member
  rcases (mem_collectEdits_iff made).mp member with inFront | ⟨item, -, body, bodyMade, inBody⟩
  · exact frontAsks edit inFront
  · exact each item body bodyMade edit inBody

theorem askAmong_requireModules {package : String} {modules : List String} (source : package ∈ sources)
    (known : ∀ module ∈ modules, ∃ domain, module = Naming.moduleName domain) :
    AskAmong sources (requireModules package modules) := by
  refine askAmong_map fun module member => ⟨source, List.forall_mem_singleton.mpr ?_⟩
  obtain ⟨domain, rfl⟩ := known module member
  exact Naming.isImportable_moduleName domain

theorem AskAmong.of_require {module : String} {names : List String} (among : AskAmong sources edits)
    (asked : .require module names ∈ edits) : names = [] ∧ module = "dataclasses" ∨
      names ≠ [] ∧ module ∈ sources ∧ ∀ name ∈ names, IsImportable name := by
  have asks := among _ asked
  cases names with
  | nil => exact .inl ⟨rfl, asks⟩
  | cons name names => exact .inr ⟨List.cons_ne_nil name names, asks⟩

end Edits

section Code

variable {index : TypeIndex} {runtimeModule typesPackage : String} {edits : List Edit}

/-! ## Records -/

section Records

variable {sources : List String} {scope : Scope} {fields : List Field}

theorem askAmong_toDictEdits : AskAmong sources (toDictEdits fields) := by
  have wire (field : Field) : AskAmong sources (toWireEdits field) := by
    intro edit member
    obtain ⟨text, indent, rfl⟩ := exists_line_of_mem_toWireEdits member
    trivial
  simp [toDictEdits, AsksAmong, askAmong_flatMap wire]

theorem askAmong_fromDictEdits {name : String} : AskAmong sources (fromDictEdits scope name fields) := by
  have keywords : AskAmong sources
      (fields.map fun field => .line (field.memberName ++ "=" ++ field.fromWire scope ++ ",") 3) :=
    askAmong_map fun _ _ => trivial
  unfold fromDictEdits
  split <;> simp [AsksAmong, keywords]

theorem askAmong_recordEdits {package name : String} {documentation : List String} {setters : List Edit}
    (source : package ∈ sources) (typing : "typing" ∈ sources) (settersAsk : AskAmong sources setters) :
    AskAmong sources (recordEdits scope package name documentation fields setters) := by
  have any : IsImportable "Any" := by decide
  have modules : AskAmong sources
      (requireModules package (fields.flatMap fun field => field.modules scope)) := by
    refine askAmong_requireModules source fun module member => ?_
    obtain ⟨field, -, inModules⟩ := List.mem_flatMap.mp member
    exact Field.exists_moduleName_of_modules inModules
  have gap : AskAmong sources (if fields = [] then [] else [.blank 1]) := by
    split <;> simp [AsksAmong]
  have lines : AskAmong sources (fields.flatMap (fieldEdits scope)) :=
    askAmong_flatMap fun field => by simp [fieldEdits, AsksAmong]
  simp [recordEdits, AsksAmong, typing, any, modules, gap, lines, settersAsk, askAmong_toDictEdits,
    askAmong_fromDictEdits]

end Records

/-! ## Types modules -/

theorem askAmong_enumerationEdits (name : String) (documentation labels : List String) :
    AskAmong (sourceModules runtimeModule typesPackage)
      (enumerationEdits runtimeModule name documentation labels) := by
  have base : IsImportable "WireEnum" := by decide
  refine askAmong_append.mpr ⟨?_, askAmong_map fun _ _ => trivial⟩
  simp [AsksAmong, sourceModules, base]

theorem askAmong_rawEdits (name : String) (documentation : List String) :
    AskAmong (sourceModules runtimeModule typesPackage) (rawEdits runtimeModule name documentation) := by
  have base : IsImportable "RawMessage" := by decide
  simp [rawEdits, AsksAmong, sourceModules, base]

theorem askAmong_aliasEdits {sources : List String} (sibling : siblingPackage ∈ sources)
    (typing : "typing" ∈ sources) (domain name : String) (documentation : List String)
    (target : TypeRef) : AskAmong sources (aliasEdits domain name documentation target) := by
  have names : IsImportable "TypeAlias" ∧ IsImportable "Any" := by decide
  have modules : AskAmong sources
      (requireModules siblingPackage (annotationModules (some domain) target)) :=
    askAmong_requireModules sibling fun _ => exists_moduleName_of_annotationModules
  unfold aliasEdits
  dsimp only
  split <;> simp [AsksAmong, modules, typing, names]

theorem askAmong_declarationEdits {domain : String} {declaration : TypeDeclaration}
    (made : declarationEdits index runtimeModule domain declaration = .ok edits) :
    AskAmong (sourceModules runtimeModule typesPackage) edits := by
  have sibling : siblingPackage ∈ sourceModules runtimeModule typesPackage := by
    simp [siblingPackage, sourceModules]
  have typing : "typing" ∈ sourceModules runtimeModule typesPackage := by simp [sourceModules]
  cases declarationCode_of_declarationEdits made with
  | record => exact askAmong_recordEdits sibling typing askAmong_nil
  | enumeration => exact askAmong_enumerationEdits _ _ _
  | raw => exact askAmong_rawEdits _ _
  | typeAlias => exact askAmong_aliasEdits sibling typing _ _ _ _

theorem askAmong_typesEdits {domain : Domain}
    (made : typesEdits index runtimeModule domain = .ok edits) :
    AskAmong (sourceModules runtimeModule typesPackage) edits := by
  unfold typesEdits at made
  split at made
  · cases made
    exact askAmong_nil
  · exact askAmong_of_collectEdits (by simp [AsksAmong]) (fun _ _ => askAmong_declarationEdits) made

/-! ## Commands and events -/

theorem askAmong_registryEdits (heading className documentation : String)
    (entries : List (String × String)) :
    AskAmong (sourceModules runtimeModule typesPackage)
      (registryEdits heading className documentation entries) := by
  have base : IsImportable "StrEnum" := by decide
  unfold registryEdits
  refine askAmong_append.mpr ⟨?_, askAmong_map fun _ _ => trivial⟩
  split <;> simp [AsksAmong, sourceModules, base]

/-- The record of a module that is shared by all domains. -/
theorem askAmong_sharedRecord {name : String} {documentation : List String} {fields : List Field}
    {setters : List Edit} (settersAsk : AskAmong (sourceModules runtimeModule typesPackage) setters) :
    AskAmong (sourceModules runtimeModule typesPackage)
      (recordEdits none typesPackage name documentation fields setters) :=
  askAmong_recordEdits (by simp [sourceModules]) (by simp [sourceModules]) settersAsk

theorem askAmong_payload {domain name : String} {documentation : List String}
    {properties : List Property} {setters : List Field → List Edit}
    (settersAsk : ∀ fields, AskAmong (sourceModules runtimeModule typesPackage) (setters fields))
    (code : PayloadCode index typesPackage domain name documentation properties setters edits) :
    AskAmong (sourceModules runtimeModule typesPackage) edits := by
  cases code with
  | absent => exact askAmong_nil
  | record => exact askAmong_sharedRecord (settersAsk _)

theorem askAmong_commandEdits {domain : String} {command : Command}
    (made : commandEdits index typesPackage domain command = .ok edits) :
    AskAmong (sourceModules runtimeModule typesPackage) edits := by
  obtain ⟨args, returns, rfl, argsPayload, returnsPayload⟩ := exists_payloads_of_commandEdits made
  have setters (owner : String) (fields : List Field) :
      AskAmong (sourceModules runtimeModule typesPackage)
        ((fields.filter Field.omitEmpty).flatMap (setterEdits none owner)) :=
    askAmong_flatMap fun field => by simp [setterEdits, AsksAmong]
  exact askAmong_append.mpr ⟨askAmong_payload (setters _) argsPayload,
    askAmong_payload (fun _ => askAmong_nil) returnsPayload⟩

theorem askAmong_commandsEdits {domains : List Domain}
    (made : commandsEdits index typesPackage domains = .ok edits) :
    AskAmong (sourceModules runtimeModule typesPackage) edits := by
  refine askAmong_of_collectEdits (askAmong_registryEdits _ _ _ _) ?_ made
  intro domain _ made
  exact askAmong_of_collectEdits askAmong_nil (fun _ _ => askAmong_commandEdits) made

theorem isImportable_abstract : IsImportable "ABC" ∧ IsImportable "abstractmethod" := by decide

theorem askAmong_eventsEdits {domains : List Domain}
    (made : eventsEdits index typesPackage domains = .ok edits) :
    AskAmong (sourceModules runtimeModule typesPackage) edits := by
  refine askAmong_of_collectEdits (askAmong_registryEdits _ _ _ _) ?_ made
  intro domain _ made
  refine askAmong_of_collectEdits askAmong_nil ?_ made
  intro event _ made
  obtain ⟨fields, -, finished⟩ := bind_eq_ok_iff.mp made
  cases finished
  refine askAmong_append.mpr ⟨?_, askAmong_sharedRecord askAmong_nil⟩
  simp [receiverEdits, AsksAmong, sourceModules, isImportable_abstract]

/-! ## The client module -/

theorem askAmong_clientClassEdits (domains : List Domain) :
    AskAmong (sourceModules runtimeModule typesPackage) (clientClassEdits runtimeModule domains) := by
  have base : IsImportable "Conn" := by decide
  refine askAmong_append.mpr ⟨by simp [AsksAmong, sourceModules, base], ?_⟩
  unfold clientSetup
  split
  · simp [AsksAmong]
  · exact askAmong_map fun _ _ => trivial

theorem askAmong_capabilityEdits (domain : Domain) :
    AskAmong (sourceModules runtimeModule typesPackage) (capabilityEdits domain) := by
  have names : IsImportable "commands" ∧ IsImportable "events" := by decide
  refine askAmong_append.mpr ⟨askAmong_append.mpr ⟨by simp [AsksAmong], ?_⟩, ?_⟩
  · refine askAmong_flatMap fun command => ?_
    simp [abstractMethodEdits, AsksAmong, sourceModules, names]
  · refine askAmong_flatMap fun event => ?_
    simp [abstractMethodEdits, AsksAmong, sourceModules, names]

theorem askAmong_connectedEdits {sources : List String} (domain : Domain) :
    AskAmong sources (connectedEdits domain) := by
  refine askAmong_append.mpr ⟨askAmong_append.mpr ⟨by simp [AsksAmong], ?_⟩, ?_⟩
  · refine askAmong_flatMap fun command => ?_
    unfold commandMethodEdits
    dsimp only
    split <;> simp [AsksAmong]
  · refine askAmong_flatMap fun event => ?_
    simp [eventMethodEdits, AsksAmong]

theorem askAmong_domainClassEdits (domain : Domain) :
    AskAmong (sourceModules runtimeModule typesPackage) (domainClassEdits runtimeModule domain) := by
  have names : IsImportable "EventDecodeError" ∧ IsImportable "Stream" := by decide
  refine askAmong_append.mpr ⟨askAmong_append.mpr ⟨askAmong_append.mpr ⟨?_,
    askAmong_capabilityEdits domain⟩, askAmong_connectedEdits domain⟩, askAmong_flatMap fun event => ?_⟩
  · simp [AsksAmong, sourceModules, isImportable_abstract]
  · simp [streamEdits, AsksAmong, sourceModules, names]

theorem askAmong_argsConstructor {domain : String} {command : Command}
    (made : argsConstructor index typesPackage domain command = .ok edits) :
    AskAmong (sourceModules runtimeModule typesPackage) edits := by
  obtain ⟨fields, -, finished⟩ := bind_eq_ok_iff.mp made
  cases finished
  refine askAmong_append.mpr ⟨askAmong_requireModules (by simp [sourceModules]) ?_, by simp [AsksAmong]⟩
  intro module member
  rcases List.mem_append.mp member with inFields | inRequired
  · obtain ⟨field, -, inModules⟩ := List.mem_flatMap.mp inFields
    exact exists_moduleName_of_fieldModules inModules
  · obtain ⟨field, -, inModules⟩ := List.mem_flatMap.mp inRequired
    exact exists_moduleName_of_annotationModules inModules

theorem askAmong_clientEdits {domains : List Domain}
    (made : clientEdits index runtimeModule typesPackage domains = .ok edits) :
    AskAmong (sourceModules runtimeModule typesPackage) edits := by
  refine askAmong_of_collectEdits (askAmong_clientClassEdits domains) ?_ made
  intro domain _ made
  exact askAmong_of_collectEdits (askAmong_domainClassEdits domain)
    (fun _ _ => askAmong_argsConstructor) made

end Code

end Emission

end ProtocolGen
