import ProtocolGen.Emission.ClientModule
import ProtocolGen.Emission.EventsModule
import ProtocolGen.Proofs.Emission.MadeCode
import ProtocolGen.Proofs.Emission.ModuleNames
import ProtocolGen.Proofs.Emission.NullFreeCode

/-!
# Modules whose code has no null characters

No line of code, no import and no mark of a comment in a planned module has a null character, so only
its documentation can bring one into its text.
-/

set_option autoImplicit false

namespace ProtocolGen.Emission

open ProtocolGen.Types ProtocolGen.Source

attribute [local simp] Edit.codeTexts

/-! ## Edits -/

section Edits

variable {edits others : List Edit}

@[simp] theorem codeIsNullFree_nil : CodeIsNullFree [] := fun _ member => nomatch member

@[simp] theorem codeIsNullFree_cons (edit : Edit) : CodeIsNullFree (edit :: edits) ↔
    (∀ text ∈ edit.codeTexts, NullFree text) ∧ CodeIsNullFree edits :=
  List.forall_mem_cons

@[simp] theorem codeIsNullFree_append :
    CodeIsNullFree (edits ++ others) ↔ CodeIsNullFree edits ∧ CodeIsNullFree others :=
  List.forall_mem_append

theorem codeIsNullFree_flatMap {Item : Type} {items : List Item} {make : Item → List Edit}
    (each : ∀ item ∈ items, CodeIsNullFree (make item)) : CodeIsNullFree (items.flatMap make) := by
  intro edit member
  obtain ⟨item, inItems, inMade⟩ := List.mem_flatMap.mp member
  exact each item inItems edit inMade

theorem codeIsNullFree_map {Item : Type} {items : List Item} {make : Item → Edit}
    (each : ∀ item ∈ items, ∀ text ∈ (make item).codeTexts, NullFree text) :
    CodeIsNullFree (items.map make) := by
  intro edit member
  obtain ⟨item, inItems, rfl⟩ := List.mem_map.mp member
  exact each item inItems

theorem codeIsNullFree_of_collectEdits {Item : Type} {front : List Edit}
    {step : Item → Except Types.Failure (List Edit)} {items : List Item}
    (frontFree : CodeIsNullFree front)
    (each : ∀ item ∈ items, ∀ edits, step item = .ok edits → CodeIsNullFree edits)
    (made : collectEdits front step items = .ok edits) : CodeIsNullFree edits := by
  obtain ⟨bodies, steps, finished⟩ := bind_eq_ok_iff.mp made
  cases finished
  refine codeIsNullFree_append.mpr ⟨frontFree, fun edit member => ?_⟩
  obtain ⟨body, inBodies, inBody⟩ := List.mem_flatten.mp member
  obtain ⟨item, inItems, step⟩ := exists_left_of_mem (mapM_eq_ok_iff.mp steps) inBodies
  exact each item inItems body step edit inBody

end Edits

/-! ## Records -/

section Records

variable {scope : Scope} {fields : List Field} (plain : ∀ field ∈ fields, field.IsPlain)

theorem codeIsNullFree_requireModules {package : String} {modules : List String}
    (packageFree : NullFree package)
    (known : ∀ module ∈ modules, ∃ domain, module = Naming.moduleName domain) :
    CodeIsNullFree (requireModules package modules) := by
  refine codeIsNullFree_map fun module member => ?_
  obtain ⟨domain, rfl⟩ := known module member
  simp [packageFree]

theorem codeIsNullFree_fieldEdits {field : Field} (plain : field.IsPlain) :
    CodeIsNullFree (fieldEdits scope field) := by
  have declared : NullFree (field.memberName ++ ": " ++ field.annotation scope) := by
    simp (disch := decide) [nullFree_append_iff, plain.memberName, plain.annotation scope]
  cases given : field.default? scope with
  | none => simp (disch := decide) [fieldEdits, given, declared]
  | some default =>
    simp (disch := decide) [fieldEdits, given, declared, nullFree_append_iff, plain.default? scope given]

theorem codeIsNullFree_toWireEdits {field : Field} (plain : field.IsPlain) :
    CodeIsNullFree (toWireEdits field) := by
  have assignment : NullFree ("data[" ++ field.key ++ "] = " ++ field.encoded) := by
    simp (disch := decide) [nullFree_append_iff, Field.key, plain.encoded]
  unfold toWireEdits
  dsimp only
  split
  · simp (disch := decide) [assignment, nullFree_append_iff, plain.presence]
  · split
    · simp (disch := decide) [assignment, nullFree_append_iff, plain.place]
    · simp [assignment]

include plain

theorem codeIsNullFree_toDictEdits : CodeIsNullFree (toDictEdits fields) := by
  have fieldsFree : CodeIsNullFree (fields.flatMap toWireEdits) :=
    codeIsNullFree_flatMap fun field member => codeIsNullFree_toWireEdits (plain field member)
  simp (disch := decide) [toDictEdits, fieldsFree]

theorem codeIsNullFree_fromDictEdits {name : String} (free : NullFree name) :
    CodeIsNullFree (fromDictEdits scope name fields) := by
  have keywords : CodeIsNullFree
      (fields.map fun field => .line (field.memberName ++ "=" ++ field.fromWire scope ++ ",") 3) := by
    refine codeIsNullFree_map fun field member => ?_
    simp (disch := decide) [nullFree_append_iff, (plain field member).memberName,
      (plain field member).fromWire scope]
  unfold fromDictEdits
  split <;> simp (disch := decide) [nullFree_append_iff, free, keywords]

theorem codeIsNullFree_recordEdits {package name : String} {documentation : List String}
    {setters : List Edit} (packageFree : NullFree package) (nameFree : NullFree name)
    (settersFree : CodeIsNullFree setters) :
    CodeIsNullFree (recordEdits scope package name documentation fields setters) := by
  have modules : CodeIsNullFree
      (requireModules package (fields.flatMap fun field => field.modules scope)) := by
    refine codeIsNullFree_requireModules packageFree fun module member => ?_
    obtain ⟨field, -, inModules⟩ := List.mem_flatMap.mp member
    exact Field.exists_moduleName_of_modules inModules
  have gap : CodeIsNullFree (if fields = [] then [] else [.blank 1]) := by
    split <;> simp
  have lines : CodeIsNullFree (fields.flatMap (fieldEdits scope)) :=
    codeIsNullFree_flatMap fun field member => codeIsNullFree_fieldEdits (plain field member)
  simp (disch := decide) [recordEdits, nullFree_append_iff, nameFree, modules, gap, lines,
    settersFree, codeIsNullFree_toDictEdits plain, codeIsNullFree_fromDictEdits plain nameFree]

end Records

/-! ## Modules -/

section Modules

variable {index : TypeIndex} {runtimeModule typesPackage : String} {edits : List Edit}

theorem codeIsNullFree_enumerationEdits {name : String} (documentation labels : List String)
    (runtimeFree : NullFree runtimeModule) (nameFree : NullFree name) :
    CodeIsNullFree (enumerationEdits runtimeModule name documentation labels) := by
  have values : NullFree (", ".intercalate (labels.map Text.literalOf)) := by
    refine nullFree_intercalate (nullFree_literal (by decide)) fun text member => ?_
    obtain ⟨label, -, rfl⟩ := List.mem_map.mp member
    exact nullFree_literalOf label
  have comma : NullFree (if labels.length = 1 then "," else "") := by split <;> decide
  refine codeIsNullFree_append.mpr ⟨?_, codeIsNullFree_map fun entry inMembers => ?_⟩
  · have unset : NullFree Naming.unsetMember := nullFree_literal (by decide)
    simp (disch := decide) [nullFree_append_iff, runtimeFree, nameFree, values, comma, unset]
  · have named := Naming.nullFree_enumMemberNames labels entry.1
      (List.fst_mem_of_mem_zipIdx inMembers)
    have ordinal := nullFree_toString entry.2
    rw [Nat.toString_eq_repr] at ordinal
    simp (disch := decide) [nullFree_append_iff, named, ordinal]

theorem codeIsNullFree_rawEdits {name : String} (documentation : List String)
    (runtimeFree : NullFree runtimeModule) (nameFree : NullFree name) :
    CodeIsNullFree (rawEdits runtimeModule name documentation) := by
  simp (disch := decide) [rawEdits, nullFree_append_iff, runtimeFree, nameFree]

theorem codeIsNullFree_aliasEdits {domain name : String} {target : TypeRef}
    (documentation : List String) (nameFree : NullFree name) (plain : IsPlainlyNamed target) :
    CodeIsNullFree (aliasEdits domain name documentation target) := by
  have written := nullFree_annotation (some domain) plain true
  have modules : CodeIsNullFree
      (requireModules siblingPackage (annotationModules (some domain) target)) :=
    codeIsNullFree_requireModules (nullFree_literal (by decide)) fun _ =>
      exists_moduleName_of_annotationModules
  unfold aliasEdits
  dsimp only
  split <;> simp (disch := decide) [nullFree_append_iff, nameFree, written, modules]

theorem codeIsNullFree_declarationEdits {domain : String} {declaration : TypeDeclaration}
    (runtimeFree : NullFree runtimeModule)
    (made : declarationEdits index runtimeModule domain declaration = .ok edits) :
    CodeIsNullFree edits := by
  have name := Naming.nullFree_className declaration.id
  cases declarationCode_of_declarationEdits made with
  | record kind fieldsMade =>
    exact codeIsNullFree_recordEdits (isPlain_of_fieldsOf fieldsMade) (nullFree_literal (by decide)) name
      codeIsNullFree_nil
  | enumeration => exact codeIsNullFree_enumerationEdits _ _ runtimeFree name
  | raw => exact codeIsNullFree_rawEdits _ runtimeFree name
  | typeAlias other resolved =>
    exact codeIsNullFree_aliasEdits _ name (isPlainlyNamed_of_resolve resolved)

theorem codeIsNullFree_typesEdits {domain : Domain} (runtimeFree : NullFree runtimeModule)
    (made : typesEdits index runtimeModule domain = .ok edits) : CodeIsNullFree edits := by
  unfold typesEdits at made
  split at made
  · cases made
    exact codeIsNullFree_nil
  · refine codeIsNullFree_of_collectEdits (by simp) ?_ made
    exact fun declaration _ edits => codeIsNullFree_declarationEdits runtimeFree

theorem codeIsNullFree_registryEdits {heading className documentation : String}
    (entries : List (String × String)) (classFree : NullFree className) :
    CodeIsNullFree (registryEdits heading className documentation entries) := by
  unfold registryEdits
  refine codeIsNullFree_append.mpr ⟨?_, codeIsNullFree_map fun entry _ => ?_⟩
  · split <;> simp (disch := decide) [nullFree_append_iff, classFree]
  · simp (disch := decide) [nullFree_append_iff]

theorem codeIsNullFree_setterEdits {owner : String} {field : Field} (plain : field.IsPlain)
    (ownerFree : NullFree owner) : CodeIsNullFree (setterEdits none owner field) := by
  have trimmed : NullFree (withoutEndLowLines field.memberName) := by
    rw [withoutEndLowLines, nullFree_ofList_iff]
    intro null
    exact plain.memberName ((Naming.dropEndWhile_isPrefix _ _).subset null)
  simp (disch := decide) [setterEdits, nullFree_append_iff, plain.memberName, trimmed,
    nullFree_annotation none plain.ref, ownerFree, plain.place]

theorem codeIsNullFree_payload {domain name : String} {documentation : List String}
    {properties : List Property} {setters : List Field → List Edit}
    (packageFree : NullFree typesPackage) (nameFree : NullFree name)
    (settersFree : ∀ fields : List Field, (∀ field ∈ fields, field.IsPlain) →
      CodeIsNullFree (setters fields))
    (code : PayloadCode index typesPackage domain name documentation properties setters edits) :
    CodeIsNullFree edits := by
  cases code with
  | absent => exact codeIsNullFree_nil
  | record given fieldsMade =>
    have plain := isPlain_of_fieldsOf fieldsMade
    exact codeIsNullFree_recordEdits plain packageFree nameFree (settersFree _ plain)

theorem codeIsNullFree_commandEdits {domain : String} {command : Command}
    (packageFree : NullFree typesPackage)
    (made : commandEdits index typesPackage domain command = .ok edits) : CodeIsNullFree edits := by
  obtain ⟨args, returns, rfl, argsPayload, returnsPayload⟩ := exists_payloads_of_commandEdits made
  have argsFree := Naming.nullFree_argsName domain command.name
  have replyFree := Naming.nullFree_replyName domain command.name
  refine codeIsNullFree_append.mpr ⟨?_, ?_⟩
  · exact codeIsNullFree_payload packageFree argsFree (fun fields plain =>
      codeIsNullFree_flatMap fun field member =>
        codeIsNullFree_setterEdits (plain field (List.mem_filter.mp member).1) argsFree) argsPayload
  · exact codeIsNullFree_payload packageFree replyFree (fun _ _ => codeIsNullFree_nil) returnsPayload

theorem codeIsNullFree_commandsEdits {domains : List Domain} (packageFree : NullFree typesPackage)
    (made : commandsEdits index typesPackage domains = .ok edits) : CodeIsNullFree edits := by
  refine codeIsNullFree_of_collectEdits
    (codeIsNullFree_registryEdits _ (nullFree_literal (by decide))) ?_ made
  intro domain _ edits made
  exact codeIsNullFree_of_collectEdits codeIsNullFree_nil
    (fun _ _ _ => codeIsNullFree_commandEdits packageFree) made

theorem codeIsNullFree_eventsEdits {domains : List Domain} (packageFree : NullFree typesPackage)
    (made : eventsEdits index typesPackage domains = .ok edits) : CodeIsNullFree edits := by
  refine codeIsNullFree_of_collectEdits
    (codeIsNullFree_registryEdits _ (nullFree_literal (by decide))) ?_ made
  intro domain _ edits made
  refine codeIsNullFree_of_collectEdits codeIsNullFree_nil ?_ made
  intro event _ edits made
  obtain ⟨fields, fieldsMade, finished⟩ := bind_eq_ok_iff.mp made
  cases finished
  have receiver : CodeIsNullFree (receiverEdits domain.name event.name) := by
    simp (disch := decide) [receiverEdits, nullFree_append_iff]
  exact codeIsNullFree_append.mpr ⟨receiver, codeIsNullFree_recordEdits
    (isPlain_of_fieldsOf fieldsMade) packageFree (Naming.nullFree_replyName _ _) codeIsNullFree_nil⟩

/-! ### The client module -/

section Client

variable (domain : Domain)

theorem nullFree_commandSignature (command : Command) :
    NullFree (commandSignature domain.name command) := by
  have args : NullFree (if command.parameters.isEmpty then ""
      else ", args: commands." ++ Naming.argsName domain.name command.name) := by
    split <;> simp (disch := decide) [nullFree_append_iff]
  have reply : NullFree (if command.returns.isEmpty then "None"
      else "commands." ++ Naming.replyName domain.name command.name) := by
    split <;> simp (disch := decide) [nullFree_append_iff]
  simp only [commandSignature, nullFree_append_iff, args, reply, Naming.nullFree_attributeName]
  decide

theorem nullFree_eventSignature (event : Event) : NullFree (eventSignature domain.name event) := by
  simp (disch := decide) [eventSignature, nullFree_append_iff]

theorem codeIsNullFree_clientSetup (domains : List Domain) : CodeIsNullFree (clientSetup domains) := by
  unfold clientSetup
  split
  · simp (disch := decide)
  · refine codeIsNullFree_map fun domain _ => ?_
    simp (disch := decide) [nullFree_append_iff]

theorem codeIsNullFree_capabilityEdits : CodeIsNullFree (capabilityEdits domain) := by
  have method {signature : String} (free : NullFree signature) (module : String)
      (documentation : List String) (moduleFree : NullFree module) :
      CodeIsNullFree (.require "." [module] :: abstractMethodEdits signature documentation) := by
    simp (disch := decide) [abstractMethodEdits, free, moduleFree]
  have commands : CodeIsNullFree (domain.commands.flatMap fun command =>
      .require "." ["commands"] :: abstractMethodEdits (commandSignature domain.name command)
        (("Command " ++ command.name ++ ".") :: command.describe :: command.notes)) :=
    codeIsNullFree_flatMap fun command _ =>
      method (nullFree_commandSignature domain command) _ _ (nullFree_literal (by decide))
  have events : CodeIsNullFree (domain.events.flatMap fun event =>
      .require "." ["events"] :: abstractMethodEdits (eventSignature domain.name event)
        (("Event " ++ event.name ++ ".") :: event.describe :: event.notes)) :=
    codeIsNullFree_flatMap fun event _ =>
      method (nullFree_eventSignature domain event) _ _ (nullFree_literal (by decide))
  refine codeIsNullFree_append.mpr ⟨codeIsNullFree_append.mpr ⟨?_, commands⟩, events⟩
  simp (disch := decide) [nullFree_append_iff]

theorem codeIsNullFree_connectedEdits : CodeIsNullFree (connectedEdits domain) := by
  have commands : CodeIsNullFree (domain.commands.flatMap (commandMethodEdits domain.name)) := by
    refine codeIsNullFree_flatMap fun command _ => ?_
    have signature := nullFree_commandSignature domain command
    by_cases argless : command.parameters = [] <;> by_cases silent : command.returns = [] <;>
      simp (disch := decide) [commandMethodEdits, argless, silent, nullFree_append_iff, signature]
  have events : CodeIsNullFree (domain.events.flatMap (eventMethodEdits domain.name)) := by
    refine codeIsNullFree_flatMap fun event _ => ?_
    simp (disch := decide) [eventMethodEdits, nullFree_append_iff, nullFree_eventSignature domain event]
  refine codeIsNullFree_append.mpr ⟨codeIsNullFree_append.mpr ⟨?_, commands⟩, events⟩
  simp (disch := decide) [nullFree_append_iff]

theorem codeIsNullFree_streamEdits (event : Event) (runtimeFree : NullFree runtimeModule) :
    CodeIsNullFree (streamEdits runtimeModule domain.name event) := by
  simp (disch := decide) [streamEdits, nullFree_append_iff, runtimeFree]

theorem codeIsNullFree_argsConstructorEdits {command : Command} {fields : List Field}
    (packageFree : NullFree typesPackage) (plain : ∀ field ∈ fields, field.IsPlain) :
    CodeIsNullFree (argsConstructorEdits typesPackage domain.name command fields) := by
  have required : ∀ field ∈ fields.filter fun field => !field.property.optional, field.IsPlain :=
    fun field member => plain field (List.mem_filter.mp member).1
  have parameters : NullFree (", ".intercalate ((fields.filter fun field =>
      !field.property.optional).map fun field =>
        field.memberName ++ ": " ++ field.annotation none)) := by
    refine nullFree_intercalate (nullFree_literal (by decide)) fun text member => ?_
    obtain ⟨field, inRequired, rfl⟩ := List.mem_map.mp member
    simp (disch := decide) [nullFree_append_iff, (required field inRequired).memberName,
      Field.IsPlain.annotation (required field inRequired) none]
  have keywords : NullFree (", ".intercalate ((fields.filter fun field =>
      !field.property.optional).map fun field => field.memberName ++ "=" ++ field.memberName)) := by
    refine nullFree_intercalate (nullFree_literal (by decide)) fun text member => ?_
    obtain ⟨field, inRequired, rfl⟩ := List.mem_map.mp member
    simp (disch := decide) [nullFree_append_iff, (required field inRequired).memberName]
  refine codeIsNullFree_append.mpr ⟨?_, ?_⟩
  · refine codeIsNullFree_requireModules packageFree fun module member => ?_
    rcases List.mem_append.mp member with inFields | inRequired
    · obtain ⟨field, -, inModules⟩ := List.mem_flatMap.mp inFields
      exact exists_moduleName_of_fieldModules inModules
    · obtain ⟨field, -, inModules⟩ := List.mem_flatMap.mp inRequired
      exact exists_moduleName_of_annotationModules inModules
  · simp (disch := decide) [nullFree_append_iff, parameters, keywords]

theorem codeIsNullFree_clientEdits {domains : List Domain} (runtimeFree : NullFree runtimeModule)
    (packageFree : NullFree typesPackage)
    (made : clientEdits index runtimeModule typesPackage domains = .ok edits) :
    CodeIsNullFree edits := by
  refine codeIsNullFree_of_collectEdits ?_ ?_ made
  · refine codeIsNullFree_append.mpr ⟨?_, codeIsNullFree_clientSetup domains⟩
    simp (disch := decide) [runtimeFree]
  · intro domain _ edits made
    refine codeIsNullFree_of_collectEdits ?_ ?_ made
    · have streams : CodeIsNullFree (domain.events.flatMap (streamEdits runtimeModule domain.name)) :=
        codeIsNullFree_flatMap fun event _ => codeIsNullFree_streamEdits domain event runtimeFree
      refine codeIsNullFree_append.mpr ⟨codeIsNullFree_append.mpr ⟨codeIsNullFree_append.mpr
        ⟨?_, codeIsNullFree_capabilityEdits domain⟩, codeIsNullFree_connectedEdits domain⟩, streams⟩
      simp (disch := decide) [clientHeading]
    · intro command _ edits made
      obtain ⟨fields, fieldsMade, finished⟩ := bind_eq_ok_iff.mp made
      cases finished
      exact codeIsNullFree_argsConstructorEdits domain packageFree (isPlain_of_fieldsOf fieldsMade)

end Client

end Modules

end ProtocolGen.Emission
