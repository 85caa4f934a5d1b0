import ProtocolGen.Emission.CommandsModule
import ProtocolGen.Emission.TypesModule
import ProtocolGen.Proofs.Sequencing

/-!
# Code of declarations and commands

What the code of one item is when it could be made, and from what. The lines that write a field to the
wire stand inside a method, whatever the field is. A declaration has code of one of four kinds, by what
the index has under its key. A command has a record for its parameters and one for what it returns, and
each of the two is left out where it would have no fields. What holds of the code of a module is shown of
each kind of code, without the steps that make it.
-/

set_option autoImplicit false

namespace ProtocolGen.Emission

open ProtocolGen.Types ProtocolGen.Source

/-! ## Fields -/

/-- What writes a field to the wire is lines in the body of a method. -/
theorem exists_line_of_mem_toWireEdits {field : Field} {edit : Edit}
    (member : edit ∈ toWireEdits field) : ∃ text indent, edit = .line text (indent + 2) := by
  unfold toWireEdits at member
  dsimp only at member
  split at member
  · rcases List.mem_pair.mp member with rfl | rfl
    · exact ⟨_, 0, rfl⟩
    · exact ⟨_, 1, rfl⟩
  · split at member
    · exact ⟨_, 0, List.mem_singleton.mp member⟩
    · exact ⟨_, 0, List.mem_singleton.mp member⟩

/-- What reads nothing of a line in the body of a method reads nothing there. -/
theorem filterMap_toWireEdits {Part : Type} {read : Edit → Option Part}
    (silent : ∀ text indent, read (.line text (indent + 2)) = none) (field : Field) :
    (toWireEdits field).filterMap read = [] := by
  refine List.filterMap_eq_nil_iff.mpr fun edit member => ?_
  obtain ⟨text, indent, rfl⟩ := exists_line_of_mem_toWireEdits member
  exact silent text indent

/-! ## Declarations -/

/-- The code of a declaration, by the kind of the type that the index has under its key. -/
inductive DeclarationCode (index : TypeIndex) (runtimeModule domain : String)
    (declaration : TypeDeclaration) : List Edit → Prop where
  | record {fields : List Field}
      (kind : (index.find? (keyOf domain declaration.id)).map TypeInfo.kind = some .record)
      (made : fieldsOf index (some domain) domain (Naming.className declaration.id)
        declaration.propertyList = .ok fields) :
      DeclarationCode index runtimeModule domain declaration
        (recordEdits (some domain) siblingPackage (Naming.className declaration.id)
          (declaration.expression.describe :: declaration.notes) fields [])
  | enumeration
      (kind : (index.find? (keyOf domain declaration.id)).map TypeInfo.kind = some .enumeration) :
      DeclarationCode index runtimeModule domain declaration
        (enumerationEdits runtimeModule (Naming.className declaration.id)
          (declaration.expression.describe :: declaration.notes)
          (declaration.expression.facets.enumeration.getD []))
  | raw (kind : (index.find? (keyOf domain declaration.id)).map TypeInfo.kind = some .raw) :
      DeclarationCode index runtimeModule domain declaration
        (rawEdits runtimeModule (Naming.className declaration.id)
          (declaration.expression.describe :: declaration.notes))
  | typeAlias {target : TypeRef}
      (other : (index.find? (keyOf domain declaration.id)).map TypeInfo.kind ≠ some .record)
      (resolved : index.resolve domain none declaration.expression = .ok target) :
      DeclarationCode index runtimeModule domain declaration
        (aliasEdits domain (Naming.className declaration.id)
          (declaration.expression.describe :: declaration.notes) target)

theorem declarationCode_of_declarationEdits {index : TypeIndex} {runtimeModule domain : String}
    {declaration : TypeDeclaration} {edits : List Edit}
    (made : declarationEdits index runtimeModule domain declaration = .ok edits) :
    DeclarationCode index runtimeModule domain declaration edits := by
  unfold declarationEdits at made
  dsimp only at made
  split at made
  · next kind =>
    obtain ⟨fields, fieldsMade, finished⟩ := bind_eq_ok_iff.mp made
    cases finished
    exact .record kind fieldsMade
  · next kind =>
    cases made
    exact .enumeration kind
  · next kind =>
    cases made
    exact .raw kind
  · next other _ _ =>
    obtain ⟨target, resolved, finished⟩ := bind_eq_ok_iff.mp made
    cases finished
    exact .typeAlias other resolved

/-! ## Commands -/

/-- The code of a record of a command with some properties. Without any there is none. -/
inductive PayloadCode (index : TypeIndex) (typesPackage domain name : String)
    (documentation : List String) (properties : List Property) (setters : List Field → List Edit) :
    List Edit → Prop where
  | absent (empty : properties.isEmpty) :
      PayloadCode index typesPackage domain name documentation properties setters []
  | record {fields : List Field} (given : ¬ properties.isEmpty)
      (made : fieldsOf index none domain name properties = .ok fields) :
      PayloadCode index typesPackage domain name documentation properties setters
        (recordEdits none typesPackage name documentation fields (setters fields))

section Commands

variable (index : TypeIndex) (typesPackage domain : String) (command : Command)

/-- The code of a command's arguments, which has setters for those that are optional. -/
def ArgsPayload : List Edit → Prop :=
  PayloadCode index typesPackage domain (Naming.argsName domain command.name)
    ["Arguments for " ++ wireName domain command.name ++ "."] command.parameters
    fun fields => (fields.filter Field.omitEmpty).flatMap
      (setterEdits none (Naming.argsName domain command.name))

/-- The code of a command's return values. -/
def ReturnsPayload : List Edit → Prop :=
  PayloadCode index typesPackage domain (Naming.replyName domain command.name)
    ["Return values of " ++ wireName domain command.name ++ "."] command.returns fun _ => []

variable {index typesPackage domain command} {edits : List Edit}

theorem argsPayload_of_argsEdits (made : argsEdits index typesPackage domain command = .ok edits) :
    ArgsPayload index typesPackage domain command edits := by
  unfold argsEdits at made
  split at made
  · next empty =>
    cases made
    exact .absent empty
  · next given =>
    obtain ⟨fields, fieldsMade, finished⟩ := bind_eq_ok_iff.mp made
    cases finished
    exact .record given fieldsMade

theorem returnsPayload_of_returnsEdits
    (made : returnsEdits index typesPackage domain command = .ok edits) :
    ReturnsPayload index typesPackage domain command edits := by
  unfold returnsEdits at made
  split at made
  · next empty =>
    cases made
    exact .absent empty
  · next given =>
    obtain ⟨fields, fieldsMade, finished⟩ := bind_eq_ok_iff.mp made
    cases finished
    exact .record given fieldsMade

theorem exists_payloads_of_commandEdits
    (made : commandEdits index typesPackage domain command = .ok edits) :
    ∃ args returns, edits = args ++ returns ∧ ArgsPayload index typesPackage domain command args ∧
      ReturnsPayload index typesPackage domain command returns := by
  obtain ⟨args, argsMade, rest⟩ := bind_eq_ok_iff.mp made
  obtain ⟨returns, returnsMade, finished⟩ := bind_eq_ok_iff.mp rest
  exact ⟨args, returns, (Except.ok.inj finished).symm, argsPayload_of_argsEdits argsMade,
    returnsPayload_of_returnsEdits returnsMade⟩

end Commands

end ProtocolGen.Emission
