import ProtocolGen.Proofs.Emission.Definitions
import ProtocolGen.Proofs.Naming.Identifiers
import ProtocolGen.Proofs.Source.Lines
import ProtocolGen.Proofs.Types.DeclaredNames

/-!
# Lines that define types

The line that defines a declared type is one line of code and does not end with a blank, whatever the
names in it are, so it stands as it is in any text that is written of its module.
-/

set_option autoImplicit false

namespace ProtocolGen.Emission

open ProtocolGen.Types ProtocolGen.Source

/-! ## Names of one line -/

theorem single_of_isNameChar {name : String} (names : ∀ char ∈ name.toList, Naming.isNameChar char) :
    '\n' ∉ name.toList :=
  fun feed => absurd (names _ feed) (by decide)

theorem single_className (id : String) : '\n' ∉ (Naming.className id).toList :=
  single_of_isNameChar fun _ => Naming.isNameChar_of_mem_safeIdentifier

theorem single_qualifiedName (scope : Scope) {declared : Declared}
    (single : '\n' ∉ declared.className.toList) :
    '\n' ∉ (qualifiedName scope declared).toList := by
  have module : '\n' ∉ (Naming.moduleName declared.domain).toList :=
    single_of_isNameChar fun _ => Naming.isNameChar_of_mem_moduleName
  unfold qualifiedName
  split
  · exact single
  · simp [module, single]

/-! ## Definitions -/

/-- With names in quotes an annotation ends with a quote, a bracket or a fixed word. -/
theorem isSolid_annotated (scope : Scope) {ref : TypeRef}
    (single : ∀ declared ∈ ref.names, '\n' ∉ declared.className.toList) :
    IsSolid <| String.toList <| annotation scope true ref := by
  have quoted {declared : Declared} (single : '\n' ∉ declared.className.toList) :
      IsSolid (quotedIf true (qualifiedName scope declared)).toList := by
    rw [quotedIf, if_pos rfl]
    refine isSolid_append ?_ (isSolid_iff.mpr (by decide))
    simp [single_qualifiedName scope single]
  induction ref with
  | primitive primitive =>
    unfold annotation
    cases primitive <;> exact isSolid_iff.mpr (by decide)
  | any | map =>
    unfold annotation
    exact isSolid_iff.mpr (by decide)
  | array item ih =>
    refine isSolid_append ?_ (isSolid_iff.mpr (by decide))
    simp [(ih single).single]
  | record declared | enumeration declared | raw declared =>
    exact quoted (single declared List.mem_cons_self)
  | _ declared meaning => exact quoted (single declared List.mem_cons_self)

theorem DefinitionLine.isSolid {index : TypeIndex} {domain line : String}
    {declaration : TypeDeclaration} (definition : DefinitionLine index domain declaration line) :
    IsSolid line.toList := by
  have name := single_className declaration.id
  cases definition with
  | record | enumeration | raw =>
    exact isSolid_append (by simp [name]) (isSolid_iff.mpr (by decide))
  | _ resolved =>
    refine isSolid_append (by simp [name]) (isSolid_annotated _ fun declared member => ?_)
    obtain ⟨info, -, rfl⟩ := TypeIndex.names_of_resolve resolved declared member
    exact single_className info.id

end ProtocolGen.Emission
