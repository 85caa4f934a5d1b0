import ProtocolGen.Emission.Field

/-!
# Modules that types need

The modules that the code of a resolved type or of a field needs are those of domains.
-/

set_option autoImplicit false

namespace ProtocolGen.Emission

open ProtocolGen.Types

variable {scope : Scope} {name : String}

theorem exists_moduleName_of_qualifiedModules {declared : Declared}
    (member : name ∈ qualifiedModules scope declared) : ∃ domain, name = Naming.moduleName domain := by
  unfold qualifiedModules at member
  split at member
  · cases member
  · exact ⟨_, List.mem_singleton.mp member⟩

section Refs

variable {ref : TypeRef}

theorem exists_moduleName_of_annotationModules (member : name ∈ annotationModules scope ref) :
    ∃ domain, name = Naming.moduleName domain := by
  induction ref with
  | primitive | any | map => cases member
  | array item ih => exact ih member
  | _ => exact exists_moduleName_of_qualifiedModules member

theorem exists_moduleName_of_decodeModules (member : name ∈ decodeModules scope ref) :
    ∃ domain, name = Naming.moduleName domain := by
  induction ref with
  | primitive | any | map => cases member
  | array item ih => exact ih member
  | record | enumeration | raw => exact exists_moduleName_of_qualifiedModules member
  | _ declared meaning ih => exact ih member

theorem exists_moduleName_of_fieldModules (member : name ∈ fieldModules scope ref) :
    ∃ domain, name = Naming.moduleName domain := by
  unfold fieldModules at member
  split at member
  · exact exists_moduleName_of_annotationModules member
  · cases member

end Refs

section Fields

variable {field : Field}

theorem exists_moduleName_of_defaultModules (member : name ∈ field.defaultModules scope) :
    ∃ domain, name = Naming.moduleName domain := by
  unfold Field.defaultModules at member
  split at member
  · cases member
  · split at member
    · exact exists_moduleName_of_qualifiedModules member
    · exact exists_moduleName_of_qualifiedModules member
    · cases member

theorem exists_moduleName_of_fromWireModules (member : name ∈ field.fromWireModules scope) :
    ∃ domain, name = Naming.moduleName domain := by
  unfold Field.fromWireModules at member
  split at member
  · exact exists_moduleName_of_decodeModules member
  · cases member

/-- A field needs modules of domains only. -/
theorem Field.exists_moduleName_of_modules (member : name ∈ field.modules scope) :
    ∃ domain, name = Naming.moduleName domain := by
  rw [Field.modules, List.mem_append, List.mem_append, List.mem_append] at member
  rcases member with ((own | annotated) | default) | wire
  · exact exists_moduleName_of_fieldModules own
  · exact exists_moduleName_of_annotationModules annotated
  · exact exists_moduleName_of_defaultModules default
  · exact exists_moduleName_of_fromWireModules wire

end Fields

end ProtocolGen.Emission
