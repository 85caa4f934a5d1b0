import ProtocolGen.Emission.Field
import ProtocolGen.Proofs.Sequencing

/-!
# Fields of resolved properties

The fields of a record come from its properties one by one, each with the type that its property
resolves to.
-/

set_option autoImplicit false

namespace ProtocolGen.Emission

open ProtocolGen.Types

variable {index : TypeIndex} {scope : Scope} {domain owner : String} {properties : List Property}
  {fields : List Field} (made : fieldsOf index scope domain owner properties = .ok fields)

include made

theorem mem_fieldsOf_iff {field : Field} : field ∈ fields ↔ ∃ property ∈ properties, ∃ ref,
    index.resolve domain (some property.name) property.expression = .ok ref ∧
      field = fieldOf index scope owner property ref := by
  have steps := mapM_eq_ok_iff.mp made
  constructor
  · intro member
    obtain ⟨property, inProperties, step⟩ := exists_left_of_mem steps member
    obtain ⟨ref, resolved, finished⟩ := bind_eq_ok_iff.mp step
    exact ⟨property, inProperties, ref, resolved, (Except.ok.inj finished).symm⟩
  · intro resolves
    obtain ⟨property, inProperties, ref, resolved, rfl⟩ := resolves
    obtain ⟨field, member, step⟩ := exists_right_of_mem steps inProperties
    obtain ⟨other, otherResolved, finished⟩ := bind_eq_ok_iff.mp step
    rw [resolved] at otherResolved
    rwa [Except.ok.inj otherResolved, Except.ok.inj finished]

theorem exists_fieldOf_of_mem {field : Field} (member : field ∈ fields) :
    ∃ property ref, index.resolve domain (some property.name) property.expression = .ok ref ∧
      field = fieldOf index scope owner property ref := by
  obtain ⟨property, -, resolves⟩ := (mem_fieldsOf_iff made).mp member
  exact ⟨property, resolves⟩

theorem properties_of_fieldsOf : fields.map Field.property = properties := by
  have related := mapM_eq_ok_iff.mp made
  clear made
  induction related with
  | nil => rfl
  | cons step _ ih =>
    obtain ⟨ref, -, finished⟩ := bind_eq_ok_iff.mp step
    cases finished
    rw [List.map_cons, ih]
    rfl

theorem omitEmpty_of_fieldsOf : ∀ field ∈ fields, field.omitEmpty = field.property.optional := by
  intro field member
  obtain ⟨property, ref, -, rfl⟩ := exists_fieldOf_of_mem made member
  rfl

theorem memberName_of_fieldsOf :
    ∀ field ∈ fields, field.memberName = Naming.attributeName field.property.name := by
  intro field member
  obtain ⟨property, ref, -, rfl⟩ := exists_fieldOf_of_mem made member
  rfl

theorem memberNames_of_fieldsOf : fields.map Field.memberName =
    properties.map fun property => Naming.attributeName property.name := by
  rw [← properties_of_fieldsOf made, List.map_map]
  exact List.map_congr_left (memberName_of_fieldsOf made)

theorem optional_of_fieldsOf : (fields.filter Field.omitEmpty).map Field.property =
    properties.filter Property.optional := by
  have marks : ∀ field ∈ fields, field.omitEmpty = (Property.optional ∘ Field.property) field :=
    omitEmpty_of_fieldsOf made
  rw [← properties_of_fieldsOf made, List.filter_map, List.filter_congr marks]

end ProtocolGen.Emission
