import ProtocolGen.Proofs.Emission.MadeCode
import ProtocolGen.Proofs.Source.Buffers

/-!
# What types modules define

The code of a types module holds the code of each declaration of its domain, whatever kind stands in
the index under the declaration's key. So the module is marked as one with a real declaration, and it
has a line that defines the declaration's class name.
-/

set_option autoImplicit false

namespace ProtocolGen.Emission

open ProtocolGen.Types ProtocolGen.Source

/-- A line that defines a name: the head of a class with or without a base, or an alias. -/
def IsDefinition (name line : String) : Prop :=
  ∃ head ∈ ["class " ++ name ++ "(", "class " ++ name ++ ":", name ++ ": TypeAlias ="],
    head.toList <+: line.toList

/-- A line of edits, outside of any indent, that defines a name. -/
def Defines (name : String) (edits : List Edit) : Prop :=
  ∃ line, .line line 0 ∈ edits ∧ IsDefinition name line

theorem IsDefinition.ne_empty {name line : String} (definition : IsDefinition name line) :
    line ≠ "" := by
  rintro rfl
  obtain ⟨head, heads, start⟩ := definition
  have empty : head.length = 0 := by simpa using start
  simp only [List.mem_cons, List.not_mem_nil, or_false] at heads
  rcases heads with rfl | rfl | rfl
  · exact absurd empty (by simp)
  · exact absurd empty (by simp)
  · exact absurd empty (by simp)

/-- A definition stands among the lines of any buffer that the edits are applied to. -/
theorem Defines.exists_line {name : String} {edits : List Edit} (defines : Defines name edits)
    (buffer : Buffer) : ∃ line ∈ (buffer.applyAll edits).lines, IsDefinition name line := by
  obtain ⟨line, member, definition⟩ := defines
  have same : Buffer.indented line 0 = line := by
    rw [← String.toList_inj, Buffer.toList_indented 0 definition.ne_empty]
    rfl
  refine ⟨line, ?_, definition⟩
  rw [← same]
  exact Buffer.indented_mem_lines_of_line buffer member

/-! ## The code of each kind of declaration -/

/-- The line that defines the class name of a declaration, by the kind of its code. -/
inductive DefinitionLine (index : TypeIndex) (domain : String) (declaration : TypeDeclaration) :
    String → Prop where
  | record : DefinitionLine index domain declaration
      ("class " ++ Naming.className declaration.id ++ ":")
  | enumeration : DefinitionLine index domain declaration
      ("class " ++ Naming.className declaration.id ++ "(WireEnum):")
  | raw : DefinitionLine index domain declaration
      ("class " ++ Naming.className declaration.id ++ "(RawMessage):")
  | alias {target : TypeRef}
      (resolved : index.resolve domain none declaration.expression = .ok target) :
      DefinitionLine index domain declaration
        (Naming.className declaration.id ++ ": TypeAlias = " ++
          annotation (some domain) true target)

theorem DefinitionLine.isDefinition {index : TypeIndex} {domain line : String}
    {declaration : TypeDeclaration} (definition : DefinitionLine index domain declaration line) :
    IsDefinition (Naming.className declaration.id) line := by
  cases definition with
  | record => exact ⟨_, List.mem_of_mem_tail List.mem_cons_self, List.prefix_refl _⟩
  | enumeration | raw => exact ⟨_, List.mem_cons_self, by simp⟩
  | _ resolved =>
    exact ⟨_, List.mem_of_mem_tail (List.mem_of_mem_tail List.mem_cons_self), by simp⟩

section Modules

variable {index : TypeIndex} {runtimeModule : String} {domain : Domain}
  {declaration : TypeDeclaration} {edits : List Edit}

theorem exists_definitionLine {name : String}
    (made : declarationEdits index runtimeModule name declaration = .ok edits) :
    ∃ line, .line line 0 ∈ edits ∧ DefinitionLine index name declaration line := by
  cases declarationCode_of_declarationEdits made with
  | record => exact ⟨_, by simp [recordEdits], .record⟩
  | enumeration => exact ⟨_, by simp [enumerationEdits], .enumeration⟩
  | raw => exact ⟨_, by simp [rawEdits], .raw⟩
  | typeAlias other resolved => exact ⟨_, by simp [aliasEdits], .alias resolved⟩

theorem declare_mem_declarationEdits {name : String}
    (made : declarationEdits index runtimeModule name declaration = .ok edits) :
    .declare ∈ edits := by
  cases declarationCode_of_declarationEdits made with
  | record => simp [recordEdits]
  | enumeration => simp [enumerationEdits]
  | raw => simp [rawEdits]
  | typeAlias => simp [aliasEdits]

/-- What a step makes of an item is part of what is collected. -/
theorem exists_infix_of_collectEdits {Item : Type} {front : List Edit}
    {step : Item → Except Types.Failure (List Edit)} {items : List Item} {item : Item}
    (made : collectEdits front step items = .ok edits) (member : item ∈ items) :
    ∃ body, step item = .ok body ∧ body <:+: edits := by
  obtain ⟨bodies, rendered, finished⟩ := bind_eq_ok_iff.mp made
  cases finished
  obtain ⟨body, inBodies, body_made⟩ := exists_right_of_mem (mapM_eq_ok_iff.mp rendered) member
  obtain ⟨before, after, rfl⟩ := List.append_of_mem inBodies
  refine ⟨body, body_made, front ++ before.flatten, after.flatten, ?_⟩
  rw [List.flatten_append, List.flatten_cons]
  simp only [List.append_assoc]

theorem mem_collectEdits_iff {Item : Type} {front : List Edit}
    {step : Item → Except Types.Failure (List Edit)} {items : List Item} {edit : Edit}
    (made : collectEdits front step items = .ok edits) :
    edit ∈ edits ↔ edit ∈ front ∨ ∃ item ∈ items, ∃ body, step item = .ok body ∧ edit ∈ body := by
  obtain ⟨bodies, rendered, finished⟩ := bind_eq_ok_iff.mp made
  cases finished
  have results := mapM_eq_ok_iff.mp rendered
  rw [List.mem_append, List.mem_flatten]
  refine or_congr_right ⟨?_, ?_⟩
  · rintro ⟨body, inBodies, member⟩
    obtain ⟨item, inItems, body_made⟩ := exists_left_of_mem results inBodies
    exact ⟨item, inItems, body, body_made, member⟩
  · rintro ⟨item, inItems, body, body_made, member⟩
    obtain ⟨other, inBodies, other_made⟩ := exists_right_of_mem results inItems
    cases body_made.symm.trans other_made
    exact ⟨body, inBodies, member⟩

theorem mem_flatMap_collectEdits_iff {Item Result : Type} {read : Edit → List Result} {result : Result}
    {front : List Edit} {step : Item → Except Types.Failure (List Edit)} {items : List Item}
    (made : collectEdits front step items = .ok edits) :
    result ∈ edits.flatMap read ↔ result ∈ front.flatMap read ∨
      ∃ item ∈ items, ∃ body, step item = .ok body ∧ result ∈ body.flatMap read := by
  simp only [List.mem_flatMap, mem_collectEdits_iff made]
  constructor
  · rintro ⟨edit, inFront | ⟨item, inItems, body, body_made, inBody⟩, member⟩
    · exact .inl ⟨edit, inFront, member⟩
    · exact .inr ⟨item, inItems, body, body_made, edit, inBody, member⟩
  · rintro (⟨edit, inFront, member⟩ | ⟨item, inItems, body, body_made, edit, inBody, member⟩)
    · exact ⟨edit, .inl inFront, member⟩
    · exact ⟨edit, .inr ⟨item, inItems, body, body_made, inBody⟩, member⟩

theorem exists_step_of_collectEdits {Item : Type} {front : List Edit}
    {step : Item → Except Types.Failure (List Edit)} {items : List Item} {item : Item}
    (made : collectEdits front step items = .ok edits) (member : item ∈ items) :
    ∃ body, step item = .ok body ∧ body ⊆ edits := by
  obtain ⟨body, body_made, within⟩ := exists_infix_of_collectEdits made member
  exact ⟨body, body_made, within.subset⟩

/-- The front of what is collected is part of it. -/
theorem front_subset_of_collectEdits {Item : Type} {front : List Edit}
    {step : Item → Except Types.Failure (List Edit)} {items : List Item}
    (made : collectEdits front step items = .ok edits) : front ⊆ edits := by
  obtain ⟨bodies, -, finished⟩ := bind_eq_ok_iff.mp made
  cases finished
  exact List.subset_append_left _ _

/-- What is read of each edit is read of the front and then of what a step makes of each item. -/
theorem filterMap_collectEdits {Item Result : Type} {read : Edit → Option Result} {front : List Edit}
    {step : Item → Except Types.Failure (List Edit)} {items : List Item}
    {results : Item → List Result} (made : collectEdits front step items = .ok edits)
    (one : ∀ item body, step item = .ok body → body.filterMap read = results item) :
    edits.filterMap read = front.filterMap read ++ items.flatMap results := by
  obtain ⟨bodies, rendered, finished⟩ := bind_eq_ok_iff.mp made
  cases finished
  have steps := mapM_eq_ok_iff.mp rendered
  have behind : bodies.flatten.filterMap read = items.flatMap results := by
    clear made rendered
    induction steps with
    | nil => rfl
    | cons first _ ih =>
      rw [List.flatten_cons, List.filterMap_append, one _ _ first, ih, List.flatMap_cons]
  rw [List.filterMap_append, behind]

theorem exists_declarationEdits_of_mem (declared : declaration ∈ domain.types)
    (made : typesEdits index runtimeModule domain = .ok edits) :
    ∃ body, declarationEdits index runtimeModule domain.name declaration = .ok body ∧
      body ⊆ edits := by
  unfold typesEdits at made
  rw [if_neg (by simpa using List.ne_nil_of_mem declared)] at made
  exact exists_step_of_collectEdits made declared

theorem declare_mem_typesEdits (typed : domain.types ≠ [])
    (made : typesEdits index runtimeModule domain = .ok edits) : .declare ∈ edits := by
  obtain ⟨declaration, declared⟩ := List.exists_mem_of_ne_nil _ typed
  obtain ⟨body, body_made, within⟩ := exists_declarationEdits_of_mem declared made
  exact within (declare_mem_declarationEdits body_made)

theorem exists_definitionLine_of_mem (declared : declaration ∈ domain.types)
    (made : typesEdits index runtimeModule domain = .ok edits) :
    ∃ line, .line line 0 ∈ edits ∧ DefinitionLine index domain.name declaration line := by
  obtain ⟨body, body_made, within⟩ := exists_declarationEdits_of_mem declared made
  obtain ⟨line, member, definition⟩ := exists_definitionLine body_made
  exact ⟨line, within member, definition⟩

theorem defines_typesEdits (declared : declaration ∈ domain.types)
    (made : typesEdits index runtimeModule domain = .ok edits) :
    Defines (Naming.className declaration.id) edits := by
  obtain ⟨line, member, definition⟩ := exists_definitionLine_of_mem declared made
  exact ⟨line, member, definition.isDefinition⟩

end Modules

end ProtocolGen.Emission
