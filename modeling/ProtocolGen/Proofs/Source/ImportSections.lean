import ProtocolGen.Proofs.Source.Lines
import ProtocolGen.Proofs.Text.SortedSets
import ProtocolGen.Proofs.Text.Words

/-!
# Import sections

Which names the import section of a module takes from other modules: exactly those that its edits ask
for, whatever the groups of their modules are. Each module that names are taken from has one line, which
is a line of the text when the names are words.
-/

set_option autoImplicit false

namespace ProtocolGen.Source

/-- The names that an edit asks for, with the modules that they are taken from. -/
def Edit.requiredNames : Edit → List (String × String)
  | .require module names => names.map fun name => (module, name)
  | _ => []

/-- The line that takes names from a module. -/
def importLine (module : String) (names : List String) : String :=
  "from " ++ module ++ " import " ++ ", ".intercalate names

namespace Buffer

theorem names_apply (buffer : Buffer) (edit : Edit) :
    (buffer.apply edit).names = buffer.names ++ edit.requiredNames := by
  cases edit with
  | header docstring =>
    rw [apply]
    split <;> exact (List.append_nil _).symm
  | require module names =>
    cases names with
    | nil => exact (List.append_nil _).symm
    | cons name names => rfl
  | declare | line | blank | docstring | comment => exact (List.append_nil _).symm

theorem names_applyAll (buffer : Buffer) (edits : List Edit) :
    (buffer.applyAll edits).names = buffer.names ++ edits.flatMap Edit.requiredNames := by
  induction edits generalizing buffer with
  | nil => exact (List.append_nil _).symm
  | cons edit edits ih =>
    rw [applyAll_cons, ih, names_apply, List.append_assoc, List.flatMap_cons]

theorem mem_namesFrom_iff {buffer : Buffer} {module name : String} :
    name ∈ buffer.namesFrom module ↔ (module, name) ∈ buffer.names := by
  rw [namesFrom, Text.mem_sortedSet_iff, List.mem_map]
  constructor
  · intro taken
    obtain ⟨entry, inNames, rfl⟩ := taken
    obtain ⟨member, same⟩ := List.mem_filter.mp inNames
    rw [← of_decide_eq_true same]
    exact member
  · intro member
    exact ⟨(module, name), List.mem_filter.mpr ⟨member, decide_eq_true rfl⟩, rfl⟩

theorem mem_separated {groups : List (List String)} {group : List String} {line : String}
    (inGroups : group ∈ groups) (member : line ∈ group) : line ∈ separated groups := by
  have full : group ∈ groups.filter fun group => !group.isEmpty := by
    refine List.mem_filter.mpr ⟨inGroups, ?_⟩
    simpa using List.ne_nil_of_mem member
  unfold separated
  split
  · next nothing =>
    rw [nothing] at full
    cases full
  · next first rest parts =>
    rw [parts] at full
    rcases List.mem_cons.mp full with rfl | later
    · exact List.mem_append_left _ member
    · exact List.mem_append_right _ (List.mem_flatMap.mpr ⟨group, later, List.mem_cons_of_mem _ member⟩)

/-- A module that names are taken from has its line in the import section. -/
theorem importLine_mem_importLines {buffer : Buffer} {module name : String}
    (taken : (module, name) ∈ buffer.names) :
    importLine module (buffer.namesFrom module) ∈ buffer.importLines := by
  have inGroup : importLine module (buffer.namesFrom module) ∈
      buffer.groupImports (groupOf buffer.runtimeModule module) := by
    refine List.mem_append_right _ (List.mem_map.mpr ⟨module, List.mem_filter.mpr ⟨?_, ?_⟩, rfl⟩)
    · exact Text.mem_sortedSet_iff.mpr (List.mem_map.mpr ⟨(module, name), taken, rfl⟩)
    · exact decide_eq_true rfl
  refine mem_separated ?_ inGroup
  cases groupOf buffer.runtimeModule module <;> simp

end Buffer

/-! ## Lines of written texts -/

theorem isSolid_of_isWord {name : String} (word : Text.IsWord name.toList) : IsSolid name.toList := by
  obtain ⟨notEmpty, dark⟩ := word
  have single : '\n' ∉ name.toList := by
    intro feed
    exact absurd (dark _ feed) (by decide)
  refine ⟨single, name.toList.dropLast, name.toList.getLast notEmpty, ?_, ?_⟩
  · exact (List.dropLast_concat_getLast notEmpty).symm
  · simp [dark _ (List.getLast_mem notEmpty)]

theorem isSolid_intercalate {separator : String} {names : List String}
    (single : '\n' ∉ separator.toList) (notEmpty : names ≠ [])
    (words : ∀ name ∈ names, Text.IsWord name.toList) :
    IsSolid (separator.intercalate names).toList := by
  induction names with
  | nil => exact absurd rfl notEmpty
  | cons name others ih =>
    obtain ⟨word, otherWords⟩ := List.forall_mem_cons.mp words
    cases others with
    | nil =>
      rw [String.intercalate_singleton]
      exact isSolid_of_isWord word
    | cons next others =>
      rw [String.intercalate_cons_cons]
      refine isSolid_append ?_ (ih (List.cons_ne_nil _ _) otherWords)
      simp [(isSolid_of_isWord word).single, single]

theorem isSolid_importLine {module : String} {names : List String} (single : '\n' ∉ module.toList)
    (notEmpty : names ≠ []) (words : ∀ name ∈ names, Text.IsWord name.toList) :
    IsSolid (importLine module names).toList :=
  isSolid_append (by simp [single]) (isSolid_intercalate (by decide) notEmpty words)

/-- A line of the import section is one of the text that is written of a buffer. -/
theorem Buffer.mem_linesOf_render_of_mem_importLines {buffer : Buffer} {line : String}
    (solid : IsSolid line.toList) (member : line ∈ buffer.importLines) :
    line.toList ∈ linesOf buffer.render.toList := by
  refine mem_linesOf_render solid (List.mem_append_left _ ?_)
  have some : ¬ buffer.importLines.isEmpty := by simpa using List.ne_nil_of_mem member
  unfold topLines
  dsimp only
  rw [if_neg some]
  simp [member]

end ProtocolGen.Source
