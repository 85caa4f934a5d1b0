import ProtocolGen.Proofs.Source.ImportOrder
import ProtocolGen.Proofs.Source.ImportStatements

/-!
# Keywords in import sections

Edits that name modules by identifiers with dots between them, and take names from them that may be
imported, have a line for each module in the import section. The lines are import statements exactly when
no module that is asked for has a keyword in its name.
-/

set_option autoImplicit false

namespace ProtocolGen.Source

open ProtocolGen.Text

/-- Edits that ask for modules by paths, and only for near ones by taking names from them. The names are
such that may be imported. -/
structure AsksPlainly (edits : List Edit) : Prop where
  paths : ∀ module names, .require module names ∈ edits →
    ∃ path : ModulePath, path.text = module ∧ (names = [] → ¬ path.near)
  names : ∀ module names, .require module names ∈ edits → ∀ name ∈ names, IsImportable name

/-- Edits that ask for a module with a keyword in its name. -/
def AsksForKeyword (edits : List Edit) : Prop :=
  ∃ module names, .require module names ∈ edits ∧ HasKeyword module

/-- The lines for a module that edits ask for. -/
inductive IsAsked (edits : List Edit) (path : ModulePath) : String → Prop where
  | whole (undotted : ¬ path.near) (asked : .require path.text [] ∈ edits) :
      IsAsked edits path (wholeLine path.text)
  | taking {names others : List String} (full : names ≠ []) (importable : ∀ name ∈ names, IsImportable name)
      (asked : .require path.text others ∈ edits) :
      IsAsked edits path (importLine path.text names)

section Lines

variable {edits : List Edit} {path : ModulePath} {line : String}

theorem IsAsked.isImport_iff (asked : IsAsked edits path line) : IsImport line ↔ ¬ path.HasKeyword := by
  cases asked with
  | whole undotted => exact isImport_wholeLine_iff undotted
  | taking full importable => exact isImport_importLine_iff full importable

theorem IsAsked.exists_require (asked : IsAsked edits path line) :
    ∃ names, .require path.text names ∈ edits := by
  cases asked with
  | whole _ asked => exact ⟨[], asked⟩
  | @taking _ others _ _ asked => exact ⟨others, asked⟩

theorem IsAsked.ne_empty (asked : IsAsked edits path line) : line ≠ "" := by
  cases asked with
  | whole => simp [wholeLine]
  | taking => simp [importLine]

end Lines

theorem mem_of_mem_intercalate {Item : Type} {item : Item} {separator : List Item} {lists : List (List Item)}
    (member : item ∈ separator.intercalate lists) : item ∈ separator ∨ ∃ list ∈ lists, item ∈ list := by
  induction lists with
  | nil => cases member
  | cons list lists ih =>
    cases lists with
    | nil =>
      rw [List.intercalate_singleton] at member
      exact .inr ⟨list, List.mem_cons_self, member⟩
    | cons next lists =>
      rw [List.intercalate_cons_cons, List.append_assoc, List.mem_append, List.mem_append] at member
      rcases member with first | between | later
      · exact .inr ⟨list, List.mem_cons_self, first⟩
      · exact .inl between
      · rcases ih later with between | ⟨other, inLists, inOther⟩
        · exact .inl between
        · exact .inr ⟨other, List.mem_cons_of_mem _ inLists, inOther⟩

/-- The last item of lists with a separator between each two is in the last list. -/
theorem exists_intercalate_eq_concat {Item : Type} {lists : List (List Item)} (separator : List Item)
    (notEmpty : lists ≠ []) (each : ∀ list ∈ lists, list ≠ []) :
    ∃ front last, separator.intercalate lists = front ++ [last] ∧ ∃ list ∈ lists, last ∈ list := by
  induction lists with
  | nil => exact absurd rfl notEmpty
  | cons list lists ih =>
    obtain ⟨first, others⟩ := List.forall_mem_cons.mp each
    cases lists with
    | nil =>
      refine ⟨list.dropLast, list.getLast first, ?_, list, List.mem_cons_self, List.getLast_mem first⟩
      rw [List.intercalate_singleton, List.dropLast_concat_getLast]
    | cons next lists =>
      obtain ⟨front, last, shape, found, inLists, inFound⟩ := ih (List.cons_ne_nil next lists) others
      refine ⟨list ++ separator ++ front, last, ?_, found, List.mem_cons_of_mem _ inLists, inFound⟩
      rw [List.intercalate_cons_cons, shape, ← List.append_assoc]

namespace Buffer

section Sections

variable {runtimeModule : String} {edits : List Edit} (plain : AsksPlainly edits)

include plain

theorem isAsked_of_mem_wholesOf {group : ImportGroup} {module : String}
    (member : module ∈ wholesOf runtimeModule edits group) :
    ∃ path, path.text = module ∧ IsAsked edits path (wholeLine module) := by
  obtain ⟨asked, -⟩ := ((areWholes_wholesOf runtimeModule edits group).mem_iff module).mp member
  obtain ⟨path, rfl, undotted⟩ := plain.paths module [] asked
  exact ⟨path, rfl, .whole (undotted rfl) asked⟩

theorem isAsked_of_mem_sourcesOf {group : ImportGroup} {source : String × List String}
    (member : source ∈ sourcesOf runtimeModule edits group) :
    ∃ path, path.text = source.1 ∧ IsAsked edits path (importLine source.1 source.2) := by
  have sources := areSources_sourcesOf runtimeModule edits group
  have names := sources.names_iff source member
  obtain ⟨⟨others, someOthers, asked⟩, -⟩ := (sources.mem_iff source.1).mp (List.mem_map_of_mem member)
  obtain ⟨path, text, -⟩ := plain.paths source.1 others asked
  have full : source.2 ≠ [] := by
    obtain ⟨name, inOthers⟩ := List.exists_mem_of_ne_nil others someOthers
    exact List.ne_nil_of_mem ((names name).mpr ⟨others, asked, inOthers⟩)
  have importable : ∀ name ∈ source.2, IsImportable name := by
    intro name inNames
    obtain ⟨taken, required, inTaken⟩ := (names name).mp inNames
    exact plain.names source.1 taken required name inTaken
  rw [← text] at asked ⊢
  exact ⟨path, rfl, .taking full importable asked⟩

theorem isAsked_of_mem_groups {lines : List String} {line : String}
    (inGroups : lines ∈ (groupOrder.map fun group => linesOfGroup (wholesOf runtimeModule edits group)
      (sourcesOf runtimeModule edits group)).filter fun lines => !lines.isEmpty)
    (inLines : line ∈ lines) : ∃ path, IsAsked edits path line := by
  obtain ⟨group, -, rfl⟩ := List.mem_map.mp (List.mem_filter.mp inGroups).1
  rcases List.mem_append.mp inLines with whole | taking
  · obtain ⟨module, inWholes, rfl⟩ := List.mem_map.mp whole
    obtain ⟨path, -, asked⟩ := isAsked_of_mem_wholesOf plain inWholes
    exact ⟨path, asked⟩
  · obtain ⟨source, inSources, rfl⟩ := List.mem_map.mp taking
    obtain ⟨path, -, asked⟩ := isAsked_of_mem_sourcesOf plain inSources
    exact ⟨path, asked⟩

theorem isAsked_of_mem_importLines {line : String}
    (member : line ∈ ((new runtimeModule).applyAll edits).importLines) :
    line = "" ∨ ∃ path, IsAsked edits path line := by
  rw [importLines_eq] at member
  rcases mem_of_mem_intercalate member with between | ⟨lines, inGroups, inLines⟩
  · exact .inl (List.mem_singleton.mp between)
  · exact .inr (isAsked_of_mem_groups plain inGroups inLines)

/-- The last line of an import section is the line of a module. -/
theorem exists_last_importLine
    (notEmpty : ((new runtimeModule).applyAll edits).importLines ≠ []) :
    ∃ front last path, ((new runtimeModule).applyAll edits).importLines = front ++ [last] ∧
      IsAsked edits path last := by
  rw [importLines_eq] at notEmpty ⊢
  have each : ∀ lines ∈ (groupOrder.map fun group => linesOfGroup (wholesOf runtimeModule edits group)
      (sourcesOf runtimeModule edits group)).filter (fun lines => !lines.isEmpty), lines ≠ [] := by
    intro lines inGroups
    simpa using (List.mem_filter.mp inGroups).2
  have groups := mt (fun none => (congrArg [""].intercalate none).trans List.intercalate_nil) notEmpty
  obtain ⟨front, last, shape, lines, inGroups, inLines⟩ := exists_intercalate_eq_concat [""] groups each
  obtain ⟨path, asked⟩ := isAsked_of_mem_groups plain inGroups inLines
  exact ⟨front, last, path, shape, asked⟩

omit plain in
theorem mem_importLines_of_mem_linesOfGroup {group : ImportGroup} {line : String}
    (member : line ∈ linesOfGroup (wholesOf runtimeModule edits group)
      (sourcesOf runtimeModule edits group)) :
    line ∈ ((new runtimeModule).applyAll edits).importLines := by
  rw [← groupImports_eq] at member
  refine mem_separated ?_ member
  cases group <;> simp

/-- Each module that edits ask for has a line. -/
theorem exists_line_of_require {module : String} {names : List String}
    (required : .require module names ∈ edits) :
    ∃ path line, path.text = module ∧ IsAsked edits path line ∧
      line ∈ ((new runtimeModule).applyAll edits).importLines := by
  let group := groupOf runtimeModule module
  have inGroup : InGroup runtimeModule module group := inGroup_groupOf runtimeModule module
  by_cases whole : names = []
  · subst whole
    have member : module ∈ wholesOf runtimeModule edits group :=
      ((areWholes_wholesOf runtimeModule edits group).mem_iff module).mpr ⟨required, inGroup⟩
    obtain ⟨path, text, asked⟩ := isAsked_of_mem_wholesOf plain member
    exact ⟨path, _, text, asked, mem_importLines_of_mem_linesOfGroup
      (List.mem_append_left _ (List.mem_map_of_mem member))⟩
  · have member : module ∈ (sourcesOf runtimeModule edits group).map Prod.fst :=
      ((areSources_sourcesOf runtimeModule edits group).mem_iff module).mpr
        ⟨⟨names, whole, required⟩, inGroup⟩
    obtain ⟨source, inSources, rfl⟩ := List.mem_map.mp member
    obtain ⟨path, text, asked⟩ := isAsked_of_mem_sourcesOf plain inSources
    exact ⟨path, _, text, asked, mem_importLines_of_mem_linesOfGroup
      (List.mem_append_right _ (List.mem_map.mpr ⟨source, inSources, rfl⟩))⟩

/-- The lines of the import section are import statements exactly when no module that is asked for has a
keyword in its name. -/
theorem forall_isImport_iff :
    (∀ line ∈ ((new runtimeModule).applyAll edits).importLines, line = "" ∨ IsImport line) ↔
      ¬ AsksForKeyword edits := by
  constructor
  · intro imports keyword
    obtain ⟨module, names, asked, hasKeyword⟩ := keyword
    obtain ⟨path, line, rfl, isAsked, member⟩ := exists_line_of_require plain asked
    rcases imports line member with empty | isImport
    · exact isAsked.ne_empty empty
    · exact isAsked.isImport_iff.mp isImport (hasKeyword_text_iff.mp hasKeyword)
  · intro none line member
    rcases isAsked_of_mem_importLines plain member with empty | ⟨path, isAsked⟩
    · exact .inl empty
    · obtain ⟨names, asked⟩ := isAsked.exists_require
      exact .inr (isAsked.isImport_iff.mpr fun keyword =>
        none ⟨_, names, asked, hasKeyword_text_iff.mpr keyword⟩)

end Sections

end Buffer

end ProtocolGen.Source
