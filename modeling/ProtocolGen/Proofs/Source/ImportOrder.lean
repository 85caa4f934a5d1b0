import ProtocolGen.Proofs.Source.ImportSections

/-!
# The order of imports

What a module imports is a set: where its edits ask for it, how often and in which order is not seen in
the text. The import section has one line for each module that is imported as a whole and one for each
module that names are taken from, in three groups, and in each group both kinds by module.
-/

set_option autoImplicit false

namespace ProtocolGen.Source

/-! ## What edits ask for -/

def Edit.isRequire : Edit → Bool
  | .require _ _ => true
  | _ => false

/-- The modules that an edit asks for as a whole. -/
def Edit.requiredModules : Edit → List String
  | .require module [] => [module]
  | _ => []

/-- Edits that ask for the same imports, and are the same edits in the same order otherwise. -/
structure SameBesidesOrder (edits others : List Edit) : Prop where
  requires : ∀ module names, .require module names ∈ edits ↔ .require module names ∈ others
  rest : edits.filter (fun edit => !edit.isRequire) = others.filter fun edit => !edit.isRequire

theorem mem_requiredModules_iff {edits : List Edit} {module : String} :
    module ∈ edits.flatMap Edit.requiredModules ↔ .require module [] ∈ edits := by
  rw [List.mem_flatMap]
  constructor
  · intro asked
    obtain ⟨edit, member, asks⟩ := asked
    unfold Edit.requiredModules at asks
    split at asks
    · rwa [List.mem_singleton.mp asks]
    · cases asks
  · exact fun member => ⟨_, member, List.mem_singleton_self _⟩

theorem mem_requiredNames_iff {edits : List Edit} {module name : String} :
    (module, name) ∈ edits.flatMap Edit.requiredNames ↔
      ∃ names, .require module names ∈ edits ∧ name ∈ names := by
  rw [List.mem_flatMap]
  constructor
  · intro asked
    obtain ⟨edit, member, asks⟩ := asked
    unfold Edit.requiredNames at asks
    split at asks
    · obtain ⟨taken, inNames, same⟩ := List.mem_map.mp asks
      cases same
      exact ⟨_, member, inNames⟩
    · cases asks
  · intro asked
    obtain ⟨names, member, inNames⟩ := asked
    exact ⟨_, member, List.mem_map_of_mem inNames⟩

namespace Buffer

theorem modules_apply (buffer : Buffer) (edit : Edit) :
    (buffer.apply edit).modules = buffer.modules ++ edit.requiredModules := by
  cases edit with
  | header docstring =>
    rw [apply]
    split <;> exact (List.append_nil _).symm
  | require module names =>
    cases names with
    | nil => rfl
    | cons name names => exact (List.append_nil _).symm
  | declare | line | blank | docstring | comment => exact (List.append_nil _).symm

theorem modules_applyAll (buffer : Buffer) (edits : List Edit) :
    (buffer.applyAll edits).modules = buffer.modules ++ edits.flatMap Edit.requiredModules := by
  induction edits generalizing buffer with
  | nil => exact (List.append_nil _).symm
  | cons edit edits ih =>
    rw [applyAll_cons, ih, modules_apply, List.append_assoc, List.flatMap_cons]

/-- A buffer that asks for nothing. -/
def withoutImports (buffer : Buffer) : Buffer := { buffer with modules := [], names := [] }

@[simp] theorem runtimeModule_withoutImports (buffer : Buffer) :
    buffer.withoutImports.runtimeModule = buffer.runtimeModule := rfl

@[simp] theorem headingLines_withoutImports (buffer : Buffer) :
    buffer.withoutImports.headingLines = buffer.headingLines := rfl

@[simp] theorem bodyLines_withoutImports (buffer : Buffer) :
    buffer.withoutImports.bodyLines = buffer.bodyLines := rfl

theorem withoutImports_apply_of_isRequire (buffer : Buffer) {edit : Edit} (asks : edit.isRequire) :
    (buffer.apply edit).withoutImports = buffer.withoutImports := by
  cases edit with
  | require module names => cases names <;> rfl
  | header | declare | line | blank | docstring | comment => cases asks

theorem withoutImports_apply (buffer : Buffer) {edit : Edit} (other : ¬ edit.isRequire) :
    (buffer.apply edit).withoutImports = buffer.withoutImports.apply edit := by
  cases edit with
  | require module names => exact absurd rfl other
  | header docstring =>
    rw [apply, apply]
    split
    · next headed => exact (if_pos headed).symm
    · next bare => exact (if_neg bare).symm
  | declare | line | blank | docstring | comment => rfl

theorem withoutImports_applyAll (buffer : Buffer) (edits : List Edit) :
    (buffer.applyAll edits).withoutImports =
      buffer.withoutImports.applyAll (edits.filter fun edit => !edit.isRequire) := by
  induction edits generalizing buffer with
  | nil => rfl
  | cons edit edits ih =>
    rw [applyAll_cons, ih, List.filter_cons]
    by_cases asks : edit.isRequire
    · rw [withoutImports_apply_of_isRequire buffer asks, if_neg (by simpa using asks)]
    · rw [withoutImports_apply buffer asks, if_pos (by simpa using asks), applyAll_cons]

/-! ## Texts of buffers that ask for the same -/

section Congruence

variable {left right : Buffer}

theorem moduleImports_congr (runtime : left.runtimeModule = right.runtimeModule)
    (modules : ∀ module, module ∈ left.modules ↔ module ∈ right.modules) (group : ImportGroup) :
    left.moduleImports group = right.moduleImports group := by
  rw [moduleImports, moduleImports, Text.sortedSet_congr modules, runtime]

theorem namesFrom_congr (names : ∀ entry, entry ∈ left.names ↔ entry ∈ right.names) (module : String) :
    left.namesFrom module = right.namesFrom module := by
  refine Text.eq_of_mem_iff_of_pairwise Text.pairwise_sortedSet Text.pairwise_sortedSet fun name => ?_
  exact (mem_namesFrom_iff.trans (names _)).trans mem_namesFrom_iff.symm

theorem nameImports_congr (runtime : left.runtimeModule = right.runtimeModule)
    (names : ∀ entry, entry ∈ left.names ↔ entry ∈ right.names) (group : ImportGroup) :
    left.nameImports group = right.nameImports group := by
  have modules : Text.sortedSet (left.names.map Prod.fst) = Text.sortedSet (right.names.map Prod.fst) := by
    refine Text.sortedSet_congr fun module => ?_
    simp only [List.mem_map, names]
  rw [nameImports, nameImports, modules, runtime]
  simp only [namesFrom_congr names]

theorem render_congr (rest : left.withoutImports = right.withoutImports)
    (modules : ∀ module, module ∈ left.modules ↔ module ∈ right.modules)
    (names : ∀ entry, entry ∈ left.names ↔ entry ∈ right.names) : left.render = right.render := by
  have runtime : left.runtimeModule = right.runtimeModule := by
    simpa using congrArg Buffer.runtimeModule rest
  have imports : left.importLines = right.importLines := by
    simp only [importLines, groupImports, moduleImports_congr runtime modules,
      nameImports_congr runtime names]
  have heading : left.headingLines = right.headingLines := by
    simpa using congrArg Buffer.headingLines rest
  have body : left.bodyLines = right.bodyLines := by
    simpa using congrArg Buffer.bodyLines rest
  rw [render, render, topLines, topLines, imports, heading, body]

end Congruence

theorem render_applyAll_congr (runtimeModule : String) {edits others : List Edit}
    (same : SameBesidesOrder edits others) :
    ((new runtimeModule).applyAll edits).render = ((new runtimeModule).applyAll others).render := by
  apply render_congr
  · rw [withoutImports_applyAll, withoutImports_applyAll, same.rest]
  · intro module
    rw [modules_applyAll, modules_applyAll, List.mem_append, List.mem_append,
      mem_requiredModules_iff, mem_requiredModules_iff, same.requires]
  · intro entry
    rw [names_applyAll, names_applyAll, List.mem_append, List.mem_append, mem_requiredNames_iff,
      mem_requiredNames_iff]
    simp only [same.requires]

/-! ## The lines of the import section -/

/-- The group of a module by its name: near with a leading dot, otherwise with the runtime when it is the
runtime module or lies below the first part of that one's name, and standard if neither. -/
inductive InGroup (runtimeModule module : String) : ImportGroup → Prop where
  | near (dotted : ['.'] <+: module.toList) : InGroup runtimeModule module .near
  | runtime (undotted : ¬ ['.'] <+: module.toList)
      (own : module = runtimeModule ∨ topModule runtimeModule ++ ['.'] <+: module.toList) :
      InGroup runtimeModule module .runtime
  | standard (undotted : ¬ ['.'] <+: module.toList)
      (foreign : ¬ (module = runtimeModule ∨ topModule runtimeModule ++ ['.'] <+: module.toList)) :
      InGroup runtimeModule module .standard

theorem inGroup_groupOf (runtimeModule module : String) :
    InGroup runtimeModule module (groupOf runtimeModule module) := by
  rw [groupOf]
  split
  · next dotted => exact .near (List.isPrefixOf_iff_prefix.mp dotted)
  · next undotted =>
    rw [List.isPrefixOf_iff_prefix] at undotted
    split
    · next own =>
      rw [Bool.or_eq_true, decide_eq_true_eq, List.isPrefixOf_iff_prefix] at own
      exact .runtime undotted own
    · next foreign =>
      rw [Bool.or_eq_true, decide_eq_true_eq, List.isPrefixOf_iff_prefix] at foreign
      exact .standard undotted foreign

theorem groupOf_eq_iff {runtimeModule module : String} {group : ImportGroup} :
    groupOf runtimeModule module = group ↔ InGroup runtimeModule module group := by
  constructor
  · rintro rfl
    exact inGroup_groupOf runtimeModule module
  · intro inGroup
    have found := inGroup_groupOf runtimeModule module
    generalize groupOf runtimeModule module = computed at found
    cases inGroup <;> cases found <;> first | rfl | contradiction

/-- The modules of a group that are imported as a whole: each that is asked for, once and in order. -/
structure AreWholes (runtimeModule : String) (edits : List Edit) (group : ImportGroup)
    (modules : List String) : Prop where
  increasing : modules.Pairwise (· < ·)
  mem_iff : ∀ module,
    module ∈ modules ↔ .require module [] ∈ edits ∧ InGroup runtimeModule module group

/-- The modules of a group that names are taken from: each of them once and in order, with the names
that are asked for, each once and in order. -/
structure AreSources (runtimeModule : String) (edits : List Edit) (group : ImportGroup)
    (sources : List (String × List String)) : Prop where
  increasing : (sources.map Prod.fst).Pairwise (· < ·)
  mem_iff : ∀ module, module ∈ sources.map Prod.fst ↔
    (∃ names, names ≠ [] ∧ .require module names ∈ edits) ∧ InGroup runtimeModule module group
  names_increasing : ∀ source ∈ sources, source.2.Pairwise (· < ·)
  names_iff : ∀ source ∈ sources, ∀ name,
    name ∈ source.2 ↔ ∃ names, .require source.1 names ∈ edits ∧ name ∈ names

/-- The lines of a group. -/
def linesOfGroup (modules : List String) (sources : List (String × List String)) : List String :=
  modules.map (fun module => "import " ++ module) ++
    sources.map fun source => importLine source.1 source.2

theorem separated_eq_intercalate (groups : List (List String)) :
    separated groups = [""].intercalate (groups.filter fun group => !group.isEmpty) := by
  have joined (first : List String) (rest : List (List String)) :
      first ++ rest.flatMap (fun group => "" :: group) = [""].intercalate (first :: rest) := by
    induction rest generalizing first with
    | nil => simp
    | cons second rest ih =>
      rw [List.intercalate_cons_cons, ← ih second, List.flatMap_cons]
      simp
  unfold separated
  split
  · next nothing => rw [nothing, List.intercalate_nil]
  · next first rest parts => rw [parts, joined]

section Section

variable (runtimeModule : String) (edits : List Edit) (group : ImportGroup)

def wholesOf : List String :=
  (Text.sortedSet ((new runtimeModule).applyAll edits).modules).filter fun module =>
    groupOf runtimeModule module = group

def sourcesOf : List (String × List String) :=
  ((Text.sortedSet (((new runtimeModule).applyAll edits).names.map Prod.fst)).filter fun module =>
    groupOf runtimeModule module = group).map
    fun module => (module, ((new runtimeModule).applyAll edits).namesFrom module)

theorem areWholes_wholesOf : AreWholes runtimeModule edits group (wholesOf runtimeModule edits group) where
  increasing := Text.pairwise_sortedSet.filter _
  mem_iff module := by
    rw [wholesOf, List.mem_filter, decide_eq_true_eq, groupOf_eq_iff, Text.mem_sortedSet_iff,
      modules_applyAll, ← mem_requiredModules_iff]
    rfl

theorem map_fst_sourcesOf : (sourcesOf runtimeModule edits group).map Prod.fst =
    (Text.sortedSet (((new runtimeModule).applyAll edits).names.map Prod.fst)).filter fun module =>
      groupOf runtimeModule module = group := by
  rw [sourcesOf, List.map_map]
  exact List.map_id _

theorem areSources_sourcesOf :
    AreSources runtimeModule edits group (sourcesOf runtimeModule edits group) where
  increasing := by
    rw [map_fst_sourcesOf]
    exact Text.pairwise_sortedSet.filter _
  mem_iff module := by
    have asked : (∃ entry ∈ ((new runtimeModule).applyAll edits).names, entry.1 = module) ↔
        ∃ names, names ≠ [] ∧ .require module names ∈ edits := by
      rw [names_applyAll]
      constructor
      · intro taken
        obtain ⟨⟨_, name⟩, member, rfl⟩ := taken
        obtain ⟨names, asks, inNames⟩ := mem_requiredNames_iff.mp member
        exact ⟨names, List.ne_nil_of_mem inNames, asks⟩
      · intro asks
        obtain ⟨names, some, member⟩ := asks
        obtain ⟨name, inNames⟩ := List.exists_mem_of_ne_nil names some
        exact ⟨(module, name), mem_requiredNames_iff.mpr ⟨names, member, inNames⟩, rfl⟩
    rw [map_fst_sourcesOf, List.mem_filter, decide_eq_true_eq, groupOf_eq_iff, Text.mem_sortedSet_iff,
      List.mem_map, asked]
  names_increasing source member := by
    obtain ⟨module, -, rfl⟩ := List.mem_map.mp member
    exact Text.pairwise_sortedSet
  names_iff source member name := by
    obtain ⟨module, -, rfl⟩ := List.mem_map.mp member
    rw [mem_namesFrom_iff, names_applyAll]
    exact mem_requiredNames_iff

theorem groupImports_eq :
    ((new runtimeModule).applyAll edits).groupImports group =
      linesOfGroup (wholesOf runtimeModule edits group) (sourcesOf runtimeModule edits group) := by
  rw [groupImports, moduleImports, nameImports, runtimeModule_applyAll, linesOfGroup, sourcesOf,
    List.map_map]
  rfl

end Section

/-- The groups in the order of the section. -/
def groupOrder : List ImportGroup := [.standard, .runtime, .near]

theorem importLines_eq (runtimeModule : String) (edits : List Edit) :
    ((new runtimeModule).applyAll edits).importLines =
      [""].intercalate ((groupOrder.map fun group =>
        linesOfGroup (wholesOf runtimeModule edits group) (sourcesOf runtimeModule edits group)).filter
          fun lines => !lines.isEmpty) := by
  simp only [importLines, separated_eq_intercalate, groupImports_eq, groupOrder, List.map_cons,
    List.map_nil]

/-! ## The section in the text -/

/-- The text that lines are written as. -/
def writtenLines (lines : List String) : String :=
  String.ofList (Text.trimEnd ("\n".intercalate lines).toList ++ ['\n'])

/-- A section behind an empty line, if there is anything in it. -/
def setOff (lines : List String) : List String := if lines.isEmpty then [] else "" :: lines

def linesAbove (buffer : Buffer) : List String :=
  banner :: buffer.headingLines ++ ["", "from __future__ import annotations"]

theorem render_eq (buffer : Buffer) :
    buffer.render = writtenLines
      (buffer.linesAbove ++ setOff buffer.importLines ++ ("" :: "" :: buffer.bodyLines)) := by
  rw [render, topLines, writtenLines, linesAbove, setOff]
  simp

theorem importLines_withoutImports (buffer : Buffer) : buffer.withoutImports.importLines = [] := by
  have none : Text.sortedSet [] = [] := by
    rw [Text.sortedSet, List.mergeSort_nil]
    rfl
  simp [importLines, groupImports, moduleImports, nameImports, withoutImports, none, separated]

/-- The text without what its edits ask for. -/
theorem render_without_requires (runtimeModule : String) (edits : List Edit) :
    ((new runtimeModule).applyAll (edits.filter fun edit => !edit.isRequire)).render =
      writtenLines (((new runtimeModule).applyAll edits).linesAbove ++
        ("" :: "" :: ((new runtimeModule).applyAll edits).bodyLines)) := by
  have bare : (new runtimeModule).applyAll (edits.filter fun edit => !edit.isRequire) =
      ((new runtimeModule).applyAll edits).withoutImports :=
    (withoutImports_applyAll (new runtimeModule) edits).symm
  rw [bare, render_eq, importLines_withoutImports, linesAbove, linesAbove,
    headingLines_withoutImports, bodyLines_withoutImports]
  simp [setOff]

/-- Edits that ask for the same imports and agree otherwise give the same text. It is the text without
imports with the import section put in at one place. The section has one line for each module that is
imported as a whole and one for each module that names are taken from, in the groups of the modules with
an empty line between two groups. -/
theorem imports_are_sets_in_order (runtimeModule : String) (edits : List Edit) :
    (∀ others, SameBesidesOrder edits others →
      ((new runtimeModule).applyAll others).render = ((new runtimeModule).applyAll edits).render) ∧
    ∃ (wholes : ImportGroup → List String) (sources : ImportGroup → List (String × List String)),
      (∀ group, AreWholes runtimeModule edits group (wholes group) ∧
        AreSources runtimeModule edits group (sources group)) ∧
      ((new runtimeModule).applyAll edits).importLines =
        [""].intercalate ((groupOrder.map fun group => linesOfGroup (wholes group) (sources group)).filter
          fun lines => !lines.isEmpty) ∧
      ∃ above below,
        ((new runtimeModule).applyAll (edits.filter fun edit => !edit.isRequire)).render =
          writtenLines (above ++ below) ∧
        ((new runtimeModule).applyAll edits).render =
          writtenLines (above ++ setOff ((new runtimeModule).applyAll edits).importLines ++ below) := by
  refine ⟨fun others same => (render_applyAll_congr runtimeModule same).symm,
    wholesOf runtimeModule edits, sourcesOf runtimeModule edits, fun group => ?_,
    importLines_eq runtimeModule edits, _, _, render_without_requires runtimeModule edits, render_eq _⟩
  exact ⟨areWholes_wholesOf runtimeModule edits group, areSources_sourcesOf runtimeModule edits group⟩

/-- A module's edits with imports of all groups, some of them asked for more than once. -/
def harpEdits : List Edit :=
  [.require ".strings" ["Gut", "Nylon"], .line "tuned = True" 0, .require "os" [],
    .require "cdpgen.runtime" ["WireEnum"], .require "os" ["path"], .require ".strings" ["Gut"]]

/-- The same, asked for in another order and in part again. -/
def shuffledHarpEdits : List Edit :=
  [.require "os" ["path"], .require "os" [], .require ".strings" ["Gut"], .require "os" [],
    .require ".strings" ["Gut", "Nylon"], .require "cdpgen.runtime" ["WireEnum"],
    .line "tuned = True" 0, .require "os" ["path"]]

theorem shuffled_harp_is_written_alike :
    SameBesidesOrder harpEdits shuffledHarpEdits ∧
      ((new "cdpgen.runtime").applyAll shuffledHarpEdits).render =
        ((new "cdpgen.runtime").applyAll harpEdits).render := by
  have same : SameBesidesOrder harpEdits shuffledHarpEdits := by
    refine ⟨fun module names => ?_, by decide⟩
    simp only [harpEdits, shuffledHarpEdits, List.mem_cons, Edit.require.injEq, List.not_mem_nil]
    grind
  obtain ⟨congruent, -⟩ := imports_are_sets_in_order "cdpgen.runtime" harpEdits
  exact ⟨same, congruent _ same⟩

end Buffer

end ProtocolGen.Source
