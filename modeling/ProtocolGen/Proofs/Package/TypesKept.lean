import ProtocolGen.Proofs.Emission.DefinitionLines
import ProtocolGen.Proofs.Package.FormatFaults

/-!
# Types that are kept

A domain with types is planned a module of its own, but under a name that other domains may share with
it. Then one path is flushed for all of them and the last one's text is kept. So no path comes again
exactly when the names of the types modules differ, and a domain's types are defined in the package
unless a later domain with types has a module of the same name.
-/

set_option autoImplicit false

namespace ProtocolGen.Package

open ProtocolGen.Types ProtocolGen.Emission ProtocolGen.Source

/-- The names of the types modules, in the order of the domains. -/
def moduleNames (domains : List Domain) : List String :=
  (typedDomains domains).map fun domain => Naming.moduleName domain.name

/-- A text has a line that defines a name. -/
def HasDefinition (contents name : String) : Prop :=
  ∃ line : String, line.toList ∈ linesOf contents.toList ∧ IsDefinition name line

theorem mem_moduleNames_iff {domains : List Domain} {module : String} :
    module ∈ moduleNames domains ↔
      ∃ domain ∈ domains, domain.types ≠ [] ∧ Naming.moduleName domain.name = module := by
  simp [moduleNames, typedDomains, and_assoc]

/-! ## Paths that come again -/

section Paths

variable {settings : Settings} {domains : List Domain}

theorem nodup_typesPaths_iff :
    ((moduleNames domains).map (moduleFile settings.typesDirectory)).Nodup ↔
      (moduleNames domains).Nodup := by
  refine ⟨List.Nodup.of_map _, List.Nodup.map_on fun module member other otherMember same => ?_⟩
  obtain ⟨domain, -, -, rfl⟩ := mem_moduleNames_iff.mp member
  obtain ⟨otherDomain, -, -, rfl⟩ := mem_moduleNames_iff.mp otherMember
  exact moduleFile_inj (Path.isPart_moduleName _) (Path.isPart_moduleName _) same

/-- The paths of a package that are not those of types modules. -/
def fixedPaths (settings : Settings) (typed : Bool) : List Path :=
  [moduleFile settings.packageDirectory packageModule,
      moduleFile settings.packageDirectory "client"] ++
    ((if typed then [moduleFile settings.typesDirectory packageModule] else []) ++
      [moduleFile settings.packageDirectory "commands",
        moduleFile settings.packageDirectory "events"])

theorem layout_perm : (layout settings domains).Perm
    ((moduleNames domains).map (moduleFile settings.typesDirectory) ++
      fixedPaths settings !(typedDomains domains).isEmpty) := by
  have paths : (typedDomains domains).map (fun domain =>
        moduleFile settings.typesDirectory (Naming.moduleName domain.name)) =
      (moduleNames domains).map (moduleFile settings.typesDirectory) := by
    simp only [moduleNames, List.map_map, Function.comp_def]
  have own : (if (typedDomains domains).isEmpty then []
        else [moduleFile settings.typesDirectory packageModule]) =
      if !(typedDomains domains).isEmpty then
        [moduleFile settings.typesDirectory packageModule] else [] := by
    cases (typedDomains domains).isEmpty <;> rfl
  rw [layout, paths, own, fixedPaths, List.append_assoc, List.append_assoc]
  exact List.perm_append_comm_assoc _ _ _

theorem moduleName_not_mem_fixedModules (domain : String) :
    Naming.moduleName domain ∉ fixedModules := by
  have others : ["client", "commands", "events"] ⊆ Naming.reservedModules := by decide
  intro fixed
  rcases List.mem_cons.mp fixed with own | beside
  · exact moduleName_ne_packageModule domain own.symm
  · exact Naming.moduleName_not_mem_reservedModules domain (others beside)

theorem exists_fixed_of_mem_fixedPaths {typed : Bool} {path : Path}
    (member : path ∈ fixedPaths settings typed) :
    ∃ directory, ∃ name ∈ fixedModules, path = moduleFile directory name := by
  simp only [fixedPaths, List.mem_append, List.mem_cons, List.mem_ite_nil_right, List.not_mem_nil,
    or_false] at member
  rcases member with (rfl | rfl) | ⟨-, rfl⟩ | rfl | rfl
  all_goals exact ⟨_, _, by decide, rfl⟩

theorem not_mem_fixedPaths (typed : Bool) (domain : String) :
    moduleFile settings.typesDirectory (Naming.moduleName domain) ∉ fixedPaths settings typed := by
  intro member
  obtain ⟨directory, name, fixed, same⟩ := exists_fixed_of_mem_fixedPaths member
  refine moduleFile_ne_of_names (Path.isPart_moduleName domain) (isPart_fixedModule fixed) ?_ same
  rintro rfl
  exact moduleName_not_mem_fixedModules domain fixed

variable (typesPart : Path.IsPart settings.typesPackage)

include typesPart

theorem nodup_fixedPaths (typed : Bool) : (fixedPaths settings typed).Nodup := by
  have own : moduleFile settings.packageDirectory packageModule ≠
      moduleFile settings.typesDirectory packageModule :=
    moduleFile_ne_of_directories typesPart (isPart_fixedModule (by decide))
      (isPart_fixedModule (by decide))
  cases typed <;> simp (disch := decide) [fixedPaths, fixed_ne_fixed, own]

/-- The paths of a package differ, those of types modules apart. -/
theorem nodup_layout_iff : (layout settings domains).Nodup ↔ (moduleNames domains).Nodup := by
  rw [layout_perm.nodup_iff, List.nodup_append, nodup_typesPaths_iff]
  refine and_iff_left ⟨nodup_fixedPaths typesPart _, ?_⟩
  intro path inTypes other fixed same
  obtain ⟨module, member, rfl⟩ := List.mem_map.mp inTypes
  obtain ⟨domain, -, -, rfl⟩ := mem_moduleNames_iff.mp member
  subst same
  exact not_mem_fixedPaths _ domain.name fixed

end Paths

/-! ## The last module under a path -/

section Last

variable {formatter : Formatter} {index : TypeIndex} {settings : Settings}

theorem path_of_flush? {runtimeModule : String} {planned : PlannedModule} {file : Path × String}
    (flushed : flush? formatter runtimeModule planned = some file) : file.1 = planned.path := by
  unfold flush? at flushed
  split at flushed
  · obtain ⟨text, -, rfl⟩ := Option.map_eq_some_iff.mp flushed
    rfl
  · cases flushed

theorem flush?_of_untyped {domain : Domain} (untyped : domain.types = []) :
    flush? formatter settings.runtimeModule (typesModule index settings domain) = none := by
  have nothing : (typesModule index settings domain).edits = .ok [] := by
    rw [typesModule, typesEdits, if_pos (by simp [untyped])]
  rw [flush?_eq nothing, keptText?_nil]
  rfl

/-- Modules that keep nothing under a path leave it as it is. -/
theorem filesAt_flushes_eq_nil {path : Path} {modules : List PlannedModule}
    (elsewhere : ∀ planned ∈ modules, planned.path = path →
      flush? formatter settings.runtimeModule planned = none) :
    filesAt path (modules.filterMap (flush? formatter settings.runtimeModule)) = [] := by
  rw [filesAt, List.filter_eq_nil_iff]
  intro file inFlushes
  obtain ⟨planned, member, flushed⟩ := List.mem_filterMap.mp inFlushes
  rw [decide_eq_true_eq, path_of_flush? flushed]
  intro same
  cases flushed.symm.trans (elsewhere planned member same)

variable (formatter index) (domains : List Domain)
  (typesPart : Path.IsPart settings.typesPackage)

include typesPart

/-- Behind the types module of a domain, when no later domain with types has one of the same name,
nothing is kept under its path. -/
theorem filesAt_after_typesModule {last : List Domain} {domain : Domain}
    (new : Naming.moduleName domain.name ∉ moduleNames last) :
    filesAt (moduleFile settings.typesDirectory (Naming.moduleName domain.name))
      ((last.map (typesModule index settings) ++ closingModules index settings domains).filterMap
        (flush? formatter settings.runtimeModule)) = [] := by
  refine filesAt_flushes_eq_nil fun planned member same => ?_
  rcases List.mem_append.mp member with later | closing
  · obtain ⟨other, inLast, rfl⟩ := List.mem_map.mp later
    rw [path_typesModule] at same
    have names := moduleFile_inj (Path.isPart_moduleName _) (Path.isPart_moduleName _) same
    by_contra kept
    exact new (mem_moduleNames_iff.mpr ⟨other, inLast, mt flush?_of_untyped kept, names⟩)
  · have apart : planned.path ≠ (typesModule index settings domain).path :=
      path_ne_of_mem_leading_or_closing typesPart (.inr closing)
    rw [path_typesModule] at apart
    exact absurd same apart

/-- The text that is kept last under the path of a types module is that of its own code, when no later
domain with types has a module of the same name. -/
theorem getLast?_filesAt_flushes {first last : List Domain} {domain : Domain} {edits : List Edit}
    {contents : String} (new : Naming.moduleName domain.name ∉ moduleNames last)
    (made : typesEdits index settings.runtimeModule domain = .ok edits)
    (kept : keptText? formatter settings.runtimeModule edits = some contents) :
    (filesAt (moduleFile settings.typesDirectory (Naming.moduleName domain.name))
      ((plan index settings (first ++ domain :: last)).filterMap
        (flush? formatter settings.runtimeModule))).getLast? =
      some (moduleFile settings.typesDirectory (Naming.moduleName domain.name), contents) := by
  have own : flush? formatter settings.runtimeModule (typesModule index settings domain) =
      some (moduleFile settings.typesDirectory (Naming.moduleName domain.name), contents) := by
    rw [flush?_eq made, kept, Option.map_some, path_typesModule]
  have split : plan index settings (first ++ domain :: last) =
      (leadingModules index settings (first ++ domain :: last) ++
        first.map (typesModule index settings)) ++
      typesModule index settings domain ::
        (last.map (typesModule index settings) ++
          closingModules index settings (first ++ domain :: last)) := by
    simp only [plan, List.map_append, List.map_cons, List.append_assoc, List.cons_append]
  have behind := filesAt_after_typesModule formatter index (first ++ domain :: last) typesPart new
  unfold filesAt at behind ⊢
  rw [split, List.filterMap_append, List.filterMap_cons, own, List.filter_append,
    List.filter_cons_of_pos (by simp), behind, List.getLast?_concat]

end Last

theorem filesAt_eq_singleton {Content : Type} {files : List (Path × Content)} {file : Path × Content}
    (unique : (files.map Prod.fst).Nodup) (member : file ∈ files) : filesAt file.1 files = [file] := by
  induction files with
  | nil => cases member
  | cons known files ih =>
    rw [List.map_cons, List.nodup_cons] at unique
    have elsewhere (other : Path × Content) (later : other ∈ files) : other.1 ≠ known.1 :=
      fun same => unique.1 (same ▸ List.mem_map_of_mem later)
    rcases List.mem_cons.mp member with rfl | later
    · have none : filesAt file.1 files = [] := by
        simpa [filesAt, List.filter_eq_nil_iff] using elsewhere
      unfold filesAt at none ⊢
      rw [List.filter_cons_of_pos (by simp), none]
    · have other : known.1 ≠ file.1 := (elsewhere file later).symm
      unfold filesAt at ih ⊢
      rw [List.filter_cons_of_neg (by simpa using other), ih unique.2 later]

/-- Under a path of the layout stands one file, with the text that is kept last. -/
theorem WritesLayout.filesAt_eq {formatter : Formatter} {index : TypeIndex} {settings : Settings}
    {domains : List Domain} {written : List (Path × ByteArray)} {path : Path} {contents : String}
    (writes : WritesLayout formatter index settings domains written)
    (unique : (written.map Prod.fst).Nodup) (inLayout : path ∈ layout settings domains)
    (lastKept : (filesAt path ((plan index settings domains).filterMap
      (flush? formatter settings.runtimeModule))).getLast? = some (path, contents)) :
    filesAt path written = [(path, contents.toUTF8)] := by
  have member : path ∈ written.map Prod.fst := by
    rw [writes.paths, List.mem_eraseDups]
    exact inLayout
  obtain ⟨⟨_, bytes⟩, inWritten, rfl⟩ := List.mem_map.mp member
  obtain ⟨text, rfl, ownLast⟩ := writes.texts _ inWritten
  obtain rfl : contents = text :=
    (Prod.mk.inj (Option.some.inj (lastKept.symm.trans ownLast))).2
  exact filesAt_eq_singleton unique inWritten

/-- The text that is kept of a types module defines all types of its domain. -/
theorem hasDefinition_of_keptText {index : TypeIndex} {runtimeModule contents : String}
    {domain : Domain} {edits : List Edit} {declaration : TypeDeclaration}
    (made : typesEdits index runtimeModule domain = .ok edits)
    (kept : keptText? format runtimeModule edits = some contents)
    (declared : declaration ∈ domain.types) :
    HasDefinition contents (Naming.className declaration.id) := by
  obtain ⟨line, member, definition⟩ := exists_definitionLine_of_mem declared made
  have unindented : (Buffer.indented line 0).toList = line.toList :=
    Buffer.toList_indented 0 definition.isDefinition.ne_empty
  refine ⟨line, ?_, definition.isDefinition⟩
  rw [← unindented]
  exact mem_linesOf_keptText_of_line kept member (unindented ▸ definition.isSolid)

/-- What is returned of a run that ends well has no path twice exactly when the names of the types
modules differ. Where no later domain with types has a module of the same name, the one file under a
domain's path defines all of its types. -/
theorem types_kept_by_last_module {State : Type} {persister : Persister State} {draft : Draft}
    {settings : Settings} {domains : List Domain} {before after : State}
    {written : List (Path × ByteArray)} {events : List Log.Event} {reached : Stage}
    (valid : draft.validate = .ok settings)
    (generated : generate format persister.recording settings domains (before, []) =
      ((after, written), ⟨events, .ok reached⟩)) :
    (reached.written.Nodup ↔ (moduleNames domains).Nodup) ∧
    ∀ first domain last, domains = first ++ domain :: last → domain.types ≠ [] →
      Naming.moduleName domain.name ∉ moduleNames last →
      let path := moduleFile settings.typesDirectory (Naming.moduleName domain.name)
      ∃ contents : String, filesAt path written = [(path, contents.toUTF8)] ∧
        ∀ declaration ∈ domain.types,
          HasDefinition contents (Naming.className declaration.id) := by
  have typesPart := isPart_typesPackage valid
  obtain ⟨index, accepted, rendered, persisted⟩ := generate_eq_ok generated
  have staged := stage_eq_ok_iff.mpr ⟨accepted, rendered⟩
  obtain ⟨writes, flushed⟩ := writesLayout_of_stage staged
  obtain rfl : written = reached.writes := persistAll_recording persisted
  refine ⟨by rw [flushed, nodup_layout_iff typesPart], ?_⟩
  rintro first domain last rfl typed new path
  have inPlan : typesModule index settings domain ∈
      plan index settings (first ++ domain :: last) := by simp [plan]
  obtain ⟨edits, made, -⟩ := exists_stagePlanned_eq_ok_iff.mp ⟨reached, rendered⟩ _ inPlan
  obtain ⟨contents, kept⟩ : ∃ contents,
      keptText? format settings.runtimeModule edits = some contents :=
    exists_keptText (declare_mem_typesEdits typed made)
  have inLayout : path ∈ layout settings (first ++ domain :: last) := by
    have module : Naming.moduleName domain.name ∈ moduleNames (first ++ domain :: last) :=
      mem_moduleNames_iff.mpr ⟨domain, by simp, typed, rfl⟩
    exact layout_perm.mem_iff.mpr (List.mem_append_left _ (List.mem_map_of_mem module))
  exact ⟨contents,
    writes.filesAt_eq (nodup_paths_writes staged) inLayout
      (getLast?_filesAt_flushes format index typesPart new made kept),
    fun declaration declared => hasDefinition_of_keptText made kept declared⟩

def chimeType (id : String) : TypeDeclaration :=
  ⟨.plain ⟨none, some "string", none, some ["low", "high"]⟩, id, none, false, false⟩

def chime (name type : String) : Domain :=
  ⟨name, none, false, false, [chimeType type], [], []⟩

/-- Two domains with types whose modules have one name. -/
def chimes : List Domain := [chime "CHIME" "Strike", chime "Chime" "Pitch"]

theorem exists_run_chimes : ∃ written events reached,
    generate format taker.recording Settings.default chimes ((), []) =
      (((), written), ⟨events, .ok reached⟩) := by
  have accepted : classify chimes = .ok
      ⟨[⟨"CHIME", "Strike", .enumeration, true, chimeType "Strike"⟩,
        ⟨"Chime", "Pitch", .enumeration, true, chimeType "Pitch"⟩]⟩ :=
    classify_of_unreferring [⟨"CHIME", chimeType "Strike", .enumeration, rfl⟩,
      ⟨"Chime", chimeType "Pitch", .enumeration, rfl⟩] rfl rfl (by decide)
  exact exists_run_of_shown hasPlainNames_default accepted rfl (by decide)

/-- One file holds the types of the later domain, and the path of both is returned twice. -/
theorem chimes_share_a_module :
    Document.merge [⟨none, chimes⟩] = .ok chimes ∧
    Naming.moduleName "CHIME" = Naming.moduleName "Chime" ∧
    ∃ written events reached, generate format taker.recording Settings.default chimes ((), []) =
        (((), written), ⟨events, .ok reached⟩) ∧ ¬ reached.written.Nodup := by
  have typesPart : Path.IsPart Settings.default.typesPackage := ⟨by decide, by decide, by decide⟩
  obtain ⟨written, events, reached, generated⟩ := exists_run_chimes
  obtain ⟨index, accepted, rendered, -⟩ := generate_eq_ok generated
  obtain ⟨-, flushed⟩ := writesLayout_of_stage (stage_eq_ok_iff.mpr ⟨accepted, rendered⟩)
  have shared : Naming.moduleName "CHIME" = Naming.moduleName "Chime" :=
    Naming.moduleName_congr (by decide)
  refine ⟨?_, shared, written, events, reached, generated, ?_⟩
  · have distinct : Document.repeatedFrom [] (chimes.map Domain.name) = [] := by decide
    have sorted : chimes.mergeSort (fun left right => decide (left.name ≤ right.name)) = chimes :=
      List.mergeSort_of_pairwise (by decide)
    rw [Document.merge, List.flatMap_singleton, Document.mergeDomains, distinct]
    exact congrArg Except.ok sorted
  · rw [flushed, nodup_layout_iff typesPart]
    exact fun unique => (List.nodup_cons.mp unique).1 (List.mem_singleton.mpr shared)

theorem chime_pitch_is_kept :
    ∃ written events reached contents,
      generate format taker.recording Settings.default chimes ((), []) =
        (((), written), ⟨events, .ok reached⟩) ∧
      filesAt (moduleFile Settings.default.typesDirectory (Naming.moduleName "Chime")) written =
        [(moduleFile Settings.default.typesDirectory (Naming.moduleName "Chime"),
          contents.toUTF8)] ∧
      HasDefinition contents "Pitch" := by
  obtain ⟨written, events, reached, generated⟩ := exists_run_chimes
  obtain ⟨-, kept⟩ := types_kept_by_last_module validate_default generated
  have new : Naming.moduleName (chime "Chime" "Pitch").name ∉ moduleNames [] := List.not_mem_nil
  obtain ⟨contents, files, definitions⟩ :=
    kept [chime "CHIME" "Strike"] (chime "Chime" "Pitch") [] rfl (List.cons_ne_nil _ _) new
  have defined : HasDefinition contents (Naming.className "Pitch") :=
    definitions (chimeType "Pitch") (List.mem_singleton_self _)
  have spelled : Naming.pascal "Pitch" = "Pitch" := by decide
  have name : Naming.className "Pitch" = "Pitch" := by
    rw [Naming.className, spelled]
    exact Naming.safeIdentifier_of_plain (by decide) (by decide) (by decide)
  rw [name] at defined
  exact ⟨written, events, reached, contents, generated, files, defined⟩

end ProtocolGen.Package
