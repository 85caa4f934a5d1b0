import Mathlib.Data.List.Induction
import ProtocolGen.Proofs.Emission.Definitions
import ProtocolGen.Proofs.Naming.Identifiers
import ProtocolGen.Proofs.Package.Staging
import ProtocolGen.Proofs.Types.Classification

/-!
# All files of a package or none

A run that stops before its writes has written nothing, and what makes it stop is known: types that are
refused, code that cannot be made, or a formatter that breaks down. A run that ends well has written
each path of the package's layout once, in the order of the first flushes and with the text of the last
one.
-/

set_option autoImplicit false

namespace ProtocolGen.Package

open ProtocolGen.Types ProtocolGen.Emission ProtocolGen.Source

/-! ## Files put one after the other -/

section Files

variable {Content : Type}

def putFiles (added files : List (Path × Content)) : List (Path × Content) :=
  added.foldl (fun files file => putFile file.1 file.2 files) files

theorem paths_putFile (path : Path) (content : Content) (files : List (Path × Content)) :
    (putFile path content files).map Prod.fst =
      if path ∈ files.map Prod.fst then files.map Prod.fst else files.map Prod.fst ++ [path] := by
  induction files with
  | nil => simp [putFile]
  | cons known files ih =>
    by_cases same : known.1 = path
    · simp [putFile, same]
    · have other : path ≠ known.1 := fun equal => same equal.symm
      rw [putFile, if_neg same, List.map_cons, ih]
      simp only [List.map_cons, List.mem_cons, other, false_or]
      split <;> rfl

theorem nodup_eraseDups {Item : Type} [DecidableEq Item] (items : List Item) :
    items.eraseDups.Nodup := by
  -- What follows the first item is shorter than the list, but not its tail.
  induction same : items.length using Nat.strong_induction_on generalizing items with
  | h count ih =>
    cases items with
    | nil => simp
    | cons item items =>
      have shorter : (items.filter fun other => !other == item).length < count :=
        same ▸ Nat.lt_succ_of_le (List.length_filter_le _ _)
      rw [List.eraseDups_cons, List.nodup_cons, List.mem_eraseDups]
      exact ⟨by simp, ih _ shorter _ rfl⟩

/-- New paths come after those that are there, in the order of their first mentions. -/
theorem paths_putFiles (added files : List (Path × Content)) :
    (putFiles added files).map Prod.fst =
      files.map Prod.fst ++
        ((added.map Prod.fst).filter fun path =>
          !(files.map Prod.fst).contains path).eraseDups := by
  induction added generalizing files with
  | nil => simp [putFiles]
  | cons file added ih =>
    change (putFiles added (putFile file.1 file.2 files)).map Prod.fst = _
    rw [ih, paths_putFile, List.map_cons, List.filter_cons]
    by_cases known : file.1 ∈ files.map Prod.fst
    · rw [if_pos known, if_neg (by simpa using known)]
    · rw [if_neg known, if_pos (by simpa using known), List.eraseDups_cons, List.append_assoc,
        List.filter_filter, List.singleton_append]
      congr 4
      funext path
      rw [List.contains_append, Bool.not_or, Bool.and_comm, List.contains_cons, List.contains_nil,
        Bool.or_false]

theorem eq_or_mem_of_mem_putFile {path : Path} {content : Content} {files : List (Path × Content)}
    {file : Path × Content} (unique : (files.map Prod.fst).Nodup)
    (member : file ∈ putFile path content files) :
    file = (path, content) ∨ file.1 ≠ path ∧ file ∈ files := by
  induction files with
  | nil => exact .inl (List.mem_singleton.mp member)
  | cons known files ih =>
    rw [List.map_cons, List.nodup_cons] at unique
    by_cases same : known.1 = path
    · rw [putFile, if_pos same] at member
      rcases List.mem_cons.mp member with rfl | later
      · exact .inl rfl
      · refine .inr ⟨fun equal => unique.1 ?_, List.mem_cons_of_mem _ later⟩
        rw [same, ← equal]
        exact List.mem_map_of_mem later
    · rw [putFile, if_neg same] at member
      rcases List.mem_cons.mp member with rfl | later
      · exact .inr ⟨same, List.mem_cons_self⟩
      · rcases ih unique.2 later with equal | ⟨other, inFiles⟩
        · exact .inl equal
        · exact .inr ⟨other, List.mem_cons_of_mem _ inFiles⟩

theorem putFiles_append (added more files : List (Path × Content)) :
    putFiles (added ++ more) files = putFiles more (putFiles added files) :=
  List.foldl_append

/-- Under each path stands what was put there last. -/
theorem last_of_mem_putFiles {added : List (Path × Content)} {file : Path × Content}
    (member : file ∈ putFiles added []) : (filesAt file.1 added).getLast? = some file := by
  -- On the files added, the last one first: it either is the file or lies under another path.
  induction added using List.reverseRecOn with
  | nil => cases member
  | append_singleton added last ih =>
    rw [putFiles_append] at member
    rw [filesAt, List.filter_append]
    have unique : ((putFiles added []).map Prod.fst).Nodup := by
      rw [paths_putFiles, List.map_nil, List.nil_append]
      exact nodup_eraseDups _
    rcases eq_or_mem_of_mem_putFile unique member with rfl | ⟨other, before⟩
    · simp
    · have elsewhere : [last].filter (fun known => decide (known.1 = file.1)) = [] := by
        simpa using fun same : last.1 = file.1 => other same.symm
      rw [elsewhere, List.append_nil]
      exact ih before

end Files

/-! ## Flushes of a run -/

section Flushes

variable {formatter : Formatter} {runtimeModule : String}

/-- The path and text that a planned module is kept with, if its code is there and any is. -/
def flush? (formatter : Formatter) (runtimeModule : String) (planned : PlannedModule) :
    Option (Path × String) :=
  match planned.edits with
  | .ok edits => (keptText? formatter runtimeModule edits).map fun text => (planned.path, text)
  | .error _ => none

theorem flush?_eq {planned : PlannedModule} {edits : List Edit} (made : planned.edits = .ok edits) :
    flush? formatter runtimeModule planned =
      (keptText? formatter runtimeModule edits).map fun text => (planned.path, text) := by
  rw [flush?, made]

theorem stagePlanned_eq_ok {plan : List PlannedModule} {stage reached : Stage}
    (staged : (stagePlanned formatter (Buffer.new runtimeModule) stage plan).result = .ok reached) :
    reached.files = putFiles (plan.filterMap (flush? formatter runtimeModule)) stage.files ∧
      reached.written =
        stage.written ++ (plan.filterMap (flush? formatter runtimeModule)).map Prod.fst := by
  induction plan generalizing stage with
  | nil =>
    cases staged
    exact ⟨rfl, (List.append_nil _).symm⟩
  | cons planned rest ih =>
    obtain ⟨edits, next, made, flushed, remaining⟩ := stagePlanned_cons_ok staged
    obtain ⟨files, written⟩ := ih remaining
    rw [files, written, flushed.files, flushed.written, putKept, List.filterMap_cons, flush?_eq made]
    cases keptText? formatter runtimeModule edits with
    | none => exact ⟨rfl, by simp⟩
    | some text => exact ⟨rfl, by simp⟩

/-- A module with a declaration is kept under its path. -/
theorem path_of_declare {planned : PlannedModule} {edits : List Edit}
    (made : planned.edits = .ok edits) (declares : .declare ∈ edits) :
    (flush? formatter runtimeModule planned).map Prod.fst = some planned.path := by
  obtain ⟨text, kept⟩ : ∃ text, keptText? formatter runtimeModule edits = some text :=
    exists_keptText declares
  rw [flush?_eq made, kept]
  rfl

theorem path_of_nothing {planned : PlannedModule} (made : planned.edits = .ok []) :
    (flush? formatter runtimeModule planned).map Prod.fst = none := by
  rw [flush?_eq made, keptText?_nil]
  rfl

end Flushes

/-! ## The layout of a package -/

/-- The paths of a package in the order they are flushed: its own module and the client, a types module
for each domain with types and the one that names them, if any, then the commands and the events. -/
def layout (settings : Settings) (domains : List Domain) : List Path :=
  [moduleFile settings.packageDirectory packageModule,
      moduleFile settings.packageDirectory "client"] ++
    (typedDomains domains).map (fun domain =>
      moduleFile settings.typesDirectory (Naming.moduleName domain.name)) ++
    (if (typedDomains domains).isEmpty then []
      else [moduleFile settings.typesDirectory packageModule]) ++
    [moduleFile settings.packageDirectory "commands", moduleFile settings.packageDirectory "events"]

section Layout

variable {formatter : Formatter} {index : TypeIndex} {settings : Settings} {domains : List Domain}

theorem paths_of_leadingModules
    (stageable : ∀ planned ∈ leadingModules index settings domains,
      Stageable formatter settings.runtimeModule planned) :
    (leadingModules index settings domains).filterMap
        (fun planned => (flush? formatter settings.runtimeModule planned).map Prod.fst) =
      [moduleFile settings.packageDirectory packageModule,
        moduleFile settings.packageDirectory "client"] := by
  simp only [leadingModules, List.forall_mem_cons] at stageable
  obtain ⟨-, ⟨client, made, -⟩, -⟩ := stageable
  have packageDeclares : .declare ∈ packageEdits := by simp [packageEdits]
  have clientDeclares : .declare ∈ client :=
    front_subset_of_collectEdits made (by simp [clientClassEdits])
  rw [leadingModules, List.filterMap_cons, path_of_declare rfl packageDeclares,
    List.filterMap_cons, path_of_declare made clientDeclares]
  rfl

theorem paths_of_typesModules
    (stageable : ∀ planned ∈ domains.map (typesModule index settings),
      Stageable formatter settings.runtimeModule planned) :
    (domains.map (typesModule index settings)).filterMap
        (fun planned => (flush? formatter settings.runtimeModule planned).map Prod.fst) =
      (typedDomains domains).map fun domain =>
        moduleFile settings.typesDirectory (Naming.moduleName domain.name) := by
  induction domains with
  | nil => rfl
  | cons domain domains ih =>
    rw [List.map_cons, List.forall_mem_cons] at stageable
    obtain ⟨⟨edits, made, -⟩, others⟩ := stageable
    rw [List.map_cons, List.filterMap_cons, ih others]
    simp only [typedDomains, List.filter_cons]
    by_cases typed : domain.types = []
    · have nothing : (typesModule index settings domain).edits = .ok [] := by
        rw [typesModule, typesEdits, if_pos (by simp [typed])]
      rw [path_of_nothing nothing, if_neg (by simp [typed])]
    · rw [path_of_declare made (declare_mem_typesEdits typed made), if_pos (by simpa using typed),
        List.map_cons, typesModule]

theorem paths_of_closingModules
    (stageable : ∀ planned ∈ closingModules index settings domains,
      Stageable formatter settings.runtimeModule planned) :
    (closingModules index settings domains).filterMap
        (fun planned => (flush? formatter settings.runtimeModule planned).map Prod.fst) =
      (if (typedDomains domains).isEmpty then []
        else [moduleFile settings.typesDirectory packageModule]) ++
      [moduleFile settings.packageDirectory "commands",
        moduleFile settings.packageDirectory "events"] := by
  simp only [closingModules, List.forall_mem_cons] at stageable
  obtain ⟨-, ⟨commands, commandsMade, -⟩, ⟨events, eventsMade, -⟩, -⟩ := stageable
  have commandsDeclare : .declare ∈ commands :=
    front_subset_of_collectEdits commandsMade (by simp [commandRegistryEdits, registryEdits])
  have eventsDeclare : .declare ∈ events :=
    front_subset_of_collectEdits eventsMade (by simp [eventRegistryEdits, registryEdits])
  rw [closingModules, List.filterMap_cons, List.filterMap_cons,
    path_of_declare commandsMade commandsDeclare, List.filterMap_cons,
    path_of_declare eventsMade eventsDeclare]
  by_cases typed : (typedDomains domains).isEmpty
  · rw [path_of_nothing (by simp [typesPackageEdits, typed]), if_pos typed]
    rfl
  · rw [path_of_declare rfl (by simp [typesPackageEdits, typed]), if_neg typed]
    rfl

/-- The flushes that keep something are those of the layout. -/
theorem paths_of_plan
    (stageable : ∀ planned ∈ plan index settings domains,
      Stageable formatter settings.runtimeModule planned) :
    ((plan index settings domains).filterMap (flush? formatter settings.runtimeModule)).map
      Prod.fst = layout settings domains := by
  simp only [plan, List.forall_mem_append] at stageable
  obtain ⟨⟨leading, types⟩, closing⟩ := stageable
  rw [List.map_filterMap, plan, List.filterMap_append, List.filterMap_append,
    paths_of_leadingModules leading, paths_of_typesModules types, paths_of_closingModules closing,
    layout, List.append_assoc, List.append_assoc, List.append_assoc]

end Layout

/-! ## All or nothing -/

/-- Domains whose package can be staged: their types are accepted and each module can be flushed. -/
def Generatable (formatter : Formatter) (settings : Settings) (domains : List Domain) : Prop :=
  ∃ index, classify domains = .ok index ∧
    ∀ planned ∈ plan index settings domains, Stageable formatter settings.runtimeModule planned

theorem exists_stage_eq_error_iff {formatter : Formatter} {settings : Settings}
    {domains : List Domain} :
    (∃ failure, (stage formatter settings domains).result = .error failure) ↔
      ¬ Generatable formatter settings domains := by
  have ok_iff : (∃ result, (stage formatter settings domains).result = .ok result) ↔
      Generatable formatter settings domains := by
    simp only [Prod.exists, stage_eq_ok_iff, Generatable, exists_and_left,
      exists_stagePlanned_eq_ok_iff]
  rw [← ok_iff]
  cases (stage formatter settings domains).result <;> simp

/-- One write for each path of the layout, in the order in which the paths are first flushed, with the
text that is flushed last under the path. -/
structure WritesLayout (formatter : Formatter) (index : TypeIndex) (settings : Settings)
    (domains : List Domain) (written : List (Path × ByteArray)) : Prop where
  paths : written.map Prod.fst = (layout settings domains).eraseDups
  texts : ∀ file ∈ written, ∃ text, file.2 = text.toUTF8 ∧
    (filesAt file.1 ((plan index settings domains).filterMap
      (flush? formatter settings.runtimeModule))).getLast? = some (file.1, text)

theorem writesLayout_of_stage {formatter : Formatter} {index : TypeIndex} {settings : Settings}
    {domains : List Domain} {reached : Stage}
    (staged : (stage formatter settings domains).result = .ok (index, reached)) :
    WritesLayout formatter index settings domains reached.writes ∧
      reached.written = layout settings domains := by
  obtain ⟨-, rendered⟩ := stage_eq_ok_iff.mp staged
  have stageable := exists_stagePlanned_eq_ok_iff.mp ⟨reached, rendered⟩
  obtain ⟨files, flushed⟩ := stagePlanned_eq_ok rendered
  simp only [Stage.empty] at files flushed
  rw [paths_of_plan stageable, List.nil_append] at flushed
  refine ⟨⟨?_, fun file member => ?_⟩, flushed⟩
  · have paths := paths_putFiles
      ((plan index settings domains).filterMap (flush? formatter settings.runtimeModule)) []
    rw [← files, paths_of_plan stageable] at paths
    simpa [Stage.writes, Function.comp_def] using paths
  · obtain ⟨kept, inFiles, rfl⟩ := List.mem_map.mp member
    exact ⟨kept.2, rfl, last_of_mem_putFiles (files ▸ inFiles)⟩

theorem nodup_paths_writes {formatter : Formatter} {index : TypeIndex} {settings : Settings}
    {domains : List Domain} {reached : Stage}
    (staged : (stage formatter settings domains).result = .ok (index, reached)) :
    (reached.writes.map Prod.fst).Nodup := by
  rw [(writesLayout_of_stage staged).1.paths]
  exact nodup_eraseDups _

/-- A run fails before its writes exactly when the package cannot be staged, and then whatever would
take the files is left as it was. When a run ends well, its persister has taken the layout. -/
theorem generate_writes_nothing_or_layout {State : Type} (formatter : Formatter)
    (persister : Persister State) (settings : Settings) (domains : List Domain) (before : State) :
    ((∃ failure, (stage formatter settings domains).result = .error failure) ↔
      ¬ Generatable formatter settings domains) ∧
    (∀ failure, (stage formatter settings domains).result = .error failure →
      ∃ events, generate formatter persister settings domains before =
        (before, ⟨events, .error failure⟩)) ∧
    ∀ after written events reached,
      generate formatter persister.recording settings domains (before, []) =
          ((after, written), ⟨events, .ok reached⟩) →
        ∃ index, classify domains = .ok index ∧ reached.written = layout settings domains ∧
          WritesLayout formatter index settings domains written := by
  refine ⟨exists_stage_eq_error_iff, fun failure failed => ⟨_, generate_of_stage_error failed⟩, ?_⟩
  intro after written events reached generated
  obtain ⟨index, accepted, rendered, persisted⟩ := generate_eq_ok generated
  have staged := stage_eq_ok_iff.mpr ⟨accepted, rendered⟩
  obtain ⟨writes, flushed⟩ := writesLayout_of_stage staged
  have taken : written = reached.writes := persistAll_recording persisted
  exact ⟨index, accepted, flushed, taken ▸ writes⟩

def bellTone : TypeDeclaration :=
  ⟨.plain ⟨none, some "string", none, some ["low", "high"]⟩, "Tone", none, false, false⟩

/-- Two domains whose types modules have one path. -/
def bells : List Domain :=
  [⟨"BELL", none, false, false, [bellTone], [], []⟩, ⟨"Bell", none, false, false, [bellTone], [], []⟩]

theorem bells_write_layout :
    ∃ written events reached index,
      generate .ok taker.recording Settings.default bells ((), []) =
        (((), written), ⟨events, .ok reached⟩) ∧
      layout Settings.default bells ≠ (layout Settings.default bells).eraseDups ∧
      WritesLayout .ok index Settings.default bells written := by
  have accepted : classify bells = .ok ⟨[⟨"BELL", "Tone", .enumeration, true, bellTone⟩,
      ⟨"Bell", "Tone", .enumeration, true, bellTone⟩]⟩ :=
    classify_of_unreferring [⟨"BELL", bellTone, .enumeration, rfl⟩,
      ⟨"Bell", bellTone, .enumeration, rfl⟩] rfl rfl (by decide)
  obtain ⟨written, events, reached, generated⟩ := exists_run_of_codes accepted rfl
  obtain ⟨index, -, -, writes⟩ :=
    (generate_writes_nothing_or_layout .ok taker Settings.default bells ()).2.2 _ _ _ _ generated
  have shared : Naming.moduleName "BELL" = Naming.moduleName "Bell" :=
    Naming.moduleName_congr (by decide)
  have twice : ¬ (layout Settings.default bells).Nodup := by
    intro unique
    have types := unique.of_append_left.of_append_left.of_append_right
    exact (List.nodup_cons.mp types).1 (List.mem_singleton.mpr (congrArg (moduleFile _) shared))
  exact ⟨written, events, reached, index, generated, fun same => twice (same ▸ nodup_eraseDups _),
    writes⟩

end ProtocolGen.Package
