import ProtocolGen.Proofs.Emission.AnyNames
import ProtocolGen.Proofs.Package.Facade
import ProtocolGen.Proofs.Package.Layout
import ProtocolGen.Proofs.Package.PlannedCode

/-!
# Imports of `Any` in written packages

In the files of a package the name `Any` in an annotation is imported from `typing`, but for the client,
which never imports it. The client's annotations name it where a function that builds arguments takes a
required value of any type or a table, so such a function refers to a name that its module does not have.
-/

set_option autoImplicit false

namespace ProtocolGen.Package

open ProtocolGen.Types ProtocolGen.Emission ProtocolGen.Source

def clientFile (settings : Settings) : Path := moduleFile settings.packageDirectory "client"

/-- A file of a written package: a module of the plan with its path and code, and the text that is kept
of it. -/
structure IsPlanned (settings : Settings) (index : TypeIndex) (domains : List Domain)
    (file : Path × ByteArray) (edits : List Edit) (contents : String) : Prop where
  planned : ⟨file.1, .ok edits⟩ ∈ plan index settings domains
  kept : keptText? format settings.runtimeModule edits = some contents
  bytes : file.2 = contents.toUTF8

/-- The import section of a written module takes a name from another, in a line of the module's text. -/
structure Imports (runtimeModule : String) (edits : List Edit) (contents module name : String) :
    Prop where
  named : name ∈ ((Buffer.new runtimeModule).applyAll edits).namesFrom module
  listed : importLine module (((Buffer.new runtimeModule).applyAll edits).namesFrom module) ∈
    ((Buffer.new runtimeModule).applyAll edits).importLines
  written : (importLine module
    (((Buffer.new runtimeModule).applyAll edits).namesFrom module)).toList ∈ linesOf contents.toList

theorem mem_namesFrom_new_iff {runtimeModule module name : String} {edits : List Edit} :
    name ∈ ((Buffer.new runtimeModule).applyAll edits).namesFrom module ↔
      (module, name) ∈ requiredNames edits := by
  rw [Buffer.mem_namesFrom_iff, Buffer.names_applyAll, ← requiredNames]
  simp [Buffer.new]

theorem Imports.of_takesAny {runtimeModule contents : String} {edits : List Edit}
    (takes : TakesAny edits) (named : "Any" ∈ annotationNames edits)
    (kept : keptText? format runtimeModule edits = some contents) :
    Imports runtimeModule edits contents "typing" "Any" := by
  have taken : "Any" ∈ ((Buffer.new runtimeModule).applyAll edits).namesFrom "typing" :=
    mem_namesFrom_new_iff.mpr (takes.covers named)
  have listed := Buffer.importLine_mem_importLines (Buffer.mem_namesFrom_iff.mp taken)
  have solid : IsSolid (importLine "typing"
      (((Buffer.new runtimeModule).applyAll edits).namesFrom "typing")).toList := by
    refine isSolid_importLine (by decide) (List.ne_nil_of_mem taken) fun name member => ?_
    exact takes.words name (mem_namesFrom_new_iff.mp member)
  have rendered := Buffer.mem_linesOf_render_of_mem_importLines solid listed
  exact ⟨taken, listed, mem_linesOf_keptText kept solid rendered⟩

/-! ## The modules of a plan -/

section Plan

variable {index : TypeIndex} {settings : Settings} {domains : List Domain}

theorem takesAny_packageEdits : TakesAny packageEdits := by
  refine .of_silent (by decide) fun name required => ?_
  have asked : requiredNames packageEdits = [(".client", "Client")] := rfl
  rw [asked] at required
  simp at required

theorem takesAny_typesPackageEdits (modules : List String) : TakesAny (typesPackageEdits modules) := by
  have entries : annotationNames (modules.map fun module => .line ("\"" ++ module ++ "\",") 1) = [] := by
    rw [annotationNames, List.flatMap_map, List.flatMap_eq_nil_iff]
    intro module _
    rw [annotationNamesOf, String.append_assoc, lineAnnotations_of_start (by decide)]
    rfl
  have asked : requiredNames (modules.map fun module => .line ("\"" ++ module ++ "\",") 1) = [] := by
    rw [List.map_eq_flatMap]
    exact requiredNames_flatMap_eq_nil (fun _ => rfl) modules
  unfold typesPackageEdits
  split
  · exact .nil
  · refine .of_silent ?_ ?_
    · rw [annotationNames_append, annotationNames_append, entries]
      simp (disch := decide) [annotationNames, annotationNamesOf, lineAnnotations_of_bare]
    · intro name required
      rw [requiredNames_append, requiredNames_append, asked] at required
      cases required

theorem typesPackageName_ne_typing : typesPackageName settings ≠ "typing" := by
  intro same
  have first := congrArg (fun name => name.toList.head?) same
  simp [typesPackageName] at first

/-- Every module of a plan but the client takes `Any` when it names it. -/
theorem takesAny_of_mem_plan {path : Path} {edits : List Edit}
    (planned : ⟨path, .ok edits⟩ ∈ plan index settings domains)
    (other : path ≠ clientFile settings) : TakesAny edits := by
  cases plannedCode_of_mem_plan planned with
  | package => exact takesAny_packageEdits
  | client => exact absurd rfl other
  | types domain member made => exact takesAny_typesEdits made
  | typesPackage => exact takesAny_typesPackageEdits _
  | commands made => exact takesAny_commandsEdits typesPackageName_ne_typing made
  | events made => exact takesAny_eventsEdits typesPackageName_ne_typing made

theorem exists_isPlanned {written : List (Path × ByteArray)}
    (writes : WritesLayout format index settings domains written) {file : Path × ByteArray}
    (member : file ∈ written) :
    ∃ edits contents, IsPlanned settings index domains file edits contents := by
  obtain ⟨contents, bytes, last⟩ := writes.texts file member
  have flushed := (List.mem_filter.mp (List.mem_of_getLast? last)).1
  obtain ⟨⟨path, code⟩, inPlan, kept⟩ := List.mem_filterMap.mp flushed
  cases code with
  | error failure => cases kept
  | ok edits =>
    obtain ⟨text, keptText, same⟩ := Option.map_eq_some_iff.mp kept
    cases same
    exact ⟨edits, contents, inPlan, keptText, bytes⟩

end Plan

/-- In a package of a run that ends well each file but the client imports `Any` from `typing` where an
annotation in it names `Any`. The client imports it from nowhere, and its annotations name `Any` exactly
where a function that builds the arguments of a command takes a required one of any type or a table, or
where a domain has a class of that name. -/
theorem any_is_imported_except_by_client {State : Type} {persister : Persister State}
    {settings : Settings} {domains : List Domain} {before after : State}
    {written : List (Path × ByteArray)} {events : List Log.Event} {reached : Stage}
    (generated : generate format persister.recording settings domains (before, []) =
      ((after, written), ⟨events, .ok reached⟩)) :
    ∃ index, classify domains = .ok index ∧
      (∀ file ∈ written, ∃ edits contents, IsPlanned settings index domains file edits contents ∧
        (file.1 ≠ clientFile settings → "Any" ∈ annotationNames edits →
          Imports settings.runtimeModule edits contents "typing" "Any")) ∧
      ∃ clientCode client,
        IsWritten written settings "client"
          (clientEdits index settings.runtimeModule (typesPackageName settings) domains)
          clientCode client ∧
        (∀ module, "Any" ∉
          ((Buffer.new settings.runtimeModule).applyAll clientCode).namesFrom module) ∧
        ("Any" ∈ annotationNames clientCode ↔
          ∃ domain ∈ domains, Naming.domainClass domain.name = "Any" ∨
            ∃ command ∈ buildableCommands domain, ∃ property ∈ requiredParameters command, ∃ ref,
              index.resolve domain.name (some property.name) property.expression = .ok ref ∧
                namesAny ref) := by
  obtain ⟨index, accepted, staged, persisted⟩ := generate_eq_ok generated
  obtain ⟨clientCode, client, clientWritten⟩ :=
    exists_isWritten (standsAlone_client index settings domains)
      (fun edits made => front_subset_of_collectEdits made (by simp [clientClassEdits]))
      staged persisted
  refine ⟨index, accepted, ?_, clientCode, client, clientWritten, ?_, ?_⟩
  · obtain rfl : written = reached.writes := persistAll_recording persisted
    have writes := (writesLayout_of_stage (stage_eq_ok_iff.mpr ⟨accepted, staged⟩)).1
    intro file member
    obtain ⟨edits, contents, isPlanned⟩ := exists_isPlanned writes member
    refine ⟨edits, contents, isPlanned, fun other named => ?_⟩
    exact .of_takesAny (takesAny_of_mem_plan isPlanned.planned other) named isPlanned.kept
  · intro module taken
    exact any_not_mem_requiredNames_clientEdits clientWritten.made module
      (mem_namesFrom_new_iff.mp taken)
  · exact any_mem_annotationNames_clientEdits_iff clientWritten.made

/-! ## A function of a value of any type -/

def kilnParameter (name : String) (expression : TypeExpression) (optional : Bool) : Property :=
  ⟨expression, name, optional, false, false⟩

def kilnFire : Command :=
  ⟨"fire", none, [kilnParameter "curve" (.plain ⟨none, some "any", none, none⟩) false,
    kilnParameter "marks" (.withItems ⟨none, some "array", none, none⟩
      (.plain ⟨none, some "object", none, none⟩)) false,
    kilnParameter "slow" (.plain ⟨none, some "boolean", none, none⟩) true], [], false, false⟩

/-- A domain with a command that takes a value of any type and may be slow. -/
def kiln : Domain := ⟨"Kiln", none, false, false, [], [kilnFire], []⟩

theorem classify_kiln : classify [kiln] = .ok ⟨[]⟩ := rfl

theorem exists_run_kiln : ∃ written events reached,
    generate format taker.recording Settings.default [kiln] ((), []) =
      (((), written), ⟨events, .ok reached⟩) :=
  exists_run_of_shown hasPlainNames_default classify_kiln rfl (by decide)

def kilnHead : String :=
  "def new_kiln_fire_args(curve: Any, marks: list[dict[str, Any]]) -> " ++ "commands.KilnFireArgs:"

theorem attributeName_kiln {name : String} (member : name ∈ ["curve", "marks"]) :
    Naming.attributeName name = name := by
  have spelled : ∀ name ∈ ["curve", "marks"], Naming.attributeSpelling name = name := by decide
  have letters : ∀ name ∈ ["curve", "marks"], ¬ name.toList.head?.any Char.isDigit := by decide
  have other : ∀ name ∈ ["curve", "marks"], name ∉ Text.keywords ++ Naming.reservedNames := by decide
  exact Naming.attributeName_of_plain (spelled name member) (letters name member) (other name member)

theorem argsConstructorHead_kiln :
    "def " ++ Naming.argsConstructorName "Kiln" "fire" ++ "(" ++
      ", ".intercalate [Naming.attributeName "curve" ++ ": " ++ "Any",
        Naming.attributeName "marks" ++ ": " ++ "list[dict[str, Any]]"] ++
      ") -> commands." ++ Naming.argsName "Kiln" "fire" ++ ":" = kilnHead := by
  have function : Naming.argsConstructorName "Kiln" "fire" = "new_kiln_fire_args" := by decide
  have spelled : Naming.pascal "Kiln" ++ Naming.pascal "fire" = "KilnFire" := by decide
  have record : Naming.memberName "Kiln" "fire" = "KilnFire" := by
    rw [Naming.memberName, spelled]
    exact Naming.safeIdentifier_of_plain (by decide) (by decide) (by decide)
  rw [Naming.argsName, record, function, attributeName_kiln (.head _),
    attributeName_kiln (.tail _ (.head _)), String.intercalate_cons_cons, String.intercalate_singleton]
  rfl

theorem kilnHead_mem_clientEdits {edits : List Edit}
    (made : clientEdits ⟨[]⟩ Settings.default.runtimeModule (typesPackageName Settings.default) [kiln] =
      .ok edits) : .line kilnHead 0 ∈ edits := by
  have fields : fieldsOf ⟨[]⟩ none "Kiln" (Naming.argsName "Kiln" "fire") kilnFire.parameters = .ok
      ((kilnFire.parameters.zip [.any, .array .map, .primitive .boolean]).map fun (property, ref) =>
        fieldOf ⟨[]⟩ none (Naming.argsName "Kiln" "fire") property ref) := rfl
  refine argsConstructorEdits_subset_clientEdits made (List.mem_singleton_self kiln)
    (List.mem_singleton_self kilnFire) fields ?_
  rw [← argsConstructorHead_kiln]
  exact List.mem_append_right _ (.tail _ (.head _))

theorem any_mem_kilnClient {edits : List Edit}
    (made : clientEdits ⟨[]⟩ Settings.default.runtimeModule (typesPackageName Settings.default) [kiln] =
      .ok edits) : "Any" ∈ annotationNames edits := by
  rw [any_mem_annotationNames_clientEdits_iff made]
  exact ⟨kiln, List.mem_singleton_self _, .inr ⟨kilnFire, List.mem_singleton_self _, _,
    List.mem_cons_self, .any, rfl, rfl⟩⟩

/-- The client is written with a function whose parameters are annotated with `Any`, and its import
section takes `Any` from no module. -/
theorem kiln_client_lacks_any :
    ∃ written events reached index clientCode client,
      generate format taker.recording Settings.default [kiln] ((), []) =
        (((), written), ⟨events, .ok reached⟩) ∧
      IsWritten written Settings.default "client"
        (clientEdits index Settings.default.runtimeModule (typesPackageName Settings.default) [kiln])
        clientCode client ∧
      .line ("def new_kiln_fire_args(curve: Any, marks: list[dict[str, Any]]) -> " ++
        "commands.KilnFireArgs:") 0 ∈ clientCode ∧
      "Any" ∈ annotationNames clientCode ∧
      ∀ module, ¬ Imports Settings.default.runtimeModule clientCode client module "Any" := by
  obtain ⟨written, events, reached, generated⟩ := exists_run_kiln
  obtain ⟨index, accepted, staged, persisted⟩ := generate_eq_ok generated
  obtain ⟨clientCode, client, clientWritten⟩ :=
    exists_isWritten (standsAlone_client index Settings.default [kiln])
      (fun edits made => front_subset_of_collectEdits made (by simp [clientClassEdits]))
      staged persisted
  obtain rfl : index = ⟨[]⟩ := Except.ok.inj (accepted.symm.trans classify_kiln)
  refine ⟨written, events, reached, ⟨[]⟩, clientCode, client, generated, clientWritten,
    kilnHead_mem_clientEdits clientWritten.made, any_mem_kilnClient clientWritten.made, ?_⟩
  intro module imported
  exact any_not_mem_requiredNames_clientEdits clientWritten.made module
    (mem_namesFrom_new_iff.mp imported.named)

theorem kiln_commands_take_any :
    ∃ written events reached file edits contents,
      generate format taker.recording Settings.default [kiln] ((), []) =
        (((), written), ⟨events, .ok reached⟩) ∧
      file ∈ written ∧ IsPlanned Settings.default ⟨[]⟩ [kiln] file edits contents ∧
      file.1 = moduleFile Settings.default.packageDirectory "commands" ∧
      "Any" ∈ annotationNames edits ∧
      Imports Settings.default.runtimeModule edits contents "typing" "Any" := by
  obtain ⟨written, events, reached, generated⟩ := exists_run_kiln
  obtain ⟨index, accepted, files, -⟩ := any_is_imported_except_by_client generated
  obtain rfl : index = ⟨[]⟩ := Except.ok.inj (accepted.symm.trans classify_kiln)
  obtain ⟨file, inWritten, path⟩ : ∃ file ∈ written,
      file.1 = moduleFile Settings.default.packageDirectory "commands" := by
    obtain ⟨index, -, staged, persisted⟩ := generate_eq_ok generated
    obtain ⟨edits, contents, isWritten⟩ :=
      exists_isWritten (standsAlone_commands index Settings.default [kiln])
        (fun edits made => front_subset_of_collectEdits made
          (by simp [commandRegistryEdits, registryEdits]))
        staged persisted
    exact ⟨_, isWritten.taken, rfl⟩
  obtain ⟨edits, contents, isPlanned, imports⟩ := files file inWritten
  have other : file.1 ≠ clientFile Settings.default := by
    rw [path]
    decide
  have same := (standsAlone_commands ⟨[]⟩ Settings.default [kiln]).eq_of_path isPlanned.planned path
  have named : "Any" ∈ annotationNames edits :=
    any_mem_commandsEdits (PlannedModule.mk.inj same).2.symm (List.mem_singleton_self kiln)
      (List.mem_singleton_self kilnFire) (by decide)
  exact ⟨written, events, reached, file, edits, contents, generated, inWritten, isPlanned, path, named,
    imports other named⟩

end ProtocolGen.Package
