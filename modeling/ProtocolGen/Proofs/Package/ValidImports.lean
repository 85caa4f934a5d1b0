import ProtocolGen.Proofs.Emission.RequiredModules
import ProtocolGen.Proofs.Package.AnyImports
import ProtocolGen.Proofs.Source.InsertedImports

/-!
# Imports of written packages

The names in settings are identifiers, but they may be keywords. What else the imports of a package name
is never one. So the lines of a module's import section are import statements, and the formatter takes
the module as it would without them, exactly when the module asks for nothing that the settings name with
a keyword. The client asks for the runtime module whatever the protocol is.
-/

set_option autoImplicit false

namespace ProtocolGen.Package

open ProtocolGen.Types ProtocolGen.Emission ProtocolGen.Source

/-! ## Modules that code asks for -/

section Asked

variable {draft : Draft} {settings : Settings} (valid : draft.validate = .ok settings)

def nearPath {module : String} (identifier : Text.isIdentifier module.toList) : ModulePath :=
  ⟨true, [module], List.forall_mem_singleton.mpr identifier, .inl rfl⟩

def standardPath {module : String} (identifier : Text.isIdentifier module.toList) : ModulePath :=
  ⟨false, [module], List.forall_mem_singleton.mpr identifier, .inr (List.cons_ne_nil _ _)⟩

def ownPackagePath : ModulePath := ⟨true, [], List.forall_mem_nil _, .inl rfl⟩

theorem text_nearPath (identifier : Text.isIdentifier settings.typesPackage.toList) :
    (nearPath identifier).text = typesPackageName settings := by
  rw [ModulePath.text, typesPackageName, nearPath, String.intercalate_singleton]
  rfl

include valid in
theorem hasKeyword_typesPackageName_iff :
    HasKeyword (typesPackageName settings) ↔ IsKeyword settings.typesPackage := by
  have identifier := (isIdentifier_of_validate valid).2
  rw [← text_nearPath identifier, hasKeyword_text_iff, ModulePath.HasKeyword, nearPath]
  simp

include valid in
theorem exists_path_of_source {module : String}
    (source : module ∈ sourceModules settings.runtimeModule (typesPackageName settings)) :
    ∃ path : ModulePath, path.text = module := by
  have types := (isIdentifier_of_validate valid).2
  obtain ⟨runtime, text, -⟩ := exists_modulePath (isIdentifier_of_mem_runtimeModule valid)
  simp only [sourceModules, List.mem_cons, List.not_mem_nil, or_false] at source
  rcases source with rfl | rfl | rfl | rfl | rfl | rfl | rfl
  · exact ⟨runtime, text⟩
  · exact ⟨nearPath types, text_nearPath types⟩
  · exact ⟨nearPath (by decide : Text.isIdentifier "client".toList), rfl⟩
  · exact ⟨ownPackagePath, rfl⟩
  · exact ⟨standardPath (by decide : Text.isIdentifier "abc".toList), rfl⟩
  · exact ⟨standardPath (by decide : Text.isIdentifier "enum".toList), rfl⟩
  · exact ⟨standardPath (by decide : Text.isIdentifier "typing".toList), rfl⟩

variable {edits : List Edit}
  (among : AskAmong (sourceModules settings.runtimeModule (typesPackageName settings)) edits)

include valid among

theorem asksPlainly_of_askAmong : AsksPlainly edits := by
  constructor
  · intro module names asked
    rcases among.of_require asked with ⟨rfl, rfl⟩ | ⟨full, source, -⟩
    · exact ⟨standardPath (by decide : Text.isIdentifier "dataclasses".toList), rfl,
        fun _ => Bool.false_ne_true⟩
    · obtain ⟨path, text⟩ := exists_path_of_source valid source
      exact ⟨path, text, fun none => absurd none full⟩
  · intro module names asked
    rcases among.of_require asked with ⟨rfl, -⟩ | ⟨-, -, importable⟩
    · exact List.forall_mem_nil _
    · exact importable

/-- Whether code asks for a module that settings name with a keyword. -/
def AsksForNamedKeyword (settings : Settings) (edits : List Edit) : Prop :=
  (HasKeyword settings.runtimeModule ∧ ∃ names, .require settings.runtimeModule names ∈ edits) ∨
    IsKeyword settings.typesPackage ∧ ∃ names, .require (typesPackageName settings) names ∈ edits

/-- No other module that code asks for has a keyword in its name. -/
theorem asksForKeyword_iff : AsksForKeyword edits ↔ AsksForNamedKeyword settings edits := by
  rw [AsksForNamedKeyword, ← hasKeyword_typesPackageName_iff valid]
  constructor
  · intro asks
    obtain ⟨module, names, asked, keyword⟩ := asks
    have fixed : ∀ module ∈ [".client", ".", "abc", "enum", "typing", "dataclasses"],
        ¬ HasKeyword module := by decide
    rcases among.of_require asked with ⟨-, rfl⟩ | ⟨-, source, -⟩
    · exact absurd keyword (fixed _ (by simp))
    · rcases List.mem_cons.mp source with rfl | others
      · exact .inl ⟨keyword, names, asked⟩
      · rcases List.mem_cons.mp others with rfl | rest
        · exact .inr ⟨keyword, names, asked⟩
        · exact absurd keyword (fixed _ (List.mem_append_left ["dataclasses"] rest))
  · rintro (⟨keyword, names, asked⟩ | ⟨keyword, names, asked⟩)
    · exact ⟨_, names, asked, keyword⟩
    · exact ⟨_, names, asked, keyword⟩

end Asked

/-! ## The modules of a plan -/

section Plan

variable {index : TypeIndex} {settings : Settings} {domains : List Domain}

theorem askAmong_packageEdits {runtimeModule typesPackage : String} :
    AskAmong (sourceModules runtimeModule typesPackage) packageEdits := by
  have name : IsImportable "Client" := by decide
  simp [packageEdits, AsksAmong, sourceModules, name]

theorem askAmong_typesPackageEdits {sources : List String} (modules : List String) :
    AskAmong sources (typesPackageEdits modules) := by
  have lines : AskAmong sources (modules.map fun module => .line ("\"" ++ module ++ "\",") 1) :=
    askAmong_map fun _ _ => trivial
  unfold typesPackageEdits
  split <;> simp [AsksAmong, lines]

theorem askAmong_of_mem_plan {path : Path} {edits : List Edit}
    (planned : ⟨path, .ok edits⟩ ∈ plan index settings domains) :
    AskAmong (sourceModules settings.runtimeModule (typesPackageName settings)) edits := by
  cases plannedCode_of_mem_plan planned with
  | package => exact askAmong_packageEdits
  | client made => exact askAmong_clientEdits made
  | types domain member made => exact askAmong_typesEdits made
  | typesPackage => exact askAmong_typesPackageEdits _
  | commands made => exact askAmong_commandsEdits made
  | events made => exact askAmong_eventsEdits made

/-- A module without code apart, each begins with a docstring that ends with a full stop. -/
theorem head?_of_mem_plan {path : Path} {edits : List Edit}
    (planned : ⟨path, .ok edits⟩ ∈ plan index settings domains) :
    edits = [] ∨ ∃ heading, edits.head? = some (.header (some heading)) ∧
      heading.toList.getLast? = some '.' := by
  cases plannedCode_of_mem_plan planned with
  | package => exact .inr ⟨_, rfl, by simp⟩
  | client made =>
    exact .inr ⟨clientHeading, head?_of_collectEdits rfl made, by simp [clientHeading]⟩
  | types domain member made =>
    unfold typesEdits at made
    split at made
    · exact .inl (Except.ok.inj made).symm
    · refine .inr ⟨_, head?_of_collectEdits rfl made, ?_⟩
      rw [String.toList_append, List.getLast?_append]
      simp
  | typesPackage =>
    rw [typesPackageEdits]
    split
    · exact .inl rfl
    · exact .inr ⟨_, rfl, by simp⟩
  | commands made =>
    exact .inr ⟨commandsHeading, head?_of_collectEdits rfl made, by simp [commandsHeading]⟩
  | events made =>
    exact .inr ⟨eventsHeading, head?_of_collectEdits rfl made, by simp [eventsHeading]⟩

theorem endsHeading_of_mem_plan {path : Path} {edits : List Edit} (runtimeModule : String)
    (planned : ⟨path, .ok edits⟩ ∈ plan index settings domains) :
    ((Buffer.new runtimeModule).applyAll edits).EndsHeading := by
  intro docstring given _
  rcases head?_of_mem_plan planned with rfl | ⟨heading, starts, ends⟩
  · cases given
  · obtain ⟨rest, rfl⟩ := List.head?_eq_some_iff.mp starts
    rw [Buffer.applyAll_cons, Buffer.heading_applyAll _ rfl] at given
    cases given
    obtain ⟨front, chars⟩ := List.getLast?_eq_some_iff.mp ends
    exact ⟨front, '.', chars, by decide⟩

theorem mem_plan_client {edits : List Edit} (made : clientEdits index settings.runtimeModule
      (typesPackageName settings) domains = .ok edits) :
    ⟨clientFile settings, .ok edits⟩ ∈ plan index settings domains := by
  rw [← made]
  simp [plan, leadingModules, clientFile]

end Plan

/-! ## Written packages -/

/-- When a module's code asks for nothing that the settings name with a keyword, and only then, the lines
of its import section are import statements and the formatter takes its text as it takes the text without
them. -/
structure ImportsFollow (settings : Settings) (edits : List Edit) : Prop where
  lines : (∀ line ∈ ((Buffer.new settings.runtimeModule).applyAll edits).importLines,
    line = "" ∨ IsImport line) ↔ ¬ AsksForNamedKeyword settings edits
  accepted : Accepts format ((Buffer.new settings.runtimeModule).applyAll edits).render ↔
    Accepts format ((Buffer.new settings.runtimeModule).applyAll
      (edits.filter fun edit => !edit.isRequire)).render ∧ ¬ AsksForNamedKeyword settings edits

theorem importsFollow_of_mem_plan {draft : Draft} {settings : Settings} {index : TypeIndex}
    {domains : List Domain} {path : Path} {edits : List Edit} (valid : draft.validate = .ok settings)
    (planned : ⟨path, .ok edits⟩ ∈ plan index settings domains) : ImportsFollow settings edits := by
  have among := askAmong_of_mem_plan planned
  have plain := asksPlainly_of_askAmong valid among
  have asks := asksForKeyword_iff valid among
  constructor
  · rw [Buffer.forall_isImport_iff plain, asks]
  · rw [Buffer.accepts_render_iff plain (endsHeading_of_mem_plan _ planned), asks]

/-- In a package of a run that ends well, with settings that were checked, the imports of each module hold
unless the module asks for the runtime module or for the types package and the name of that has a keyword
in it. The client asks for the runtime module always. -/
theorem imports_break_on_keywords_only {State : Type} {persister : Persister State} {draft : Draft}
    {settings : Settings} {domains : List Domain} {before after : State}
    {written : List (Path × ByteArray)} {events : List Log.Event} {reached : Stage}
    (valid : draft.validate = .ok settings)
    (generated : generate format persister.recording settings domains (before, []) =
      ((after, written), ⟨events, .ok reached⟩)) :
    ∃ index, classify domains = .ok index ∧
      (∀ file ∈ written, ∃ edits contents, IsPlanned settings index domains file edits contents ∧
        ImportsFollow settings edits) ∧
      ∃ clientCode client,
        IsWritten written settings "client"
          (clientEdits index settings.runtimeModule (typesPackageName settings) domains)
          clientCode client ∧
        ImportsFollow settings clientCode ∧
        .require settings.runtimeModule ["Conn"] ∈ clientCode := by
  obtain ⟨index, accepted, staged, persisted⟩ := generate_eq_ok generated
  obtain ⟨clientCode, client, clientWritten⟩ :=
    exists_isWritten (standsAlone_client index settings domains)
      (fun edits made => front_subset_of_collectEdits made (by simp [clientClassEdits]))
      staged persisted
  refine ⟨index, accepted, ?_, clientCode, client, clientWritten, ?_, ?_⟩
  · obtain rfl : written = reached.writes := persistAll_recording persisted
    have writes := (writesLayout_of_stage (stage_eq_ok_iff.mpr ⟨accepted, staged⟩)).1
    intro file member
    obtain ⟨edits, contents, isPlanned⟩ := exists_isPlanned writes member
    exact ⟨edits, contents, isPlanned, importsFollow_of_mem_plan valid isPlanned.planned⟩
  · exact importsFollow_of_mem_plan valid (mem_plan_client clientWritten.made)
  · exact front_subset_of_collectEdits clientWritten.made (by simp [clientClassEdits])

/-- With the default settings each line of an import section is an import statement. -/
theorem kiln_imports_hold :
    Draft.default.validate = .ok Settings.default ∧ ∃ written events reached index,
      generate format taker.recording Settings.default [kiln] ((), []) =
        (((), written), ⟨events, .ok reached⟩) ∧
      ∀ file ∈ written, ∃ edits contents, IsPlanned Settings.default index [kiln] file edits contents ∧
        ∀ line ∈ ((Buffer.new Settings.default.runtimeModule).applyAll edits).importLines,
          line = "" ∨ IsImport line := by
  obtain ⟨written, events, reached, generated⟩ := exists_run_kiln
  obtain ⟨index, -, files, -⟩ := imports_break_on_keywords_only validate_default generated
  refine ⟨validate_default, written, events, reached, index, generated, fun file member => ?_⟩
  obtain ⟨edits, contents, isPlanned, follow⟩ := files file member
  have plain : ¬ HasKeyword Settings.default.runtimeModule ∧ ¬ IsKeyword Settings.default.typesPackage := by
    decide
  refine ⟨edits, contents, isPlanned, follow.lines.mpr ?_⟩
  rintro (⟨keyword, -⟩ | ⟨keyword, -⟩)
  · exact plain.1 keyword
  · exact plain.2 keyword

/-- The default settings, but for a runtime module whose name is a keyword. -/
def classDraft : Draft := { Draft.default with runtimeModule := .text (Text.ofString "class") }

def classSettings : Settings := { Settings.default with runtimeModule := "class" }

theorem validate_classDraft : classDraft.validate = .ok classSettings := rfl

theorem namesFrom_class {clientCode : List Edit} (made : clientEdits ⟨[]⟩ classSettings.runtimeModule
      (typesPackageName classSettings) [kiln] = .ok clientCode) :
    ((Buffer.new classSettings.runtimeModule).applyAll clientCode).namesFrom "class" = ["Conn"] := by
  have reads : (clientEdits ⟨[]⟩ classSettings.runtimeModule (typesPackageName classSettings)
      [kiln]).toOption.map (fun edits => (requiredNames edits).filter fun entry => entry.1 = "class") =
        some [("class", "Conn")] := by
    decide +kernel
  rw [made] at reads
  have taken : (requiredNames clientCode).filter (fun entry => entry.1 = "class") = [("class", "Conn")] :=
    Option.some.inj reads
  have member (name : String) : ("class", name) ∈ requiredNames clientCode ↔
      ("class", name) ∈ (requiredNames clientCode).filter fun entry => entry.1 = "class" := by
    simp
  refine Text.eq_of_mem_iff_of_pairwise Text.pairwise_sortedSet (List.pairwise_singleton _ _) fun name => ?_
  exact mem_namesFrom_new_iff.trans ((member name).trans (by simp [taken]))

theorem not_isImport_fromClass : ¬ IsImport "from class import Conn" := by
  have line : "from class import Conn" =
      importLine (standardPath (by decide : Text.isIdentifier "class".toList)).text ["Conn"] := rfl
  have names : ∀ name ∈ ["Conn"], IsImportable name := by decide
  rw [line, isImport_importLine_iff (List.cons_ne_nil _ _) names, not_not]
  exact ⟨"class", List.mem_singleton_self _, by decide⟩

/-- The settings are accepted and the run ends well, but the client has a line that is no import statement
and the formatter rejects it. -/
theorem client_takes_conn_from_class :
    classDraft.validate = .ok classSettings ∧ ∃ written events reached clientCode client,
      generate format taker.recording classSettings [kiln] ((), []) =
        (((), written), ⟨events, .ok reached⟩) ∧
      IsWritten written classSettings "client"
        (clientEdits ⟨[]⟩ classSettings.runtimeModule (typesPackageName classSettings) [kiln])
        clientCode client ∧
      "from class import Conn" ∈
        ((Buffer.new classSettings.runtimeModule).applyAll clientCode).importLines ∧
      ¬ IsImport "from class import Conn" ∧
      ¬ Accepts format ((Buffer.new classSettings.runtimeModule).applyAll clientCode).render := by
  obtain ⟨written, events, reached, generated⟩ : ∃ written events reached,
      generate format taker.recording classSettings [kiln] ((), []) =
        (((), written), ⟨events, .ok reached⟩) :=
    exists_run_of_shown (hasPlainNames_of_validate validate_classDraft) classify_kiln rfl (by decide)
  obtain ⟨index, accepted, staged, persisted⟩ := generate_eq_ok generated
  obtain rfl : index = ⟨[]⟩ := Except.ok.inj (accepted.symm.trans classify_kiln)
  obtain ⟨clientCode, client, clientWritten⟩ :=
    exists_isWritten (standsAlone_client ⟨[]⟩ classSettings [kiln])
      (fun edits made => front_subset_of_collectEdits made (by simp [clientClassEdits]))
      staged persisted
  have asked : .require classSettings.runtimeModule ["Conn"] ∈ clientCode :=
    front_subset_of_collectEdits clientWritten.made (by simp [clientClassEdits])
  have names := namesFrom_class clientWritten.made
  refine ⟨validate_classDraft, written, events, reached, clientCode, client, generated, clientWritten,
    ?_, not_isImport_fromClass, fun taken => ?_⟩
  · have listed := Buffer.importLine_mem_importLines (Buffer.mem_namesFrom_iff.mp
      (names ▸ List.mem_singleton_self "Conn"))
    rwa [names] at listed
  · have follow := importsFollow_of_mem_plan validate_classDraft (mem_plan_client clientWritten.made)
    exact (follow.accepted.mp taken).2 (.inl ⟨by decide, _, asked⟩)

end ProtocolGen.Package
