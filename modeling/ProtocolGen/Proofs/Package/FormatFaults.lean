import ProtocolGen.Proofs.Document.Unreported
import ProtocolGen.Proofs.Documentation.ShownTexts
import ProtocolGen.Proofs.Emission.NullFreeModules
import ProtocolGen.Proofs.Package.Disk
import ProtocolGen.Proofs.Package.PlannedCode

/-!
# Formatters that break down

The standard formatter takes a text or rejects it, and breaks down on a text with a null character. Code
has none, but documentation shows the protocol's texts as they are. So a run is stopped by the formatter
exactly when a text that its modules show has a null character.
-/

set_option autoImplicit false

namespace ProtocolGen.Package

open ProtocolGen.Types ProtocolGen.Emission ProtocolGen.Source

attribute [local simp] Edit.codeTexts

/-! ## The formatter -/

theorem format_eq_broken_iff {text words : String} :
    format text = .error (.broken words) ↔ ¬ NullFree text ∧ words = nullCharacterMessage := by
  rw [format]
  split
  · next null =>
    have notFree : ¬ NullFree text := by simpa [NullFree, nullCharacter] using null
    simp [notFree, eq_comm]
  · next free =>
    have isFree : NullFree text := by simpa [NullFree, nullCharacter] using free
    split <;> simp [isFree]

/-- What the formatter makes of a text: its final form, a rejection, or a breakdown. -/
inductive Formatted (text : String) : Except FormatFault String → Prop where
  | taken (formatted : String) (free : NullFree text) : Formatted text (.ok formatted)
  | rejected (reason : String) (free : NullFree text) : Formatted text (.error (.rejected reason))
  | broken (null : ¬ NullFree text) : Formatted text (.error (.broken nullCharacterMessage))

theorem formatted_format (text : String) : Formatted text (format text) := by
  by_cases free : NullFree text
  · cases made : format text with
    | ok formatted => exact .taken formatted free
    | error fault =>
      cases fault with
      | rejected reason => exact .rejected reason free
      | broken words => exact absurd free (format_eq_broken_iff.mp made).1
  · rw [format_eq_broken_iff.mpr ⟨free, rfl⟩]
    exact .broken free

/-! ## Modules on which it breaks down -/

section Modules

variable {runtimeModule : String} {edits : List Edit}

theorem breaksDown_format_iff {buffer : Buffer} :
    BreaksDown format buffer ↔ buffer.hasContent ∧ ¬ NullFree buffer.render := by
  simp only [BreaksDown, format_eq_broken_iff, exists_eq_right]

theorem breaksDown_iff {heading : String} (starts : edits.head? = some (.header (some heading)))
    (declares : .declare ∈ edits) (code : CodeIsNullFree edits) :
    BreaksDown format ((Buffer.new runtimeModule).applyAll edits) ↔
      ¬ (NullFree heading ∧ DocumentationIsNullFree edits) := by
  rw [breaksDown_format_iff, and_iff_right (Buffer.hasContent_of_declare _ declares)]
  obtain ⟨rest, rfl⟩ := List.head?_eq_some_iff.mp starts
  rw [nullFree_render_iff runtimeModule (codeIsNullFree_cons _ |>.mp code).2]
  simp [Edit.documentation]

theorem head?_of_collectEdits {Item : Type} {front : List Edit} {edit : Edit}
    {step : Item → Except Types.Failure (List Edit)} {items : List Item}
    (starts : front.head? = some edit) (made : collectEdits front step items = .ok edits) :
    edits.head? = some edit := by
  obtain ⟨rest, rfl⟩ := List.head?_eq_some_iff.mp starts
  obtain ⟨bodies, -, finished⟩ := bind_eq_ok_iff.mp made
  cases finished
  rfl

end Modules

section Plan

variable {draft : Draft} {settings : Settings}

/-- Settings whose names are free of null characters. -/
structure HasPlainNames (settings : Settings) : Prop where
  runtimeModule : NullFree settings.runtimeModule
  typesPackage : NullFree settings.typesPackage

theorem HasPlainNames.typesPackageName (plain : HasPlainNames settings) :
    NullFree (typesPackageName settings) :=
  nullFree_append_iff.mpr ⟨nullFree_literal (by decide), plain.typesPackage⟩

theorem isIdentifier_of_modulePath {setting text : String} {value : Data}
    (checked : Draft.modulePath setting value = .ok text) :
    ∀ part ∈ Text.splitOn ['.'] text.toList, Text.isIdentifier part := by
  unfold Draft.modulePath at checked
  split at checked
  · split at checked
    · split at checked
      · next parts =>
        cases checked
        exact List.all_eq_true.mp parts
      · cases checked
    · cases checked
  · cases checked

/-- The parts of the runtime module's name are identifiers. -/
theorem isIdentifier_of_mem_runtimeModule (valid : draft.validate = .ok settings) :
    ∀ part ∈ Text.splitOn ['.'] settings.runtimeModule.toList, Text.isIdentifier part := by
  obtain ⟨package, -, rest⟩ := bind_eq_ok_iff.mp valid
  obtain ⟨typesPackage, -, rest⟩ := bind_eq_ok_iff.mp rest
  obtain ⟨runtimeModule, checked, finished⟩ := bind_eq_ok_iff.mp rest
  cases finished
  exact isIdentifier_of_modulePath checked

theorem hasPlainNames_of_validate (valid : draft.validate = .ok settings) :
    HasPlainNames settings := by
  refine ⟨fun null => ?_, Naming.not_mem_of_isIdentifier (by decide) (isIdentifier_of_validate valid).2⟩
  obtain ⟨part, inParts, inPart⟩ : ∃ part ∈ Text.splitOn ['.'] settings.runtimeModule.toList,
      nullCharacter ∈ part :=
    exists_mem_splitOn (by simp) (by decide) null
  exact Naming.not_mem_of_isIdentifier (by decide)
    (isIdentifier_of_mem_runtimeModule valid part inParts) inPart

theorem hasPlainNames_default : HasPlainNames Settings.default :=
  hasPlainNames_of_validate validate_default

variable {index : TypeIndex} {domains : List Domain} (plain : HasPlainNames settings)

include plain

theorem breaksDown_clientModule {edits : List Edit}
    (made : clientEdits index settings.runtimeModule (typesPackageName settings) domains =
      .ok edits) :
    BreaksDown format ((Buffer.new settings.runtimeModule).applyAll edits) ↔
      ¬ ∀ domain ∈ domains, FacadeIsNullFree domain := by
  have starts : (clientClassEdits settings.runtimeModule domains).head? =
      some (.header (some clientHeading)) := rfl
  rw [breaksDown_iff (head?_of_collectEdits starts made)
    (front_subset_of_collectEdits made (by simp [clientClassEdits]))
    (codeIsNullFree_clientEdits plain.runtimeModule plain.typesPackageName made), documentation_clientEdits made,
    and_iff_right (show NullFree clientHeading from nullFree_literal (by decide))]

theorem breaksDown_commandsModule {edits : List Edit}
    (made : commandsEdits index (typesPackageName settings) domains = .ok edits) :
    BreaksDown format ((Buffer.new settings.runtimeModule).applyAll edits) ↔
      ¬ ∀ domain ∈ domains, ∀ command ∈ domain.commands,
        PayloadsAreNullFree domain.name command := by
  have starts : (commandRegistryEdits domains).head? =
      some (.header (some commandsHeading)) := rfl
  rw [breaksDown_iff (head?_of_collectEdits starts made)
    (front_subset_of_collectEdits made (by simp [commandRegistryEdits, registryEdits]))
    (codeIsNullFree_commandsEdits plain.typesPackageName made), documentation_commandsEdits made,
    and_iff_right (show NullFree commandsHeading from nullFree_literal (by decide))]

theorem breaksDown_eventsModule {edits : List Edit}
    (made : eventsEdits index (typesPackageName settings) domains = .ok edits) :
    BreaksDown format ((Buffer.new settings.runtimeModule).applyAll edits) ↔
      ¬ ∀ domain ∈ domains, ∀ event ∈ domain.events,
        NullFree domain.name ∧ AllNullFree event.shownTexts := by
  have starts : (eventRegistryEdits domains).head? = some (.header (some eventsHeading)) := rfl
  rw [breaksDown_iff (head?_of_collectEdits starts made)
    (front_subset_of_collectEdits made (by simp [eventRegistryEdits, registryEdits]))
    (codeIsNullFree_eventsEdits plain.typesPackageName made), documentation_eventsEdits made,
    and_iff_right (show NullFree eventsHeading from nullFree_literal (by decide))]

theorem breaksDown_typesModule {domain : Domain} {edits : List Edit}
    (made : typesEdits index settings.runtimeModule domain = .ok edits) :
    BreaksDown format ((Buffer.new settings.runtimeModule).applyAll edits) ↔
      domain.types ≠ [] ∧ ¬ (NullFree domain.name ∧
        AllNullFree (domain.types.flatMap (TypeDeclaration.shownTexts index domain.name))) := by
  by_cases typed : domain.types = []
  · rw [typesEdits, if_pos (by simp [typed])] at made
    cases made
    refine iff_of_false (fun breaks => ?_) (fun both => both.1 typed)
    cases breaks.1
  · have collected := made
    rw [typesEdits, if_neg (by simp [typed])] at collected
    have fixed : NullFree "Types of the " ∧ NullFree " domain." := by simp (disch := decide)
    rw [breaksDown_iff (head?_of_collectEdits rfl collected) (declare_mem_typesEdits typed made)
      (codeIsNullFree_typesEdits plain.runtimeModule made), documentation_typesEdits made,
      and_iff_right typed, nullFree_append_iff, nullFree_append_iff, and_iff_right fixed.1,
      and_iff_left fixed.2]

omit plain in
theorem not_breaksDown_packageModule :
    ¬ BreaksDown format ((Buffer.new settings.runtimeModule).applyAll packageEdits) := by
  rw [breaksDown_iff rfl (by simp [packageEdits])
    (by simp (disch := decide) [packageEdits])]
  simp (disch := decide) [packageEdits, Edit.documentation]

omit plain in
theorem not_breaksDown_typesPackageModule (modules : List Domain) :
    ¬ BreaksDown format ((Buffer.new settings.runtimeModule).applyAll
      (typesPackageEdits (modules.map fun domain => Naming.moduleName domain.name))) := by
  have names : CodeIsNullFree ((modules.map fun domain => Naming.moduleName domain.name).map
      fun module => .line ("\"" ++ module ++ "\",") 1) := by
    refine codeIsNullFree_map fun module member => ?_
    obtain ⟨domain, -, rfl⟩ := List.mem_map.mp member
    simp (disch := decide) [nullFree_append_iff]
  have lines : DocumentationIsNullFree ((modules.map fun domain =>
      Naming.moduleName domain.name).map fun module => .line ("\"" ++ module ++ "\",") 1) :=
    documentationIsNullFree_map_of_bare fun _ _ => rfl
  rw [typesPackageEdits]
  split
  · rintro ⟨read, -⟩
    exact Bool.false_ne_true read
  · rw [breaksDown_iff rfl (by simp), not_not]
    · refine ⟨nullFree_literal (by decide), ?_⟩
      rw [documentationIsNullFree_append, documentationIsNullFree_append]
      exact ⟨⟨by simp [Edit.documentation], lines⟩, by simp [Edit.documentation]⟩
    · rw [codeIsNullFree_append, codeIsNullFree_append]
      exact ⟨⟨by simp (disch := decide), names⟩,
        by simp (disch := decide)⟩

/-- Where no shown text has a null character the formatter stands every module. -/
theorem stands_of_shown (shown : ∀ domain ∈ domains, AllNullFree (domain.shownTexts index)) :
    ∀ planned ∈ plan index settings domains, ∀ edits, planned.edits = .ok edits →
      ¬ BreaksDown format ((Buffer.new settings.runtimeModule).applyAll edits) := by
  have parts (domain : Domain) (member : domain ∈ domains) :=
    allNullFree_domain_iff.mp (shown domain member)
  rintro ⟨path, code⟩ member edits rfl
  cases plannedCode_of_mem_plan member with
  | package => exact not_breaksDown_packageModule
  | client made =>
    rw [breaksDown_clientModule plain made, not_not]
    exact fun domain inDomains => (parts domain inDomains).1
  | types domain inDomains made =>
    rw [breaksDown_typesModule plain made, not_and_not_right]
    exact fun _ => ⟨(parts domain inDomains).1.name, (parts domain inDomains).2.1⟩
  | typesPackage => exact not_breaksDown_typesPackageModule _
  | commands made =>
    rw [breaksDown_commandsModule plain made, not_not]
    exact fun domain inDomains => (parts domain inDomains).2.2.1
  | events made =>
    rw [breaksDown_eventsModule plain made, not_not]
    exact fun domain inDomains => (parts domain inDomains).2.2.2

/-- Where every module has its code and no shown text has a null character, every module can be flushed. -/
theorem stageable_of_shown (codes : (plan index settings domains).all fun planned => planned.edits.isOk)
    (shown : ∀ domain ∈ domains, AllNullFree (domain.shownTexts index)) :
    ∀ planned ∈ plan index settings domains, Stageable format settings.runtimeModule planned := by
  intro planned member
  obtain ⟨edits, made⟩ := exists_eq_ok_of_isOk (List.all_eq_true.mp codes planned member)
  exact ⟨edits, made, stands_of_shown plain shown planned member edits made⟩

theorem exists_stage_of_shown (accepted : classify domains = .ok index)
    (codes : (plan index settings domains).all fun planned => planned.edits.isOk)
    (shown : ∀ domain ∈ domains, AllNullFree (domain.shownTexts index)) :
    ∃ reached, (stage format settings domains).result = .ok (index, reached) := by
  obtain ⟨reached, rendered⟩ :=
    exists_stagePlanned_eq_ok_iff.mpr (stageable_of_shown plain codes shown)
  exact ⟨reached, stage_eq_ok_iff.mpr ⟨accepted, rendered⟩⟩

/-- Where the types are accepted, every module has its code and no shown text has a null character, a run
ends well. -/
theorem exists_run_of_shown (accepted : classify domains = .ok index)
    (codes : (plan index settings domains).all fun planned => planned.edits.isOk)
    (shown : ∀ domain ∈ domains, AllNullFree (domain.shownTexts index)) :
    ∃ written events reached, generate format taker.recording settings domains ((), []) =
      (((), written), ⟨events, .ok reached⟩) :=
  exists_run_of_stageable accepted (stageable_of_shown plain codes shown)

/-- Where the formatter stands every module no shown text has a null character. -/
theorem shown_of_stageable (stageable : ∀ planned ∈ plan index settings domains,
    Stageable format settings.runtimeModule planned) :
    ∀ domain ∈ domains, AllNullFree (domain.shownTexts index) := by
  simp only [plan, leadingModules, closingModules, List.forall_mem_append, List.forall_mem_cons,
    List.forall_mem_map] at stageable
  obtain ⟨⟨⟨-, ⟨client, clientMade, clientStands⟩, -⟩, types⟩, -, ⟨commands, commandsMade,
    commandsStand⟩, ⟨events, eventsMade, eventsStand⟩, -⟩ := stageable
  rw [breaksDown_clientModule plain clientMade, not_not] at clientStands
  rw [breaksDown_commandsModule plain commandsMade, not_not] at commandsStand
  rw [breaksDown_eventsModule plain eventsMade, not_not] at eventsStand
  intro domain member
  refine allNullFree_domain_iff.mpr ⟨clientStands domain member, ?_, commandsStand domain member,
    eventsStand domain member⟩
  obtain ⟨edits, made, stands⟩ := types domain member
  rw [breaksDown_typesModule plain made, not_and_not_right] at stands
  by_cases typed : domain.types = []
  · simp [typed]
  · exact (stands typed).2

end Plan

/-! ## Runs that a formatter stops -/

section Runs

variable {formatter : Formatter} {runtimeModule : String}

theorem flush_error {stage : Stage} {buffer : Buffer} {path : Path} {fault : FormatFault}
    (failed : stage.flush formatter buffer path = .error fault) :
    buffer.hasContent ∧ formatter buffer.render = .error fault ∧
      ∃ words, fault = .broken words := by
  unfold Stage.flush at failed
  split at failed
  · cases failed
  · next full =>
    dsimp only at failed
    split at failed
    · cases failed
    · cases failed
    · next other notRejected broken =>
      cases failed
      refine ⟨by simpa using full, broken, ?_⟩
      cases fault with
      | rejected reason => exact absurd rfl (notRejected reason)
      | broken words => exact ⟨words, rfl⟩

/-- A stage is not reached when the code of a module is not there or the formatter breaks down. -/
theorem stagePlanned_error {plan : List PlannedModule} {stage : Stage} {failure : Failure}
    (failed : (stagePlanned formatter (Buffer.new runtimeModule) stage plan).result =
      .error failure) :
    (∃ planned ∈ plan, ∃ reason, planned.edits = .error reason ∧ failure = .ofTypes reason) ∨
      ∃ planned ∈ plan, ∃ edits words, planned.edits = .ok edits ∧
        ((Buffer.new runtimeModule).applyAll edits).hasContent ∧
        formatter ((Buffer.new runtimeModule).applyAll edits).render = .error (.broken words) ∧
        failure = .formatter (.broken words) := by
  induction plan generalizing stage with
  | nil => cases failed
  | cons planned rest ih =>
    rw [stagePlanned] at failed
    cases made : planned.edits with
    | error reason =>
      rw [made] at failed
      cases failed
      exact .inl ⟨planned, List.mem_cons_self, reason, made, rfl⟩
    | ok edits =>
      rw [made] at failed
      dsimp only at failed
      split at failed
      · next fault flush =>
        cases failed
        obtain ⟨full, breaks, words, rfl⟩ := flush_error flush
        exact .inr ⟨planned, List.mem_cons_self, edits, words, made, full, breaks, rfl⟩
      · next buffer next kept flush =>
        obtain ⟨rfl, -⟩ := Flushed.of_flush flush
        rcases ih failed with ⟨other, inRest, found⟩ | ⟨other, inRest, found⟩
        · exact .inl ⟨other, List.mem_cons_of_mem _ inRest, found⟩
        · exact .inr ⟨other, List.mem_cons_of_mem _ inRest, found⟩

theorem stage_eq_formatter_iff {settings : Settings} {domains : List Domain} {fault : FormatFault} :
    (stage formatter settings domains).result = .error (.formatter fault) ↔
      ∃ index, classify domains = .ok index ∧
        (stagePlanned formatter (Buffer.new settings.runtimeModule) Stage.empty
          (plan index settings domains)).result = .error (.formatter fault) := by
  unfold stage
  cases accepted : classify domains with
  | error refusal => simp
  | ok index =>
    simp only [Except.ok.injEq, exists_eq_left']
    cases (stagePlanned formatter (Buffer.new settings.runtimeModule) Stage.empty
      (plan index settings domains)).result <;> simp [Except.map]

theorem generate_eq_formatter_iff {State : Type} {persister : Persister State}
    {settings : Settings} {domains : List Domain} {state : State} {fault : FormatFault} :
    (generate formatter persister settings domains state).2.result = .error (.formatter fault) ↔
      (stage formatter settings domains).result = .error (.formatter fault) := by
  cases staged : (stage formatter settings domains).result with
  | error failure =>
    rw [generate_of_stage_error staged]
    simp
  | ok found =>
    obtain ⟨index, reached⟩ := found
    rw [(generate_of_stage_ok staged).2]
    split <;> simp

end Runs

section Format

variable {State : Type} {persister : Persister State} {draft : Draft} {settings : Settings}
  {domains : List Domain}

theorem shown_null_of_formatter_fault (plain : HasPlainNames settings) {state : State}
    {fault : FormatFault} (failed : (generate format persister settings domains state).2.result =
      .error (.formatter fault)) :
    fault = .broken nullCharacterMessage ∧ ∃ index, classify domains = .ok index ∧
      ∃ domain ∈ domains, ¬ AllNullFree (domain.shownTexts index) := by
  obtain ⟨index, accepted, rendered⟩ :=
    stage_eq_formatter_iff.mp (generate_eq_formatter_iff.mp failed)
  rcases stagePlanned_error rendered with ⟨_, -, reason, -, other⟩ |
    ⟨planned, member, edits, words, made, full, breaks, same⟩
  · cases reason <;> cases other
  · cases same
    refine ⟨congrArg FormatFault.broken (format_eq_broken_iff.mp breaks).2, index, accepted, ?_⟩
    by_contra none
    have shown : ∀ domain ∈ domains, AllNullFree (domain.shownTexts index) := by
      simpa using none
    exact stands_of_shown plain shown planned member edits made ⟨full, words, breaks⟩

theorem formatter_fault_of_shown_null (plain : HasPlainNames settings) {state : State}
    {index : TypeIndex} (accepted : classify domains = .ok index)
    (codes : ∀ planned ∈ plan index settings domains, ∃ edits, planned.edits = .ok edits)
    (null : ∃ domain ∈ domains, ¬ AllNullFree (domain.shownTexts index)) :
    (generate format persister settings domains state).2.result =
      .error (.formatter (.broken nullCharacterMessage)) := by
  rw [generate_eq_formatter_iff, stage_eq_formatter_iff]
  refine ⟨index, accepted, ?_⟩
  cases rendered : (stagePlanned format (Buffer.new settings.runtimeModule) Stage.empty
    (plan index settings domains)).result with
  | ok reached =>
    obtain ⟨domain, member, notFree⟩ := null
    have stageable := exists_stagePlanned_eq_ok_iff.mp ⟨reached, rendered⟩
    exact absurd (shown_of_stageable plain stageable domain member) notFree
  | error failure =>
    rcases stagePlanned_error rendered with ⟨planned, member, reason, missing, -⟩ |
      ⟨_, _, edits, words, _, _, breaks, rfl⟩
    · obtain ⟨edits, made⟩ := codes planned member
      cases missing.symm.trans made
    · rw [(format_eq_broken_iff.mp breaks).2]

/-- The standard formatter breaks down on null characters and on nothing else, and a run breaks down in
it exactly where its modules show a text with one. -/
theorem formatter_breaks_on_shown_nulls (valid : draft.validate = .ok settings) (state : State) :
    (∀ text, Formatted text (format text)) ∧
    (∀ fault, (generate format persister settings domains state).2.result =
        .error (.formatter fault) →
      fault = .broken nullCharacterMessage ∧ ∃ index, classify domains = .ok index ∧
        ∃ domain ∈ domains, ¬ AllNullFree (domain.shownTexts index)) ∧
    (Generatable .ok settings domains → ∀ index, classify domains = .ok index →
      ((generate format persister settings domains state).2.result =
          .error (.formatter (.broken nullCharacterMessage)) ↔
        ∃ domain ∈ domains, ¬ AllNullFree (domain.shownTexts index))) := by
  have plain := hasPlainNames_of_validate valid
  refine ⟨formatted_format, fun fault => shown_null_of_formatter_fault plain, ?_⟩
  intro generatable index accepted
  obtain ⟨found, acceptedFound, stageable⟩ := generatable
  cases accepted.symm.trans acceptedFound
  constructor
  · intro failed
    obtain ⟨-, other, acceptedOther, null⟩ := shown_null_of_formatter_fault plain failed
    cases accepted.symm.trans acceptedOther
    exact null
  · refine formatter_fault_of_shown_null plain accepted fun planned member => ?_
    obtain ⟨edits, made, -⟩ := stageable planned member
    exact ⟨edits, made⟩

end Format

section Hum

/-- A domain whose description has a null character. -/
def hum : Domain := ⟨"Hum", some "One\x00two", false, false, [], [], []⟩

def humDocument : String :=
  "\x7b\"domains\": [\x7b\"domain\": \"Hum\", \"description\": \"One\\u0000two\"\x7d]\x7d"

def humTree : FileTree := ⟨["work"], [(["work", "hum.json"], .file humDocument.toUTF8)]⟩

def humData : Data :=
  .table [Document.entry "domains" (.list [.table [Document.textEntry "domain" "Hum",
    Document.textEntry "description" "One\x00two"]])]

theorem load_humTree :
    (Document.load humTree ⟨"", ["hum.json"]⟩).map Document.Protocol.domains = .ok [hum] := by
  have data : Json.read (Text.ofChars (Text.unifyLineEnds humDocument.toList)) = .ok humData := by
    rw [humDocument, Text.toList_literal]
    rfl
  have reads : Document.ReadsJson humTree ⟨"", ["hum.json"]⟩ (.ok humData) := data ▸ .of_text rfl rfl
  rw [reads.load_eq]
  decide +kernel

theorem hum_shows_null : ∃ domain ∈ [hum], ¬ AllNullFree (domain.shownTexts ⟨[]⟩) :=
  ⟨hum, List.mem_cons_self, by decide⟩

theorem codes_hum : ∀ planned ∈ plan ⟨[]⟩ Settings.default [hum],
    ∃ edits, planned.edits = .ok edits := by
  have codes : (plan ⟨[]⟩ Settings.default [hum]).all fun planned => planned.edits.isOk := rfl
  exact fun planned member => exists_eq_ok_of_isOk (List.all_eq_true.mp codes planned member)

/-- The formatter stops the run for a document that is accepted. -/
theorem hum_stops_at_formatter :
    (Document.load humTree ⟨"", ["hum.json"]⟩).map Document.Protocol.domains = .ok [hum] ∧
    Draft.default.validate = .ok Settings.default ∧
    format "One\x00two" = .error (.broken nullCharacterMessage) ∧
    (generate format taker Settings.default [hum] ()).2.result =
      .error (.formatter (.broken nullCharacterMessage)) := by
  refine ⟨load_humTree, validate_default, format_eq_broken_iff.mpr ⟨by decide, rfl⟩, ?_⟩
  exact formatter_fault_of_shown_null hasPlainNames_default rfl codes_hum hum_shows_null

theorem hum_breaks_formatter :
    Draft.default.validate = .ok Settings.default ∧ Generatable .ok Settings.default [hum] ∧
    (generate format taker Settings.default [hum] ()).2.result =
      .error (.formatter (.broken nullCharacterMessage)) := by
  have generatable : Generatable .ok Settings.default [hum] := by
    refine ⟨⟨[]⟩, by decide, fun planned member => ?_⟩
    obtain ⟨edits, made⟩ := codes_hum planned member
    refine ⟨edits, made, fun breaks => ?_⟩
    obtain ⟨-, words, broken⟩ := breaks
    cases broken
  refine ⟨validate_default, generatable, ?_⟩
  exact ((formatter_breaks_on_shown_nulls validate_default ()).2.2 generatable ⟨[]⟩ (by decide)).mpr
    hum_shows_null

end Hum

end ProtocolGen.Package
