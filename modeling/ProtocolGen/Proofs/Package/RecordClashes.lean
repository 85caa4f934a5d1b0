import ProtocolGen.Proofs.Emission.Builders
import ProtocolGen.Proofs.Package.Facade
import ProtocolGen.Proofs.Package.TypesKept

/-!
# Names that clash in records

The fields of a record are named by the spellings of its properties in small letters, and nothing keeps
two properties with one spelling apart, or a property from the methods and setters of the record, from
what the defaults of fields are made with, or from the module that the client builds arguments with. So
which names clash is read off the spellings alone.
-/

set_option autoImplicit false

namespace ProtocolGen.Package

open ProtocolGen.Types ProtocolGen.Emission ProtocolGen.Source

/-- The names that the code around fields is written with. -/
def wordsAroundFields : List String := ["to_dict", "from_dict"] ++ defaultMakers ++ ["commands"]

/-- When the field of a property has the name of another field, of a setter, or of a word in the code
around it. -/
structure FieldsMeet (name other : String) : Prop where
  fields : Naming.attributeName name = Naming.attributeName other ↔
    Naming.attributeSpelling name = Naming.attributeSpelling other
  setter : Naming.attributeName name = Naming.setterName (Naming.attributeName other) ↔
    Naming.attributeSpelling name = "set_" ++ Naming.attributeSpelling other ∧
      ¬ Naming.BeginsWithDigit (Naming.attributeSpelling other)
  word : ∀ known ∈ wordsAroundFields,
    Naming.attributeName name = known ↔ Naming.attributeSpelling name = known

theorem attributeName_eq_word_iff {name known : String} (isWord : known ∈ wordsAroundFields) :
    Naming.attributeName name = known ↔ Naming.attributeSpelling name = known := by
  have plain : ∀ known ∈ wordsAroundFields, Naming.IsPlain known.toList := by decide +kernel
  exact Naming.attributeName_eq_iff (plain known isWord)

theorem fieldsMeet (name other : String) : FieldsMeet name other :=
  ⟨Naming.attributeName_inj, Naming.attributeName_eq_setterName_iff,
    fun _ => attributeName_eq_word_iff⟩

/-- Properties that have names of their own in the body of their record, with the setters of some. -/
structure StandApart (properties settable : List Property) : Prop where
  fields : (properties.map fun property => Naming.attributeSpelling property.name).Nodup
  methods : ∀ property ∈ properties,
    Naming.attributeSpelling property.name ∉ ["to_dict", "from_dict"]
  setters : ∀ property ∈ properties, ∀ other ∈ settable,
    Naming.attributeSpelling property.name = "set_" ++ Naming.attributeSpelling other.name →
      Naming.BeginsWithDigit (Naming.attributeSpelling other.name)

theorem nodup_map_iff {Item Name Other : Type} {items : List Item} {name : Item → Name}
    {other : Item → Other} (same : ∀ left right, name left = name right ↔ other left = other right) :
    (items.map name).Nodup ↔ (items.map other).Nodup := by
  rw [List.nodup_iff_pairwise_ne, List.nodup_iff_pairwise_ne, List.pairwise_map, List.pairwise_map]
  exact ⟨List.Pairwise.imp fun apart => mt (same _ _).mpr apart,
    List.Pairwise.imp fun apart => mt (same _ _).mp apart⟩

theorem setterName_ne_method {known : String} (isMethod : known ∈ ["to_dict", "from_dict"])
    (name : String) : Naming.setterName name ≠ known := by
  have first : ∀ known ∈ ["to_dict", "from_dict"], known.toList.head? ≠ some 's' := by decide
  intro same
  refine first known isMethod ?_
  rw [← same, Naming.setterName, String.toList_append]
  rfl

/-- No name is bound twice in the body of a record exactly when its properties stand apart. -/
theorem nodup_recordNames_iff {properties settable : List Property}
    (within : settable.Sublist properties) :
    (recordNames properties settable).Nodup ↔ StandApart properties settable := by
  have words : ∀ known ∈ ["to_dict", "from_dict"], known ∈ wordsAroundFields := by decide
  rw [recordNames, List.nodup_append, List.nodup_append]
  constructor
  · rintro ⟨⟨fields, -, setters⟩, -, methods⟩
    refine ⟨(nodup_map_iff fun _ _ => Naming.attributeName_inj).mp fields, ?_, ?_⟩
    · intro property member isMethod
      refine methods (Naming.attributeName property.name) ?_ _ isMethod ?_
      · exact List.mem_append_left _ (List.mem_map.mpr ⟨property, member, rfl⟩)
      · exact (attributeName_eq_word_iff (words _ isMethod)).mpr rfl
    · intro property member other inSettable spelled
      by_contra notDigit
      refine setters (Naming.attributeName property.name) (List.mem_map.mpr ⟨property, member, rfl⟩) _
        (List.mem_map.mpr ⟨other, inSettable, rfl⟩) ?_
      exact Naming.attributeName_eq_setterName_iff.mpr ⟨spelled, notDigit⟩
  · rintro ⟨fields, methods, setters⟩
    refine ⟨⟨(nodup_map_iff fun _ _ => Naming.attributeName_inj).mpr fields, ?_, ?_⟩, by decide, ?_⟩
    · exact (nodup_map_iff fun _ _ => Naming.setterName_inj).mpr (fields.sublist (within.map _))
    · intro name isField setter isSetter same
      obtain ⟨property, member, rfl⟩ := List.mem_map.mp isField
      obtain ⟨other, inSettable, rfl⟩ := List.mem_map.mp isSetter
      obtain ⟨spelled, notDigit⟩ := Naming.attributeName_eq_setterName_iff.mp same
      exact notDigit (setters property member other inSettable spelled)
    · intro name bound method isMethod same
      rcases List.mem_append.mp bound with isField | isSetter
      · obtain ⟨property, member, rfl⟩ := List.mem_map.mp isField
        have spelled := (attributeName_eq_word_iff (words _ isMethod)).mp same
        refine methods property member ?_
        rw [spelled]
        exact isMethod
      · obtain ⟨other, -, rfl⟩ := List.mem_map.mp isSetter
        exact setterName_ne_method isMethod _ same

/-! ## Written packages -/

/-- The types module of a domain that is written: its code, and the text that is kept of it. -/
structure TypesWritten (written : List (Path × ByteArray)) (settings : Settings) (index : TypeIndex)
    (domain : Domain) (edits : List Edit) (contents : String) : Prop where
  made : typesEdits index settings.runtimeModule domain = .ok edits
  kept : keptText? format settings.runtimeModule edits = some contents
  taken : filesAt (moduleFile settings.typesDirectory (Naming.moduleName domain.name)) written =
    [(moduleFile settings.typesDirectory (Naming.moduleName domain.name), contents.toUTF8)]

theorem exists_typesWritten {settings : Settings} {index : TypeIndex} {first last : List Domain}
    {domain : Domain} {reached : Stage} (typesPart : Path.IsPart settings.typesPackage)
    (staged : (stage format settings (first ++ domain :: last)).result = .ok (index, reached))
    (typed : domain.types ≠ []) (new : Naming.moduleName domain.name ∉ moduleNames last) :
    ∃ edits contents, TypesWritten reached.writes settings index domain edits contents := by
  obtain ⟨-, rendered⟩ := stage_eq_ok_iff.mp staged
  obtain ⟨writes, -⟩ := writesLayout_of_stage staged
  have inPlan : typesModule index settings domain ∈
      plan index settings (first ++ domain :: last) := by simp [plan]
  obtain ⟨edits, made, -⟩ := exists_stagePlanned_eq_ok_iff.mp ⟨reached, rendered⟩ _ inPlan
  obtain ⟨contents, kept⟩ : ∃ contents,
      keptText? format settings.runtimeModule edits = some contents :=
    exists_keptText (declare_mem_typesEdits typed made)
  have inLayout : moduleFile settings.typesDirectory (Naming.moduleName domain.name) ∈
      layout settings (first ++ domain :: last) := by
    have module : Naming.moduleName domain.name ∈ moduleNames (first ++ domain :: last) :=
      mem_moduleNames_iff.mpr ⟨domain, by simp, typed, rfl⟩
    exact layout_perm.mem_iff.mpr (List.mem_append_left _ (List.mem_map_of_mem module))
  exact ⟨edits, contents, made, kept, writes.filesAt_eq (nodup_paths_writes staged) inLayout
    (getLast?_filesAt_flushes format index typesPart new made kept)⟩

/-- In the package of a run that ends well each record binds the names of its properties, of its
setters and of its two methods, and each function that builds arguments takes the required ones. Which
of these names clash is read off the spellings of the properties. -/
theorem record_names_clash_as_spelled {State : Type} {persister : Persister State} {draft : Draft}
    {settings : Settings} {domains : List Domain} {before after : State}
    {written : List (Path × ByteArray)} {events : List Log.Event} {reached : Stage}
    (valid : draft.validate = .ok settings)
    (generated : generate format persister.recording settings domains (before, []) =
      ((after, written), ⟨events, .ok reached⟩)) :
    (∀ name other, FieldsMeet name other) ∧
    (∀ properties settable, settable.Sublist properties →
      ((recordNames properties settable).Nodup ↔ StandApart properties settable)) ∧
    (∀ scope field text, Field.default? scope field = some text →
      evaluatedNames text ⊆ defaultMakers) ∧
    ∃ index commandsCode commands eventsCode streams clientCode client,
      classify domains = .ok index ∧
      IsWritten written settings "commands"
        (commandsEdits index (typesPackageName settings) domains) commandsCode commands ∧
      recordBodies commandsCode = (domains.flatMap fun domain =>
        domain.commands.flatMap (commandRecords domain.name)) ∧
      IsWritten written settings "events"
        (eventsEdits index (typesPackageName settings) domains) eventsCode streams ∧
      recordBodies eventsCode = (domains.flatMap fun domain =>
        domain.events.map (eventRecord domain.name)) ∧
      IsWritten written settings "client"
        (clientEdits index settings.runtimeModule (typesPackageName settings) domains)
        clientCode client ∧
      definedFunctions clientCode = (domains.flatMap fun domain =>
        (buildableCommands domain).map (argsFunction domain.name)) ∧
      ∀ first domain last, domains = first ++ domain :: last → domain.types ≠ [] →
        Naming.moduleName domain.name ∉ moduleNames last →
        ∃ typesCode contents, TypesWritten written settings index domain typesCode contents ∧
          recordBodies typesCode = domain.types.flatMap (typeRecords index domain.name) := by
  obtain ⟨index, accepted, staged, persisted⟩ := generate_eq_ok generated
  obtain ⟨commandsCode, commands, commandsWritten⟩ :=
    exists_isWritten (standsAlone_commands index settings domains)
      (fun edits made => front_subset_of_collectEdits made
        (by simp [commandRegistryEdits, registryEdits]))
      staged persisted
  obtain ⟨eventsCode, streams, eventsWritten⟩ :=
    exists_isWritten (standsAlone_events index settings domains)
      (fun edits made => front_subset_of_collectEdits made
        (by simp [eventRegistryEdits, registryEdits]))
      staged persisted
  obtain ⟨clientCode, client, clientWritten⟩ :=
    exists_isWritten (standsAlone_client index settings domains)
      (fun edits made => front_subset_of_collectEdits made (by simp [clientClassEdits]))
      staged persisted
  refine ⟨fieldsMeet, fun _ _ => nodup_recordNames_iff, fun _ _ _ => evaluatedNames_of_default?,
    index, commandsCode, commands, eventsCode, streams, clientCode, client, accepted,
    commandsWritten, ?_, eventsWritten, ?_, clientWritten, ?_, ?_⟩
  · exact recordBodies_commandsEdits commandsWritten.made
  · exact recordBodies_eventsEdits eventsWritten.made
  · exact definedFunctions_clientEdits clientWritten.made
  · rintro first domain last rfl typed new
    obtain rfl : written = reached.writes := persistAll_recording persisted
    obtain ⟨typesCode, contents, typesWritten⟩ := exists_typesWritten (isPart_typesPackage valid)
      (stage_eq_ok_iff.mpr ⟨accepted, staged⟩) typed new
    exact ⟨typesCode, contents, typesWritten, recordBodies_typesEdits typesWritten.made⟩

def reelProperty (name : String) (optional : Bool) : Property :=
  ⟨.plain ⟨none, some "integer", none, none⟩, name, optional, false, false⟩

def reelTape : TypeDeclaration :=
  ⟨.plain ⟨none, some "object", none, none⟩, "Tape", some [reelProperty "fromDict" false,
    reelProperty "list" false], false, false⟩

def reelWind : Command :=
  ⟨"wind", none, [reelProperty "fooBar" false, reelProperty "foo_bar" false,
    reelProperty "toDict" false, reelProperty "setTo" false, reelProperty "dataclasses" false,
    reelProperty "commands" false, reelProperty "to" true], [], false, false⟩

/-- A domain whose records have names that clash. -/
def reel : Domain := ⟨"Reel", none, false, false, [reelTape], [reelWind], []⟩

def reelIndex : TypeIndex := ⟨[⟨"Reel", "Tape", .record, false, reelTape⟩]⟩

theorem classify_reel : classify [reel] = .ok reelIndex :=
  classify_of_unreferring [⟨"Reel", reelTape, .record, rfl⟩] rfl rfl (by decide)

theorem exists_run_reel : ∃ written events reached,
    generate format taker.recording Settings.default [reel] ((), []) =
      (((), written), ⟨events, .ok reached⟩) :=
  exists_run_of_shown hasPlainNames_default classify_reel rfl (by decide)

/-- Two fields of one record have one name, others have the name of a method, of a setter and of what
defaults are made with, and a parameter has the name of the module that is used behind it. -/
theorem reel_names_clash :
    Naming.attributeName "fooBar" = Naming.attributeName "foo_bar" ∧
    ∃ written events reached index commandsCode commands clientCode client,
      generate format taker.recording Settings.default [reel] ((), []) =
        (((), written), ⟨events, .ok reached⟩) ∧
      IsWritten written Settings.default "commands"
        (commandsEdits index (typesPackageName Settings.default) [reel]) commandsCode commands ∧
      recordBodies commandsCode = [("ReelWindArgs", ["foo_bar", "foo_bar", "to_dict", "set_to",
        "dataclasses", "commands", "to", "set_to", "to_dict", "from_dict"])] ∧
      IsWritten written Settings.default "client"
        (clientEdits index Settings.default.runtimeModule (typesPackageName Settings.default) [reel])
        clientCode client ∧
      definedFunctions clientCode = [("new_reel_wind_args",
        ["foo_bar", "foo_bar", "to_dict", "set_to", "dataclasses", "commands"])] := by
  obtain ⟨written, events, reached, generated⟩ := exists_run_reel
  obtain ⟨index, -, staged, persisted⟩ := generate_eq_ok generated
  obtain ⟨commandsCode, commands, commandsWritten⟩ :=
    exists_isWritten (standsAlone_commands index Settings.default [reel])
      (fun edits made => front_subset_of_collectEdits made
        (by simp [commandRegistryEdits, registryEdits]))
      staged persisted
  obtain ⟨clientCode, client, clientWritten⟩ :=
    exists_isWritten (standsAlone_client index Settings.default [reel])
      (fun edits made => front_subset_of_collectEdits made (by simp [clientClassEdits]))
      staged persisted
  refine ⟨Naming.attributeName_inj.mpr (by decide), written, events, reached, index, commandsCode,
    commands, clientCode, client, generated, commandsWritten, ?_, clientWritten, ?_⟩
  · rw [recordBodies_commandsEdits commandsWritten.made]
    decide +kernel
  · rw [definedFunctions_clientEdits clientWritten.made]
    decide +kernel

theorem reel_tape_shadows_method :
    ∃ written events reached index typesCode contents,
      generate format taker.recording Settings.default [reel] ((), []) =
        (((), written), ⟨events, .ok reached⟩) ∧
      TypesWritten written Settings.default index reel typesCode contents ∧
      recordBodies typesCode =
        [("Tape", recordNames [reelProperty "fromDict" false, reelProperty "list" false] [])] ∧
      ¬ (recordNames [reelProperty "fromDict" false, reelProperty "list" false] []).Nodup := by
  obtain ⟨written, events, reached, generated⟩ := exists_run_reel
  obtain ⟨-, apart, -, index, -, -, -, -, -, -, accepted, -, -, -, -, -, -, typed⟩ :=
    record_names_clash_as_spelled validate_default generated
  obtain ⟨typesCode, contents, typesWritten, records⟩ :=
    typed [] reel [] rfl (List.cons_ne_nil _ _) (by decide)
  obtain rfl : index = reelIndex := Except.ok.inj (accepted.symm.trans classify_reel)
  refine ⟨written, events, reached, reelIndex, typesCode, contents, generated, typesWritten, ?_, ?_⟩
  · rw [records]
    rfl
  · rw [apart _ _ (List.nil_sublist _)]
    rintro ⟨-, methods, -⟩
    exact methods (reelProperty "fromDict" false) List.mem_cons_self (by decide)

end ProtocolGen.Package
