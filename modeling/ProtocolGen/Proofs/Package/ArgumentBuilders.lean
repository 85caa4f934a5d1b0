import ProtocolGen.Proofs.Emission.ArgumentBuilders
import ProtocolGen.Proofs.Package.Facade

/-!
# Arguments in two modules

The commands module holds the record of a command's arguments, and the client module the function that
builds it from the required ones. Both resolve the parameters of the command for themselves, and what
they write of them agrees.
-/

set_option autoImplicit false

namespace ProtocolGen.Package

open ProtocolGen.Types ProtocolGen.Emission ProtocolGen.FileTree ProtocolGen.Source

/-- In the package of a run that ends well each command with an optional parameter has a record with a
setter for each of those, and a function that takes the fields of the record without a default, with the
annotations that they have there, and passes each under its own name. Two setters have one name only
where two fields have. -/
theorem argument_builders_match_records {State : Type} {persister : Persister State}
    {settings : Settings} {domains : List Domain} {before after : State}
    {written : List (Path × ByteArray)} {events : List Log.Event} {reached : Stage}
    (generated : generate format persister.recording settings domains (before, []) =
      ((after, written), ⟨events, .ok reached⟩)) :
    (∀ name other, Naming.setterName (Naming.attributeName name) =
        Naming.setterName (Naming.attributeName other) ↔
      Naming.attributeName name = Naming.attributeName other) ∧
    ∃ index commandsCode commands clientCode client,
      classify domains = .ok index ∧
      IsWritten written settings "commands"
        (commandsEdits index (typesPackageName settings) domains) commandsCode commands ∧
      IsWritten written settings "client"
        (clientEdits index settings.runtimeModule (typesPackageName settings) domains)
        clientCode client ∧
      List.Forall₂ (fun command code => HoldsArguments command.1 command.2 code) (buildable domains)
        (settableClasses commandsCode) ∧
      (builders clientCode).map Builder.name = ((buildable domains).map fun command =>
        Naming.argsConstructorName command.1 command.2.name) ∧
      List.Forall₂ Builds (builders clientCode) (settableClasses commandsCode) := by
  obtain ⟨index, accepted, staged, persisted⟩ := generate_eq_ok generated
  obtain ⟨commandsCode, commands, commandsWritten⟩ :=
    exists_isWritten (standsAlone_commands index settings domains)
      (fun edits made => front_subset_of_collectEdits made
        (by simp [commandRegistryEdits, registryEdits]))
      staged persisted
  obtain ⟨clientCode, client, clientWritten⟩ :=
    exists_isWritten (standsAlone_client index settings domains)
      (fun edits made => front_subset_of_collectEdits made (by simp [clientClassEdits]))
      staged persisted
  have resolved := exists_fieldsOf_of_mem_buildable clientWritten.made
  refine ⟨fun _ _ => Naming.setterName_inj.trans Naming.attributeName_inj.symm, index, commandsCode,
    commands, clientCode, client, accepted, commandsWritten, clientWritten, ?_, ?_, ?_⟩
  · rw [settableClasses_commandsEdits commandsWritten.made, List.forall₂_map_right_iff,
      List.forall₂_same]
    intro command member
    obtain ⟨fields, made⟩ := resolved command member
    exact holdsArguments_argsCode made
  · rw [builders_clientEdits clientWritten.made, List.map_map]
    rfl
  · rw [builders_clientEdits clientWritten.made, settableClasses_commandsEdits commandsWritten.made,
      List.forall₂_map_left_iff, List.forall₂_map_right_iff, List.forall₂_same]
    intro command member
    obtain ⟨fields, made⟩ := resolved command member
    exact builds_argsBuilder made

def kiteCord : TypeDeclaration :=
  ⟨.plain ⟨none, some "object", none, none⟩, "Cord",
    some [⟨.plain ⟨none, some "number", none, none⟩, "length", false, false, false⟩], false, false⟩

def kiteFly : Command :=
  ⟨"fly", none,
    [⟨.plain ⟨none, none, some "Cord", none⟩, "cord", false, false, false⟩,
      ⟨.withItems ⟨none, some "array", none, none⟩ (.plain ⟨none, some "string", none, none⟩), "tails",
        true, false, false⟩,
      ⟨.plain ⟨none, some "any", none, none⟩, "mark", false, false, false⟩,
      ⟨.plain ⟨none, some "string", none, none⟩, "class", true, false, false⟩], [], false, false⟩

/-- A kite is flown on a cord, and may have tails and a class. -/
def kite : Domain := ⟨"Kite", none, false, false, [kiteCord], [kiteFly], []⟩

def kiteIndex : TypeIndex := ⟨[⟨"Kite", "Cord", .record, false, kiteCord⟩]⟩

theorem classify_kite : classify [kite] = .ok kiteIndex :=
  classify_of_unreferring [⟨"Kite", kiteCord, .record, rfl⟩] rfl rfl (by decide)

theorem exists_run_kite : ∃ written events reached,
    generate format taker.recording Settings.default [kite] ((), []) =
      (((), written), ⟨events, .ok reached⟩) :=
  exists_run_of_shown hasPlainNames_default classify_kite rfl (by decide)

/-- The cord and the mark have to be given, and the others have setters. -/
theorem kite_builder_takes_cord_and_mark :
    ∃ written events reached commandsCode commands clientCode client,
      generate format taker.recording Settings.default [kite] ((), []) =
        (((), written), ⟨events, .ok reached⟩) ∧
      IsWritten written Settings.default "commands"
        (commandsEdits kiteIndex (typesPackageName Settings.default) [kite]) commandsCode commands ∧
      IsWritten written Settings.default "client"
        (clientEdits kiteIndex Settings.default.runtimeModule (typesPackageName Settings.default) [kite])
        clientCode client ∧
      settableClasses commandsCode = [⟨"KiteFlyArgs",
        [⟨"cord", "kite.Cord", none⟩,
          ⟨"tails", "list[str]", some "dataclasses.field(default_factory=list)"⟩,
          ⟨"mark", "Any", none⟩, ⟨"class_", "str | None", some "None"⟩],
        ["set_tails", "set_class"]⟩] ∧
      builders clientCode = [⟨"new_kite_fly_args", [("cord", "kite.Cord"), ("mark", "Any")],
        "KiteFlyArgs", [("cord", "cord"), ("mark", "mark")]⟩] ∧
      List.Forall₂ Builds (builders clientCode) (settableClasses commandsCode) := by
  obtain ⟨written, events, reached, generated⟩ := exists_run_kite
  obtain ⟨-, index, commandsCode, commands, clientCode, client, accepted, commandsWritten,
    clientWritten, -, -, built⟩ := argument_builders_match_records generated
  obtain rfl : index = kiteIndex := Except.ok.inj (accepted.symm.trans classify_kite)
  refine ⟨written, events, reached, commandsCode, commands, clientCode, client, generated,
    commandsWritten, clientWritten, ?_, ?_, built⟩
  · rw [settableClasses_commandsEdits commandsWritten.made]
    decide +kernel
  · rw [builders_clientEdits clientWritten.made]
    decide +kernel

end ProtocolGen.Package
