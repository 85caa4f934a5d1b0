import ProtocolGen.Proofs.Emission.TopLevelNames
import ProtocolGen.Proofs.Package.Facade

/-!
# Names that clash

The names at the top of the written modules are made of the names in the protocol, and nothing tells
those apart that are spelled alike. Members of registries and classes of commands and events are one
when their pairs of a domain and a name are, put together; classes of domains when the domains are, or
when one is spelled as another with the ending of the class behind it. A domain with letters first has
a class of an imported name exactly when it is spelled as that name.
-/

set_option autoImplicit false

namespace ProtocolGen.Package

open ProtocolGen.Types ProtocolGen.Emission ProtocolGen.Source

/-- Pairs of a domain and a name that are spelled alike when each is put together. -/
def SpelledAlike (domain name other otherName : String) : Prop :=
  Naming.pascal domain ++ Naming.pascal name = Naming.pascal other ++ Naming.pascal otherName

/-- The names that are made of two pairs are the same exactly when the pairs are spelled alike. -/
structure PairsMeet (domain name other otherName : String) : Prop where
  members : Naming.memberName domain name = Naming.memberName other otherName ↔
    SpelledAlike domain name other otherName
  args : Naming.argsName domain name = Naming.argsName other otherName ↔
    SpelledAlike domain name other otherName
  replies : Naming.replyName domain name = Naming.replyName other otherName ↔
    SpelledAlike domain name other otherName
  receivers : Naming.eventClientName domain name = Naming.eventClientName other otherName ↔
    SpelledAlike domain name other otherName

theorem pairsMeet (domain name other otherName : String) : PairsMeet domain name other otherName :=
  ⟨Naming.memberName_inj, Naming.argsName_inj, Naming.replyName_inj, Naming.eventClientName_inj⟩

/-- When the classes of two domains in the client module have one name. -/
structure DomainsMeet (domain other : String) : Prop where
  capabilities : Naming.domainClass domain = Naming.domainClass other ↔
    Naming.pascal domain = Naming.pascal other
  connected : Naming.domainClass domain ++ "Domain" = Naming.domainClass other ++ "Domain" ↔
    Naming.pascal domain = Naming.pascal other
  behind : Naming.domainClass domain ++ "Domain" = Naming.domainClass other ↔
    Naming.pascal domain ++ "Domain" = Naming.pascal other ∧
      Naming.pascal domain ∉ Naming.guardedSpellings

theorem domainsMeet (domain other : String) : DomainsMeet domain other :=
  ⟨Naming.domainClass_inj, by rw [String.append_left_inj, Naming.domainClass_inj],
    Naming.domainClass_append_eq_iff⟩

/-- The names of imports that a domain's class can have, and when they are imported. -/
def IsImportedSpelling (domains : List Domain) (spelling : String) : Prop :=
  spelling ∈ ["Conn", "ABC"] ∨
    (∃ domain ∈ domains, domain.events ≠ []) ∧ spelling ∈ ["EventDecodeError", "Stream"]

/-- What the client module defines and which of its classes have the name of something it imports. -/
structure ClientNames (domains : List Domain) (code : List Edit) : Prop where
  classes : definedClasses code = "Client" :: domains.flatMap classesOf
  client : ∀ domain, Naming.domainClass domain ≠ "Client" ∧
    Naming.domainClass domain ++ "Domain" ≠ "Client"
  clientNotImported : "Client" ∉ importedNames code
  connectedNotImported : ∀ domain, Naming.domainClass domain ++ "Domain" ∉ importedNames code
  imported : ∀ domain ∈ domains, Naming.BeginsWithLetter (Naming.pascal domain.name) →
    (Naming.domainClass domain.name ∈ importedNames code ↔
      IsImportedSpelling domains (Naming.pascal domain.name))

theorem domainClass_mem_iff {domain : String} {names : List String}
    (plain : ∀ known ∈ names, Naming.IsSpelling known.toList ∧
      known.toList ∉ Naming.guardedSpellings.map String.toList ∧
      Naming.guardDigit known.toList = known.toList) :
    Naming.domainClass domain ∈ names ↔ Naming.pascal domain ∈ names := by
  induction names with
  | nil => simp
  | cons known names ih =>
    obtain ⟨⟨spelling, notGuarded, stays⟩, others⟩ := List.forall_mem_cons.mp plain
    have same := (spelling.classChars_of_plain notGuarded).trans stays
    rw [List.mem_cons, List.mem_cons, Naming.domainClass_eq_iff spelling same, ih others]

theorem hasCapital_connected (domain : String) :
    Naming.HasCapital (Naming.domainClass domain ++ "Domain") := by
  refine ⟨'D', ?_, by decide⟩
  rw [String.toList_append]
  exact List.mem_append_right _ List.mem_cons_self

section Client

variable {index : TypeIndex} {runtimeModule typesPackage : String} {domains : List Domain}
  {edits : List Edit} (made : clientEdits index runtimeModule typesPackage domains = .ok edits)

include made

theorem connected_not_mem_importedNames (domain : String) :
    Naming.domainClass domain ++ "Domain" ∉ importedNames edits := by
  have other : Naming.domainClass domain ++ "Domain" ∉
      ["Conn", "ABC", "EventDecodeError", "Stream"] := Naming.append_not_mem (by decide)
  simp only [List.mem_cons, List.not_mem_nil, or_false, not_or] at other
  obtain ⟨conn, abc, decodeError, stream⟩ := other
  rw [mem_importedNames_clientEdits_iff (hasCapital_connected domain) made]
  simp [conn, abc, decodeError, stream]

theorem domainClass_mem_importedNames_iff {domain : Domain} (inDomains : domain ∈ domains)
    (letter : Naming.BeginsWithLetter (Naming.pascal domain.name)) :
    Naming.domainClass domain.name ∈ importedNames edits ↔
      IsImportedSpelling domains (Naming.pascal domain.name) := by
  have always : Naming.domainClass domain.name ∈ ["Conn", "ABC"] ↔
      Naming.pascal domain.name ∈ ["Conn", "ABC"] :=
    domainClass_mem_iff (by decide)
  have streams : Naming.domainClass domain.name ∈ ["EventDecodeError", "Stream"] ↔
      Naming.pascal domain.name ∈ ["EventDecodeError", "Stream"] :=
    domainClass_mem_iff (by decide)
  rw [mem_importedNames_clientEdits_iff (Naming.hasCapital_domainClass letter) made,
    IsImportedSpelling, ← always, ← streams]
  have notEmpty : domains ≠ [] := List.ne_nil_of_mem inDomains
  simp only [ne_eq, notEmpty, not_false_eq_true, true_and, List.mem_cons, List.not_mem_nil, or_false]
  rw [or_assoc]

theorem clientNames_of_clientEdits : ClientNames domains edits where
  classes := definedClasses_clientEdits made
  client := Naming.domainClass_ne_client
  clientNotImported := by
    rw [mem_importedNames_clientEdits_iff (by decide) made]
    simp
  connectedNotImported := connected_not_mem_importedNames made
  imported _ := domainClass_mem_importedNames_iff made

end Client

/-! ## Written packages -/

/-- In the package of a run that ends well the classes of each module are those of the protocol, and
which names clash is read off the spellings alone. -/
theorem names_clash_as_spelled {State : Type} {persister : Persister State}
    {settings : Settings} {domains : List Domain} {before after : State}
    {written : List (Path × ByteArray)} {events : List Log.Event} {reached : Stage}
    (generated : generate format persister.recording settings domains (before, []) =
      ((after, written), ⟨events, .ok reached⟩)) :
    (∀ domain name other otherName, PairsMeet domain name other otherName) ∧
    (∀ domain other, DomainsMeet domain other) ∧
    ∃ index commandsCode commands eventsCode streams clientCode client,
      classify domains = .ok index ∧
      IsWritten written settings "commands"
        (commandsEdits index (typesPackageName settings) domains) commandsCode commands ∧
      definedClasses commandsCode = "CmdType" :: domains.flatMap (fun domain =>
        domain.commands.flatMap (commandClasses domain.name)) ∧
      IsWritten written settings "events"
        (eventsEdits index (typesPackageName settings) domains) eventsCode streams ∧
      definedClasses eventsCode = "EventType" :: domains.flatMap (fun domain =>
        domain.events.flatMap (eventClasses domain.name)) ∧
      IsWritten written settings "client"
        (clientEdits index settings.runtimeModule (typesPackageName settings) domains)
        clientCode client ∧
      ClientNames domains clientCode := by
  obtain ⟨index, accepted, staged, persisted⟩ := generate_eq_ok generated
  obtain ⟨commandsCode, commands, commandsWritten⟩ :=
    exists_isWritten (standsAlone_commands index settings domains)
      (fun edits made => front_subset_of_collectEdits made
        (by simp [commandRegistryEdits, registryEdits]))
      staged persisted
  obtain ⟨eventsCode, streams, eventsWritten⟩ :=
    exists_isWritten (standsAlone_events index settings domains)
      (fun edits made => front_subset_of_collectEdits made
        (by simp [eventRegistryEdits, registryEdits]))
      staged persisted
  obtain ⟨clientCode, client, clientWritten⟩ :=
    exists_isWritten (standsAlone_client index settings domains)
      (fun edits made => front_subset_of_collectEdits made (by simp [clientClassEdits]))
      staged persisted
  refine ⟨pairsMeet, domainsMeet, index, commandsCode, commands, eventsCode, streams, clientCode,
    client, accepted, commandsWritten, ?_, eventsWritten, ?_, clientWritten, ?_⟩
  · exact definedClasses_commandsEdits commandsWritten.made
  · exact definedClasses_eventsEdits eventsWritten.made
  · exact clientNames_of_clientEdits clientWritten.made

/-- A domain with one command, which has an argument. -/
def tuner (name command : String) : Domain :=
  ⟨name, none, false, false, [], [⟨command, none, [steps], [], false, false⟩], []⟩

/-- Two commands of different domains have one member and one class of arguments. -/
theorem tuners_share_a_member :
    (∃ written events reached, generate format taker.recording Settings.default
        [tuner "A" "bC", tuner "AB" "C"] ((), []) = (((), written), ⟨events, .ok reached⟩)) ∧
    ("A", "bC") ≠ ("AB", "C") ∧
    Naming.memberName "A" "bC" = Naming.memberName "AB" "C" ∧
    Naming.argsName "A" "bC" = Naming.argsName "AB" "C" := by
  have accepted : classify [tuner "A" "bC", tuner "AB" "C"] = .ok ⟨[]⟩ := rfl
  have alike : SpelledAlike "A" "bC" "AB" "C" := by
    unfold SpelledAlike
    decide
  have meet := pairsMeet "A" "bC" "AB" "C"
  exact ⟨exists_run_of_shown hasPlainNames_default accepted rfl (by decide), by decide,
    meet.members.mpr alike, meet.args.mpr alike⟩

theorem abc_tuner_has_imported_name :
    ∃ written events reached index clientCode client,
      generate format taker.recording Settings.default [tuner "ABC" "tune"] ((), []) =
        (((), written), ⟨events, .ok reached⟩) ∧
      IsWritten written Settings.default "client"
        (clientEdits index Settings.default.runtimeModule (typesPackageName Settings.default)
          [tuner "ABC" "tune"]) clientCode client ∧
      definedClasses clientCode = ["Client", "ABC", "ABCDomain"] ∧
      "ABC" ∈ importedNames clientCode := by
  obtain ⟨written, events, reached, generated⟩ := exists_run_of_shown hasPlainNames_default
    (show classify [tuner "ABC" "tune"] = .ok ⟨[]⟩ from rfl) rfl (by decide)
  obtain ⟨-, -, index, -, -, -, -, clientCode, client, -, -, -, -, -, isWritten, names⟩ :=
    names_clash_as_spelled generated
  have name : Naming.domainClass "ABC" = "ABC" :=
    List.mem_singleton.mp ((domainClass_mem_iff (by decide)).mpr (by decide))
  have spelled : IsImportedSpelling [tuner "ABC" "tune"] (Naming.pascal "ABC") :=
    .inl (by decide)
  have imported : Naming.domainClass "ABC" ∈ importedNames clientCode :=
    (names.imported (tuner "ABC" "tune") List.mem_cons_self (by decide)).mpr spelled
  refine ⟨written, events, reached, index, clientCode, client, generated, isWritten, ?_, ?_⟩
  · rw [names.classes, List.flatMap_singleton, classesOf]
    exact congrArg (fun name => ["Client", name, name ++ "Domain"]) name
  · rwa [name] at imported

end ProtocolGen.Package
