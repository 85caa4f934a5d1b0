import ProtocolGen.Proofs.Emission.Definitions
import ProtocolGen.Proofs.Emission.Facade
import ProtocolGen.Proofs.Emission.Methods
import ProtocolGen.Proofs.Package.FormatFaults

/-!
# The client and the modules behind it

In a package that is written, what the client's code names is there: the argument and reply classes of
the signatures in the commands module, the registry members with their wire names in the registries,
and the receivers and payloads in the events module.
-/

set_option autoImplicit false

namespace ProtocolGen.Package

open ProtocolGen.Types ProtocolGen.Emission ProtocolGen.Source

/-! ## Lines of written modules -/

/-- A module beside the types package that is written with a line of code. -/
def HasCode (written : List (Path × ByteArray)) (settings : Settings) (module text : String)
    (indent : Nat) : Prop :=
  ∃ contents : String,
    (moduleFile settings.packageDirectory module, contents.toUTF8) ∈ written ∧
      (Buffer.indented text indent).toList ∈ linesOf contents.toList

section Run

variable {State : Type} {persister : Persister State} {settings : Settings} {domains : List Domain}
  {before after : State} {written : List (Path × ByteArray)} {events : List Log.Event}
  {reached : Stage} {index : TypeIndex}

/-- A module that is written: its code, and the text that is kept of it. -/
structure IsWritten (written : List (Path × ByteArray)) (settings : Settings) (module : String)
    (code : Except Types.Failure (List Edit)) (edits : List Edit) (contents : String) : Prop where
  made : code = .ok edits
  kept : keptText? format settings.runtimeModule edits = some contents
  taken : (moduleFile settings.packageDirectory module, contents.toUTF8) ∈ written

theorem IsWritten.hasCode {module : String} {code : Except Types.Failure (List Edit)} {edits : List Edit}
    {contents line : String} {indent : Nat} {pieces : List Piece}
    (isWritten : IsWritten written settings module code edits contents)
    (member : .line line indent ∈ edits) (spells : Spells line pieces) :
    HasCode written settings module line indent :=
  ⟨contents, isWritten.taken, mem_linesOf_keptText_of_line isWritten.kept member (spells.isSolid_indented indent)⟩

theorem exists_isWritten {module : String} {code : Except Types.Failure (List Edit)}
    (alone : StandsAlone ⟨moduleFile settings.packageDirectory module, code⟩
      (plan index settings domains))
    (declares : ∀ edits, code = .ok edits → .declare ∈ edits)
    (staged : (stagePlanned format (Buffer.new settings.runtimeModule) Stage.empty
      (plan index settings domains)).result = .ok reached)
    (persisted : persistAll persister.recording (before, []) reached.writes =
      ((after, written), none)) :
    ∃ edits contents, IsWritten written settings module code edits contents := by
  obtain ⟨front, back, split, others⟩ := alone
  rw [split] at staged
  obtain ⟨edits, made, files⟩ := filesAt_written others staged persisted
  obtain ⟨contents, kept⟩ : ∃ contents,
      keptText? format settings.runtimeModule edits = some contents :=
    exists_keptText (declares edits made)
  refine ⟨edits, contents, made, kept, ?_⟩
  have member : (moduleFile settings.packageDirectory module, contents.toUTF8) ∈
      filesAt (moduleFile settings.packageDirectory module) written := by
    rw [files, kept]
    exact List.mem_singleton_self _
  exact (List.mem_filter.mp member).1

end Run

/-! ## Agreement -/

/-- The signature of a command agrees with the classes of the commands module. -/
structure SignatureAgrees (hasCode : String → String → Nat → Prop) (domain : String)
    (command : Command) : Prop where
  written : hasCode "client" (commandSignature domain command) 1
  takesArguments : (∃ name, Says (commandSignature domain command) (argumentsPhrase name)) ↔
    command.parameters ≠ []
  returnsReply : (∃ name, Says (commandSignature domain command) (replyPhrase name)) ↔
    command.returns ≠ []
  argumentsClass : ∀ name, Says (commandSignature domain command) (argumentsPhrase name) →
    hasCode "commands" ("class " ++ name ++ ":") 0
  replyClass : ∀ name, Says (commandSignature domain command) (replyPhrase name) →
    hasCode "commands" ("class " ++ name ++ ":") 0

/-- A line of code for something with a wire name can be read, and what it names is there. -/
structure LineAgrees (hasCode : String → String → Nat → Prop) (wire text : String) : Prop where
  reads : ∃ located, lexemes text.toList = .ok located
  qualified : ∀ member, ¬ Names text ["CmdType", member] ∧ ¬ Names text ["EventType", member]
  commandMember : ∀ member, Names text ["commands", "CmdType", member] →
    hasCode "commands" (member ++ " = " ++ Text.literalOf wire) 1
  eventMember : ∀ member, Names text ["events", "EventType", member] →
    hasCode "events" (member ++ " = " ++ Text.literalOf wire) 1
  eventClass : ∀ name, Names text ["events", name] →
    ∃ head, IsClassHead name head ∧ hasCode "events" head 0

/-- For a line that is spelled by pieces the names in it are those in the pieces. -/
theorem LineAgrees.of_spells {hasCode : String → String → Nat → Prop} {wire text : String}
    {pieces : List Piece} (spells : Spells text pieces)
    (qualified : ∀ full ∈ dottedNames (Piece.lexemes pieces ++ [.lineEnd]), ∀ member,
      ¬ ["CmdType", member] <+: full ∧ ¬ ["EventType", member] <+: full)
    (named : ∀ full ∈ dottedNames (Piece.lexemes pieces ++ [.lineEnd]), ∀ name,
      (["commands", "CmdType", name] <+: full →
        hasCode "commands" (name ++ " = " ++ Text.literalOf wire) 1) ∧
      (["events", "EventType", name] <+: full →
        hasCode "events" (name ++ " = " ++ Text.literalOf wire) 1) ∧
      (["events", name] <+: full → ∃ head, IsClassHead name head ∧ hasCode "events" head 0)) :
    LineAgrees hasCode wire text where
  reads := by
    obtain ⟨located, reads, -⟩ := spells.exists_lexemes
    exact ⟨located, reads⟩
  qualified member := by
    refine ⟨fun names => ?_, fun names => ?_⟩
    · obtain ⟨full, inLine, begins⟩ := spells.names_iff.mp names
      exact (qualified full inLine member).1 begins
    · obtain ⟨full, inLine, begins⟩ := spells.names_iff.mp names
      exact (qualified full inLine member).2 begins
  commandMember name names := by
    obtain ⟨full, inLine, begins⟩ := spells.names_iff.mp names
    exact (named full inLine name).1 begins
  eventMember name names := by
    obtain ⟨full, inLine, begins⟩ := spells.names_iff.mp names
    exact (named full inLine name).2.1 begins
  eventClass name names := by
    obtain ⟨full, inLine, begins⟩ := spells.names_iff.mp names
    exact (named full inLine name).2.2 begins

/-- The code for something with a wire name agrees with the modules that it names. -/
def CodeAgrees (hasCode : String → String → Nat → Prop) (wire : String) (edits : List Edit) : Prop :=
  ∀ text indent, .line text indent ∈ edits →
    hasCode "client" text indent ∧ LineAgrees hasCode wire text

/-- The two classes of a domain stand side by side in the client's code and have the same methods. -/
structure ClassesAgree (domain : Domain) (edits : List Edit) : Prop where
  sideBySide : capabilityEdits domain ++ connectedEdits domain <:+: edits
  abstract : methodHeads (capabilityEdits domain) = abstractHeads (capabilityEdits domain)
  connected : methodHeads (connectedEdits domain) =
    setupHead :: abstractHeads (capabilityEdits domain)

theorem ClassesAgree.of_clientEdits {index : TypeIndex} {runtimeModule typesPackage : String}
    {domains : List Domain} {domain : Domain} {edits : List Edit} (member : domain ∈ domains)
    (made : clientEdits index runtimeModule typesPackage domains = .ok edits) :
    ClassesAgree domain edits := by
  obtain ⟨body, bodyMade, within⟩ := exists_infix_of_collectEdits made member
  obtain ⟨builders, -, finished⟩ := bind_eq_ok_iff.mp bodyMade
  cases finished
  refine ⟨List.IsInfix.trans ?_ within, ?_, ?_⟩
  · refine ⟨[.header (some clientHeading), .declare, .require "abc" ["ABC", "abstractmethod"]],
      domain.events.flatMap (streamEdits runtimeModule domain.name) ++ builders.flatten, ?_⟩
    simp only [domainClassEdits, List.append_assoc]
  · rw [methodHeads_capabilityEdits, abstractHeads_capabilityEdits]
  · rw [methodHeads_connectedEdits, abstractHeads_capabilityEdits]

section Agreement

variable {written : List (Path × ByteArray)} {settings : Settings} {domains : List Domain}
  {index : TypeIndex} {domain : Domain} {clientCode commandsCode eventsCode : List Edit}
  {client commands events : String}
  (clientWritten : IsWritten written settings "client"
    (clientEdits index settings.runtimeModule (typesPackageName settings) domains) clientCode client)
  (commandsWritten : IsWritten written settings "commands"
    (commandsEdits index (typesPackageName settings) domains) commandsCode commands)
  (eventsWritten : IsWritten written settings "events"
    (eventsEdits index (typesPackageName settings) domains) eventsCode events)
  (inDomains : domain ∈ domains)

include clientWritten commandsWritten inDomains

theorem signatureAgrees {command : Command} (inCommands : command ∈ domain.commands) :
    SignatureAgrees (HasCode written settings) domain.name command := by
  have method : .line (commandSignature domain.name command) 1 ∈
      commandMethodEdits domain.name command := by simp [commandMethodEdits]
  have inClient := (methodEdits_subset_clientEdits inDomains clientWritten.made).1 _ inCommands method
  refine ⟨clientWritten.hasCode inClient (spells_commandSignature _ _), ?_, ?_, ?_, ?_⟩
  · simp only [says_argumentsPhrase_iff, exists_and_left, exists_eq, and_true]
  · simp only [says_replyPhrase_iff, exists_and_left, exists_eq, and_true]
  · intro name said
    obtain ⟨parameters, rfl⟩ := says_argumentsPhrase_iff.mp said
    exact commandsWritten.hasCode
      (argsClass_mem_commandsEdits inDomains inCommands commandsWritten.made parameters)
      (spells_class (Naming.isIdentifier_argsName _ _))
  · intro name said
    obtain ⟨returned, rfl⟩ := says_replyPhrase_iff.mp said
    exact commandsWritten.hasCode
      (replyClass_mem_commandsEdits inDomains inCommands commandsWritten.made returned)
      (spells_class (Naming.isIdentifier_replyName _ _))

theorem codeAgrees_of_command {command : Command} (inCommands : command ∈ domain.commands) :
    CodeAgrees (HasCode written settings) (wireName domain.name command.name)
      (commandMethodEdits domain.name command) := by
  intro text indent member
  have inClient := (methodEdits_subset_clientEdits inDomains clientWritten.made).1 _ inCommands member
  have code : text ∈ codeLines (commandMethodEdits domain.name command) :=
    List.mem_filterMap.mpr ⟨_, member, rfl⟩
  obtain ⟨pieces, method, spells⟩ := exists_right_of_mem (spells_commandMethod domain.name command) code
  have named := names_of_commandMethodPieces pieces method
  refine ⟨clientWritten.hasCode inClient spells,
    .of_spells spells (qualified_of_commandMethodPieces pieces method) fun full inLine name =>
      ⟨fun begins => ?_, fun begins => ?_, fun begins => ?_⟩⟩
  · rw [(named full inLine name).1 begins]
    exact commandsWritten.hasCode
      (binding_mem_commandsEdits inDomains inCommands commandsWritten.made)
      (spells_binding (Naming.isIdentifier_memberName _ _) _)
  · exact absurd (List.IsPrefix.trans (List.prefix_append ["events", "EventType"] [name]) begins)
      (named full inLine "EventType").2
  · exact absurd begins (named full inLine name).2

omit commandsWritten
include eventsWritten

theorem codeAgrees_of_event {event : Event} (inEvents : event ∈ domain.events) :
    CodeAgrees (HasCode written settings) (wireName domain.name event.name)
      (eventMethodEdits domain.name event ++
        streamEdits settings.runtimeModule domain.name event) := by
  intro text indent member
  have inClient := (methodEdits_subset_clientEdits inDomains clientWritten.made).2 _ inEvents member
  have code : text ∈ codeLines (eventMethodEdits domain.name event) ++
      codeLines (streamEdits settings.runtimeModule domain.name event) := by
    rw [codeLines, codeLines, ← List.filterMap_append]
    exact List.mem_filterMap.mpr ⟨_, member, rfl⟩
  obtain ⟨pieces, method, spells⟩ := exists_right_of_mem
    (List.rel_append (spells_eventMethod domain.name event)
      (spells_stream settings.runtimeModule domain.name event)) code
  have named := names_of_eventPieces pieces method
  refine ⟨clientWritten.hasCode inClient spells,
    .of_spells spells (qualified_of_eventPieces pieces method) fun full inLine name =>
      ⟨fun begins => ?_, fun begins => ?_, fun begins => ?_⟩⟩
  · exact absurd begins (named full inLine name).2.1
  · rw [(named full inLine name).1 begins]
    exact eventsWritten.hasCode (binding_mem_eventsEdits inDomains inEvents eventsWritten.made)
      (spells_binding (Naming.isIdentifier_memberName _ _) _)
  · have registry := registryClass_mem_eventsEdits eventsWritten.made
    have classes := eventClasses_mem_eventsEdits inDomains inEvents eventsWritten.made
    have known := (named full inLine name).2.2 begins
    simp only [List.mem_cons, List.not_mem_nil, or_false] at known
    rcases known with rfl | rfl | rfl
    · exact ⟨_, isClassHead_derived _ _, eventsWritten.hasCode registry
        (spells_derivedClass (by decide) (by decide))⟩
    · exact ⟨_, isClassHead_derived _ _, eventsWritten.hasCode classes.1
        (spells_derivedClass (Naming.isIdentifier_eventClientName _ _) (by decide))⟩
    · exact ⟨_, .inl List.prefix_rfl, eventsWritten.hasCode classes.2
        (spells_class (Naming.isIdentifier_replyName _ _))⟩

end Agreement

/-- Whatever a run that ends well takes its files to, the client agrees with the modules behind it:
each signature with the argument and reply classes, each line of code for a command or an event with
the registries and the receivers, and each abstract class with the one that carries it out. -/
theorem facade_agrees_with_payloads {State : Type} {persister : Persister State}
    {settings : Settings} {domains : List Domain} {before after : State}
    {written : List (Path × ByteArray)} {events : List Log.Event} {reached : Stage}
    (generated : generate format persister.recording settings domains (before, []) =
      ((after, written), ⟨events, .ok reached⟩)) :
    ∃ index clientCode client, classify domains = .ok index ∧
      IsWritten written settings "client"
        (clientEdits index settings.runtimeModule (typesPackageName settings) domains)
        clientCode client ∧
      ∀ domain ∈ domains,
        (∀ command ∈ domain.commands,
          SignatureAgrees (HasCode written settings) domain.name command ∧
          CodeAgrees (HasCode written settings) (wireName domain.name command.name)
            (commandMethodEdits domain.name command)) ∧
        (∀ event ∈ domain.events,
          CodeAgrees (HasCode written settings) (wireName domain.name event.name)
            (eventMethodEdits domain.name event ++
              streamEdits settings.runtimeModule domain.name event)) ∧
        ClassesAgree domain clientCode := by
  obtain ⟨index, accepted, staged, persisted⟩ := generate_eq_ok generated
  obtain ⟨clientCode, client, clientWritten⟩ :=
    exists_isWritten (standsAlone_client index settings domains)
      (fun edits made => front_subset_of_collectEdits made (by simp [clientClassEdits]))
      staged persisted
  obtain ⟨commandsCode, commands, commandsWritten⟩ :=
    exists_isWritten (standsAlone_commands index settings domains)
      (fun edits made => front_subset_of_collectEdits made
        (by simp [commandRegistryEdits, registryEdits]))
      staged persisted
  obtain ⟨eventsCode, events, eventsWritten⟩ :=
    exists_isWritten (standsAlone_events index settings domains)
      (fun edits made => front_subset_of_collectEdits made
        (by simp [eventRegistryEdits, registryEdits]))
      staged persisted
  refine ⟨index, clientCode, client, accepted, clientWritten, fun domain inDomains => ?_⟩
  refine ⟨fun command inCommands => ⟨?_, ?_⟩, fun event inEvents => ?_, ?_⟩
  · exact signatureAgrees clientWritten commandsWritten inDomains inCommands
  · exact codeAgrees_of_command clientWritten commandsWritten inDomains inCommands
  · exact codeAgrees_of_event clientWritten eventsWritten inDomains inEvents
  · exact .of_clientEdits inDomains clientWritten.made

def steps : Property := ⟨.plain ⟨none, some "integer", none, none⟩, "steps", false, false, false⟩

def dialTurn : Command := ⟨"turn", none, [steps], [steps], false, false⟩

/-- A domain with a command that has parameters and a reply, and with an event. -/
def dial : Domain :=
  ⟨"Dial", none, false, false, [], [dialTurn], [⟨"turned", none, [steps], false, false⟩]⟩

theorem dial_facade_agrees :
    ∃ written events reached,
      generate format taker.recording Settings.default [dial] ((), []) =
        (((), written), ⟨events, .ok reached⟩) ∧
      Says (commandSignature "Dial" dialTurn) (argumentsPhrase "DialTurnArgs") ∧
      HasCode written Settings.default "commands" "class DialTurnArgs:" 0 ∧
      HasCode written Settings.default "commands" "DialTurn = 'Dial.turn'" 1 := by
  obtain ⟨written, events, reached, generated⟩ := exists_run_of_shown hasPlainNames_default
    (show classify [dial] = .ok ⟨[]⟩ from rfl) rfl (by decide)
  obtain ⟨index, clientCode, client, -, -, agrees⟩ := facade_agrees_with_payloads generated
  obtain ⟨commands, -, -⟩ := agrees dial List.mem_cons_self
  obtain ⟨signature, code⟩ := commands dialTurn List.mem_cons_self
  have takes : Says (commandSignature "Dial" dialTurn) (argumentsPhrase "DialTurnArgs") :=
    says_argumentsPhrase_iff.mpr ⟨by decide, by decide +kernel⟩
  refine ⟨written, events, reached, generated, takes, ?_, ?_⟩
  · exact signature.argumentsClass "DialTurnArgs" takes
  · obtain ⟨-, lines⟩ := List.forall₂_cons.mp (spells_commandMethod "Dial" dialTurn)
    obtain ⟨spells, -⟩ := List.forall₂_cons.mp lines
    let member := ["commands", "CmdType", Naming.memberName "Dial" "turn"]
    have uses := spells.names_iff.mpr ⟨member ++ ["value"], by simp [member, dialTurn, invocationPieces],
      List.prefix_append member ["value"]⟩
    have binding : Naming.memberName "Dial" "turn" ++ " = " ++ Text.literalOf (wireName "Dial" "turn") =
        "DialTurn = 'Dial.turn'" := by decide +kernel
    rw [← binding]
    exact (code _ 2 (by simp [commandMethodEdits, dial, dialTurn])).2.commandMember _ uses

end ProtocolGen.Package
