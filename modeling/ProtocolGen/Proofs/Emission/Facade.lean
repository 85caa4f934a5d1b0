import ProtocolGen.Emission.ClientModule
import ProtocolGen.Emission.EventsModule
import ProtocolGen.Proofs.Emission.Definitions
import ProtocolGen.Proofs.Naming.Identifiers
import ProtocolGen.Proofs.Source.Phrases

/-!
# What the client's code names

The client's code for a command or an event, line by line: which argument and reply classes its
signature names, which members of the registries it uses, and which classes of the events module.
-/

set_option autoImplicit false

namespace ProtocolGen.Emission

open ProtocolGen.Types ProtocolGen.Source

/-- The parameter for a command's arguments, of a class of the commands module. -/
def argumentsPhrase (name : String) : List Lexeme :=
  [.mark ',', .word "args", .mark ':', .word "commands", .mark '.', .word name]

/-- The annotation of a reply of a class of the commands module. -/
def replyPhrase (name : String) : List Lexeme :=
  [.mark '-', .mark '>', .word "commands", .mark '.', .word name]

/-! ## Commands -/

section Commands

variable (domain : String) (command : Command)

def signaturePieces : List Piece :=
  ([.word "def", .blank, .word (Naming.attributeName command.name), .mark '(', .word "self"] :
      List Piece) ++
    (if command.parameters.isEmpty then ([] : List Piece)
      else [.mark ',', .blank, .word "args", .mark ':', .blank, .word "commands", .mark '.',
        .word (Naming.argsName domain command.name)]) ++
    ([.mark ')', .blank, .mark '-', .mark '>', .blank] : List Piece) ++
    (if command.returns.isEmpty then ([.word "None"] : List Piece)
      else [.word "commands", .mark '.', .word (Naming.replyName domain command.name)]) ++
    ([.mark ':'] : List Piece)

theorem spells_commandSignature :
    Spells (commandSignature domain command) (signaturePieces domain command) := by
  rw [spells_iff, commandSignature, signaturePieces]
  cases command.parameters.isEmpty <;> cases command.returns.isEmpty
  all_goals
    simp [Piece.owedBehindMark?_plain, Piece.owedBehindMark?_open]
    decide

variable {domain command}

theorem says_argumentsPhrase_iff {name : String} :
    Says (commandSignature domain command) (argumentsPhrase name) ↔
      command.parameters ≠ [] ∧ name = Naming.argsName domain command.name := by
  rw [(spells_commandSignature domain command).says_iff, signaturePieces]
  cases command.parameters <;> cases command.returns
  all_goals simp [argumentsPhrase, List.infix_cons_iff, List.cons_prefix_cons]

theorem says_replyPhrase_iff {name : String} :
    Says (commandSignature domain command) (replyPhrase name) ↔
      command.returns ≠ [] ∧ name = Naming.replyName domain command.name := by
  rw [(spells_commandSignature domain command).says_iff, signaturePieces]
  cases command.parameters <;> cases command.returns
  all_goals simp [replyPhrase, List.infix_cons_iff, List.cons_prefix_cons]

variable (domain command)

def invocationPieces : List Piece :=
  ([.word "self", .mark '.', .word "_conn", .mark '.', .word "invoke", .mark '(', .word "commands",
      .mark '.', .word "CmdType", .mark '.', .word (Naming.memberName domain command.name), .mark '.',
      .word "value", .mark ',', .blank] : List Piece) ++
    (if command.parameters.isEmpty then ([.word "None"] : List Piece)
      else [.word "args", .mark '.', .word "to_dict", .mark '(', .mark ')']) ++
    ([.mark ')'] : List Piece)

def returnPieces : List Piece :=
  [.word "return", .blank, .word "commands", .mark '.', .word (Naming.replyName domain command.name),
    .mark '.', .word "from_dict", .mark '(', .word "reply", .mark ')']

/-- The lines of the method that carries a command out, by pieces. -/
def commandMethodPieces : List (List Piece) :=
  signaturePieces domain command ::
    if command.returns.isEmpty then [invocationPieces domain command]
    else
      [[.word "reply", .blank, .mark '=', .blank] ++ invocationPieces domain command,
        returnPieces domain command]

def codeLines (edits : List Edit) : List String :=
  edits.filterMap fun edit =>
    match edit with
    | .line text _ => some text
    | _ => none

theorem spells_commandMethod : List.Forall₂ Spells (codeLines (commandMethodEdits domain command))
    (commandMethodPieces domain command) := by
  have signature := spells_commandSignature domain command
  unfold commandMethodEdits commandMethodPieces invocationPieces returnPieces
  cases command.parameters <;> cases command.returns
  all_goals
    refine .cons signature ?_
    simp [spells_iff, Piece.owedBehindMark?_plain, Piece.owedBehindMark?_open]
    decide

variable {domain command}

/-- The only member of a registry that the code for a command uses is that of its own wire name, and
it uses nothing of the events module. -/
theorem names_of_commandMethodPieces : ∀ pieces ∈ commandMethodPieces domain command,
    ∀ full ∈ dottedNames (Piece.lexemes pieces ++ [.lineEnd]), ∀ name,
      (["commands", "CmdType", name] <+: full → name = Naming.memberName domain command.name) ∧
      ¬ ["events", name] <+: full := by
  have otherReply : Naming.replyName domain command.name ≠ "CmdType" :=
    Naming.replyName_ne _ _ (by decide)
  unfold commandMethodPieces invocationPieces returnPieces signaturePieces
  cases command.parameters <;> cases command.returns
  all_goals simp [List.cons_prefix_cons, otherReply.symm]

/-- The registries are used by way of the modules that hold them. -/
theorem qualified_of_commandMethodPieces : ∀ pieces ∈ commandMethodPieces domain command,
    ∀ full ∈ dottedNames (Piece.lexemes pieces ++ [.lineEnd]), ∀ name,
      ¬ ["CmdType", name] <+: full ∧ ¬ ["EventType", name] <+: full := by
  unfold commandMethodPieces invocationPieces returnPieces signaturePieces
  cases command.parameters <;> cases command.returns
  all_goals simp [List.cons_prefix_cons]

end Commands

/-! ## Events -/

section Events

variable (runtimeModule domain : String) (event : Event)

def eventSignaturePieces : List Piece :=
  [.word "def", .blank, .word (Naming.attributeName event.name), .mark '(', .word "self", .mark ')',
    .blank, .mark '-', .mark '>', .blank, .word "events", .mark '.',
    .word (Naming.eventClientName domain event.name), .mark ':']

/-- The lines of the method that subscribes to an event, by pieces. -/
def eventMethodPieces : List (List Piece) :=
  [eventSignaturePieces domain event,
    [.word "stream", .blank, .mark '=', .blank, .word "self", .mark '.', .word "_conn", .mark '.',
      .word "subscribe", .mark '(', .word "events", .mark '.', .word "EventType", .mark '.',
      .word (Naming.memberName domain event.name), .mark '.', .word "value", .mark ')'],
    [.word "return", .blank, .word ("_" ++ Naming.eventClientName domain event.name), .mark '(',
      .word "stream", .mark ')']]

/-- The lines of the class that receives an event, by pieces. -/
def streamPieces : List (List Piece) :=
  [[.word "class", .blank, .word ("_" ++ Naming.eventClientName domain event.name), .mark '(',
      .word "events", .mark '.', .word (Naming.eventClientName domain event.name), .mark ')', .mark ':'],
    [.word "def", .blank, .word "__init__", .mark '(', .word "self", .mark ',', .blank, .word "stream",
      .mark ':', .blank, .word "Stream", .mark ')', .blank, .mark '-', .mark '>', .blank, .word "None",
      .mark ':'],
    [.word "self", .mark '.', .word "_stream", .blank, .mark '=', .blank, .word "stream"],
    [.word "def", .blank, .word "recv", .mark '(', .word "self", .mark ')', .blank, .mark '-',
      .mark '>', .blank, .word "events", .mark '.', .word (Naming.replyName domain event.name),
      .mark ':'],
    [.word "data", .blank, .mark '=', .blank, .word "self", .mark '.', .word "_stream", .mark '.',
      .word "recv_msg", .mark '(', .mark ')'],
    [.word "try", .mark ':'],
    [.word "return", .blank, .word "events", .mark '.', .word (Naming.replyName domain event.name),
      .mark '.', .word "from_dict", .mark '(', .word "data", .mark ')'],
    [.word "except", .blank, .mark '(', .word "AttributeError", .mark ',', .blank, .word "KeyError",
      .mark ',', .blank, .word "TypeError", .mark ',', .blank, .word "ValueError", .mark ')', .blank,
      .word "as", .blank, .word "exc", .mark ':'],
    [.word "raise", .blank, .word "EventDecodeError", .mark '(', .literal (Text.ofString domain),
      .mark ',', .blank, .literal (Text.ofString event.name), .mark ',', .blank, .word "exc", .mark ')',
      .blank, .word "from", .blank, .word "exc"],
    [.word "def", .blank, .word "close", .mark '(', .word "self", .mark ')', .blank, .mark '-',
      .mark '>', .blank, .word "None", .mark ':'],
    [.word "self", .mark '.', .word "_stream", .mark '.', .word "close", .mark '(', .mark ')']]

theorem spells_eventMethod : List.Forall₂ Spells (codeLines (eventMethodEdits domain event))
    (eventMethodPieces domain event) := by
  simp [codeLines, eventMethodEdits, eventSignature, eventMethodPieces, eventSignaturePieces, spells_iff,
    Piece.owedBehindMark?_plain, Piece.owedBehindMark?_open, Naming.isIdentifier_lowLine]
  decide

theorem spells_stream : List.Forall₂ Spells (codeLines (streamEdits runtimeModule domain event))
    (streamPieces domain event) := by
  simp [codeLines, streamEdits, streamPieces, spells_iff, Piece.owedBehindMark?_plain,
    Piece.owedBehindMark?_open, Naming.isIdentifier_lowLine]
  decide

variable {domain event}

/-- The only member of a registry that the code for an event uses is that of its own wire name, and
the classes of the events module in it are its receiver, its payload and the registry. -/
theorem names_of_eventPieces :
    ∀ pieces ∈ eventMethodPieces domain event ++ streamPieces domain event,
      ∀ full ∈ dottedNames (Piece.lexemes pieces ++ [.lineEnd]), ∀ name,
        (["events", "EventType", name] <+: full → name = Naming.memberName domain event.name) ∧
        ¬ ["commands", "CmdType", name] <+: full ∧
        (["events", name] <+: full →
          name ∈ ["EventType", Naming.eventClientName domain event.name,
            Naming.replyName domain event.name]) := by
  have otherReply : Naming.replyName domain event.name ≠ "EventType" :=
    Naming.replyName_ne _ _ (by decide)
  simp [eventMethodPieces, eventSignaturePieces, streamPieces, List.cons_prefix_cons,
    otherReply.symm]

/-- The registries are used by way of the modules that hold them. -/
theorem qualified_of_eventPieces :
    ∀ pieces ∈ eventMethodPieces domain event ++ streamPieces domain event,
      ∀ full ∈ dottedNames (Piece.lexemes pieces ++ [.lineEnd]), ∀ name,
        ¬ ["CmdType", name] <+: full ∧ ¬ ["EventType", name] <+: full := by
  simp [eventMethodPieces, eventSignaturePieces, streamPieces, List.cons_prefix_cons]

end Events

/-! ## What the names stand for -/

section Classes

/-- A line that begins a class, with or without a base. -/
def IsClassHead (name line : String) : Prop :=
  ("class " ++ name ++ ":").toList <+: line.toList ∨ ("class " ++ name ++ "(").toList <+: line.toList

theorem isClassHead_derived (name base : String) :
    IsClassHead name ("class " ++ name ++ "(" ++ base ++ "):") := by
  refine .inr ⟨(base ++ "):").toList, ?_⟩
  rw [← String.toList_append, ← String.append_assoc]

variable {name base : String} (identifier : Text.isIdentifier name.toList)

include identifier

theorem spells_class : Spells ("class " ++ name ++ ":")
    [.word "class", .blank, .word name, .mark ':'] := by
  simp [spells_iff, Piece.owedBehindMark?_plain, identifier]
  decide

theorem spells_derivedClass (baseIdentifier : Text.isIdentifier base.toList) :
    Spells ("class " ++ name ++ "(" ++ base ++ "):")
      [.word "class", .blank, .word name, .mark '(', .word base, .mark ')', .mark ':'] := by
  simp [spells_iff, Piece.owedBehindMark?_plain, Piece.owedBehindMark?_open, identifier, baseIdentifier]
  decide

theorem spells_binding (text : String) : Spells (name ++ " = " ++ Text.literalOf text)
    [.word name, .blank, .mark '=', .blank, .literal (Text.ofString text)] := by
  simp [spells_iff, Piece.owedBehindMark?_plain, identifier]

end Classes

section Modules

variable {index : TypeIndex} {runtimeModule typesPackage : String} {domains : List Domain}
  {domain : Domain} {command : Command} {event : Event} {edits : List Edit}

theorem classLine_mem_recordEdits (scope : Scope) (package name : String)
    (documentation : List String) (fields : List Field) (setters : List Edit) :
    .line ("class " ++ name ++ ":") 0 ∈
      recordEdits scope package name documentation fields setters := by
  simp [recordEdits]

theorem classLine_mem_payload {wireDomain name : String} {documentation : List String}
    {properties : List Property} {setters : List Field → List Edit} (given : properties ≠ [])
    (code : PayloadCode index typesPackage wireDomain name documentation properties setters edits) :
    .line ("class " ++ name ++ ":") 0 ∈ edits := by
  cases code with
  | absent empty => exact absurd (List.isEmpty_iff.mp empty) given
  | record => exact classLine_mem_recordEdits ..

theorem binding_mem_registryEdits {heading className documentation wireDomain name : String}
    {entries : List (String × String)} (member : (wireDomain, name) ∈ entries) :
    .line (Naming.memberName wireDomain name ++ " = " ++ Text.literalOf (wireName wireDomain name)) 1 ∈
      registryEdits heading className documentation entries := by
  rw [registryEdits]
  exact List.mem_append_right _ (List.mem_map.mpr ⟨(wireDomain, name), member, rfl⟩)

section Commands

variable (inDomains : domain ∈ domains) (inCommands : command ∈ domain.commands)
  (made : commandsEdits index typesPackage domains = .ok edits)

include inDomains inCommands made

theorem exists_payloads : ∃ args returns, ArgsPayload index typesPackage domain.name command args ∧
    ReturnsPayload index typesPackage domain.name command returns ∧ args ++ returns ⊆ edits := by
  obtain ⟨domainBody, domainMade, domainWithin⟩ := exists_step_of_collectEdits made inDomains
  obtain ⟨body, bodyMade, within⟩ := exists_step_of_collectEdits domainMade inCommands
  obtain ⟨args, returns, rfl, argsPayload, returnsPayload⟩ := exists_payloads_of_commandEdits bodyMade
  exact ⟨args, returns, argsPayload, returnsPayload, fun edit member => domainWithin (within member)⟩

theorem argsClass_mem_commandsEdits (parameters : command.parameters ≠ []) :
    .line ("class " ++ Naming.argsName domain.name command.name ++ ":") 0 ∈ edits := by
  obtain ⟨args, returns, argsPayload, -, within⟩ := exists_payloads inDomains inCommands made
  exact within (List.mem_append_left _ (classLine_mem_payload parameters argsPayload))

theorem replyClass_mem_commandsEdits (returned : command.returns ≠ []) :
    .line ("class " ++ Naming.replyName domain.name command.name ++ ":") 0 ∈ edits := by
  obtain ⟨args, returns, -, returnsPayload, within⟩ := exists_payloads inDomains inCommands made
  exact within (List.mem_append_right _ (classLine_mem_payload returned returnsPayload))

theorem binding_mem_commandsEdits :
    .line (Naming.memberName domain.name command.name ++ " = " ++
      Text.literalOf (wireName domain.name command.name)) 1 ∈ edits := by
  refine front_subset_of_collectEdits made (binding_mem_registryEdits ?_)
  exact List.mem_flatMap.mpr ⟨domain, inDomains, List.mem_map_of_mem inCommands⟩

end Commands

section Events

variable (inDomains : domain ∈ domains) (inEvents : event ∈ domain.events)
  (made : eventsEdits index typesPackage domains = .ok edits)

theorem registryClass_mem_eventsEdits (made : eventsEdits index typesPackage domains = .ok edits) :
    .line ("class " ++ "EventType" ++ "(" ++ "StrEnum" ++ "):") 0 ∈ edits :=
  front_subset_of_collectEdits made (by simp [eventRegistryEdits, registryEdits])

include inDomains inEvents made

theorem binding_mem_eventsEdits :
    .line (Naming.memberName domain.name event.name ++ " = " ++
      Text.literalOf (wireName domain.name event.name)) 1 ∈ edits := by
  refine front_subset_of_collectEdits made (binding_mem_registryEdits ?_)
  exact List.mem_flatMap.mpr ⟨domain, inDomains, List.mem_map_of_mem inEvents⟩

/-- The receiver of an event and its payload are classes of the events module. -/
theorem eventClasses_mem_eventsEdits :
    .line ("class " ++ Naming.eventClientName domain.name event.name ++ "(" ++ "ABC" ++ "):") 0 ∈ edits ∧
      .line ("class " ++ Naming.replyName domain.name event.name ++ ":") 0 ∈ edits := by
  obtain ⟨domainBody, domainMade, domainWithin⟩ := exists_step_of_collectEdits made inDomains
  obtain ⟨body, bodyMade, within⟩ := exists_step_of_collectEdits domainMade inEvents
  obtain ⟨fields, -, finished⟩ := bind_eq_ok_iff.mp bodyMade
  cases finished
  refine ⟨domainWithin (within (List.mem_append_left _ ?_)),
    domainWithin (within (List.mem_append_right _ (classLine_mem_recordEdits ..)))⟩
  have same : "class " ++ Naming.eventClientName domain.name event.name ++ "(" ++ "ABC" ++ "):" =
      "class " ++ Naming.eventClientName domain.name event.name ++ "(ABC):" := by
    rw [String.append_assoc, String.append_assoc]
    rfl
  simp [receiverEdits, same]

end Events

/-- The code for the commands and events of a domain is part of the client's. -/
theorem methodEdits_subset_clientEdits (inDomains : domain ∈ domains)
    (made : clientEdits index runtimeModule typesPackage domains = .ok edits) :
    (∀ command ∈ domain.commands, commandMethodEdits domain.name command ⊆ edits) ∧
      ∀ event ∈ domain.events, eventMethodEdits domain.name event ++
        streamEdits runtimeModule domain.name event ⊆ edits := by
  obtain ⟨body, bodyMade, within⟩ := exists_step_of_collectEdits made inDomains
  have front : domainClassEdits runtimeModule domain ⊆ edits := fun edit member =>
    within (front_subset_of_collectEdits bodyMade member)
  simp only [domainClassEdits, connectedEdits, List.append_subset] at front
  obtain ⟨⟨-, ⟨-, commands⟩, events⟩, streams⟩ := front
  refine ⟨fun command inCommands => ?_, fun event inEvents => List.append_subset.mpr ⟨?_, ?_⟩⟩
  · exact fun edit member => commands (List.mem_flatMap.mpr ⟨command, inCommands, member⟩)
  · exact fun edit member => events (List.mem_flatMap.mpr ⟨event, inEvents, member⟩)
  · exact fun edit member => streams (List.mem_flatMap.mpr ⟨event, inEvents, member⟩)

end Modules

end ProtocolGen.Emission
