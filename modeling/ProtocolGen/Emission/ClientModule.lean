import ProtocolGen.Emission.Record

/-!
# The client module

The client that joins all domains over one connection. Each domain has an abstract class that lists
its commands and events, the class that carries them out, a receiver for each event, and a function
that builds the arguments of each command with optional parameters from the required ones.
-/

set_option autoImplicit false

namespace ProtocolGen.Emission

open ProtocolGen.Types ProtocolGen.Source

def clientHeading : String := "Protocol client bound to a connection."

/-- The lines of the client's set-up: one attribute for each domain, or the bare connection. -/
def clientSetup (domains : List Domain) : List Edit :=
  if domains.isEmpty then [.line "self._conn = conn" 2]
  else
    domains.map fun domain =>
      let domainClass := Naming.domainClass domain.name
      .line ("self." ++ Naming.moduleName domain.name ++ ": " ++ domainClass ++ " = " ++
        domainClass ++ "Domain(conn)") 2

def clientClassEdits (runtimeModule : String) (domains : List Domain) : List Edit :=
  [.header (some clientHeading), .declare, .require runtimeModule ["Conn"], .blank 2,
      .line "class Client:" 0,
      .docstring ["Client for every protocol domain.",
        "Each attribute exposes the commands and events of one domain over the shared connection."] 1,
      .blank 1, .line "def __init__(self, conn: Conn) -> None:" 1] ++
    clientSetup domains

def commandSignature (domain : String) (command : Command) : String :=
  let args :=
    if command.parameters.isEmpty then ""
    else ", args: commands." ++ Naming.argsName domain command.name
  let reply :=
    if command.returns.isEmpty then "None"
    else "commands." ++ Naming.replyName domain command.name
  "def " ++ Naming.attributeName command.name ++ "(self" ++ args ++ ") -> " ++ reply ++ ":"

def eventSignature (domain : String) (event : Event) : String :=
  "def " ++ Naming.attributeName event.name ++ "(self) -> events." ++
    Naming.eventClientName domain event.name ++ ":"

def abstractMethodEdits (signature : String) (documentation : List String) : List Edit :=
  [.blank 1, .line "@abstractmethod" 1, .line signature 1, .docstring documentation 2]

def capabilityEdits (domain : Domain) : List Edit :=
  [.blank 2, .line ("class " ++ Naming.domainClass domain.name ++ "(ABC):") 0,
      .docstring (("The " ++ domain.name ++ " domain. " ++ domain.describe) :: domain.notes) 1] ++
    (domain.commands.flatMap fun command =>
      .require "." ["commands"] :: abstractMethodEdits (commandSignature domain.name command)
        (("Command " ++ command.name ++ ".") :: command.describe :: command.notes)) ++
    domain.events.flatMap fun event =>
      .require "." ["events"] :: abstractMethodEdits (eventSignature domain.name event)
        (("Event " ++ event.name ++ ".") :: event.describe :: event.notes)

def commandMethodEdits (domain : String) (command : Command) : List Edit :=
  let arguments := if command.parameters.isEmpty then "None" else "args.to_dict()"
  let invocation :=
    "self._conn.invoke(commands.CmdType." ++ Naming.memberName domain command.name ++ ".value, " ++
      arguments ++ ")"
  [.blank 1, .line (commandSignature domain command) 1] ++
    if command.returns.isEmpty then [.line invocation 2]
    else
      [.line ("reply = " ++ invocation) 2,
        .line ("return commands." ++ Naming.replyName domain command.name ++ ".from_dict(reply)") 2]

def eventMethodEdits (domain : String) (event : Event) : List Edit :=
  [.blank 1, .line (eventSignature domain event) 1,
    .line ("stream = self._conn.subscribe(events.EventType." ++
      Naming.memberName domain event.name ++ ".value)") 2,
    .line ("return _" ++ Naming.eventClientName domain event.name ++ "(stream)") 2]

def connectedEdits (domain : Domain) : List Edit :=
  let domainClass := Naming.domainClass domain.name
  [.blank 2, .line ("class " ++ domainClass ++ "Domain(" ++ domainClass ++ "):") 0,
      .docstring [domainClass ++ " implemented over a connection."] 1, .blank 1,
      .line "def __init__(self, conn: Conn) -> None:" 1, .line "self._conn = conn" 2] ++
    domain.commands.flatMap (commandMethodEdits domain.name) ++
    domain.events.flatMap (eventMethodEdits domain.name)

def streamEdits (runtimeModule domain : String) (event : Event) : List Edit :=
  let client := Naming.eventClientName domain event.name
  let reply := Naming.replyName domain event.name
  [.require runtimeModule ["EventDecodeError", "Stream"], .blank 2,
    .line ("class _" ++ client ++ "(events." ++ client ++ "):") 0,
    .line "def __init__(self, stream: Stream) -> None:" 1, .line "self._stream = stream" 2,
    .blank 1, .line ("def recv(self) -> events." ++ reply ++ ":") 1,
    .line "data = self._stream.recv_msg()" 2, .line "try:" 2,
    .line ("return events." ++ reply ++ ".from_dict(data)") 3,
    .line "except (AttributeError, KeyError, TypeError, ValueError) as exc:" 2,
    .line ("raise EventDecodeError(" ++ Text.literalOf domain ++ ", " ++
      Text.literalOf event.name ++ ", exc) from exc") 3,
    .blank 1, .line "def close(self) -> None:" 1, .line "self._stream.close()" 2]

/-- The function that builds a command's arguments from the required ones, given all its fields. -/
def argsConstructorEdits (typesPackage domain : String) (command : Command) (fields : List Field) :
    List Edit :=
  let name := Naming.argsName domain command.name
  let required := fields.filter fun field => !field.property.optional
  let parameters := ", ".intercalate
    (required.map fun field => field.memberName ++ ": " ++ field.annotation none)
  let keywords := ", ".intercalate
    (required.map fun field => field.memberName ++ "=" ++ field.memberName)
  requireModules typesPackage
      ((fields.flatMap fun field => fieldModules none field.ref) ++
        required.flatMap fun field => annotationModules none field.ref) ++
    [.blank 2,
      .line ("def " ++ Naming.argsConstructorName domain command.name ++ "(" ++ parameters ++
        ") -> commands." ++ name ++ ":") 0,
      .docstring ["Initialize the arguments for " ++ domain ++ "." ++ command.name ++
        " with the required arguments."] 1,
      .line ("return commands." ++ name ++ "(" ++ keywords ++ ")") 1]

def argsConstructor (index : TypeIndex) (typesPackage domain : String) (command : Command) :
    Except Failure (List Edit) := do
  let fields ← fieldsOf index none domain (Naming.argsName domain command.name) command.parameters
  pure (argsConstructorEdits typesPackage domain command fields)

def buildableCommands (domain : Domain) : List Command :=
  domain.commands.filter fun command => !command.optionalParameters.isEmpty

/-- The code of a domain in the client module, before the functions that build arguments. -/
def domainClassEdits (runtimeModule : String) (domain : Domain) : List Edit :=
  [.header (some clientHeading), .declare, .require "abc" ["ABC", "abstractmethod"]] ++
    capabilityEdits domain ++ connectedEdits domain ++
    domain.events.flatMap (streamEdits runtimeModule domain.name)

def domainEdits (index : TypeIndex) (runtimeModule typesPackage : String) (domain : Domain) :
    Except Failure (List Edit) :=
  collectEdits (domainClassEdits runtimeModule domain)
    (argsConstructor index typesPackage domain.name) (buildableCommands domain)

def clientEdits (index : TypeIndex) (runtimeModule typesPackage : String) (domains : List Domain) :
    Except Failure (List Edit) :=
  collectEdits (clientClassEdits runtimeModule domains)
    (domainEdits index runtimeModule typesPackage) domains

end ProtocolGen.Emission
