import ProtocolGen.Emission.CommandsModule

/-!
# The events module

One registry of the wire names of all events, and for each event the abstract class of its receivers
and the record of its payload.
-/

set_option autoImplicit false

namespace ProtocolGen.Emission

open ProtocolGen.Types ProtocolGen.Source

def eventsHeading : String := "Event payloads, streams and wire names."

def eventRegistryEdits (domains : List Domain) : List Edit :=
  registryEdits eventsHeading "EventType" "Wire names of every protocol event."
    (domains.flatMap fun domain => domain.events.map fun event => (domain.name, event.name))

def receiverEdits (domain event : String) : List Edit :=
  [.declare, .require "abc" ["ABC", "abstractmethod"], .blank 2,
    .line ("class " ++ Naming.eventClientName domain event ++ "(ABC):") 0,
    .docstring ["Receives " ++ wireName domain event ++ " events."] 1,
    .blank 1, .line "@abstractmethod" 1,
    .line ("def recv(self) -> " ++ Naming.replyName domain event ++ ":") 1,
    .docstring ["Block until the next event arrives and return its payload."] 2,
    .blank 1, .line "@abstractmethod" 1, .line "def close(self) -> None:" 1,
    .docstring ["Stop receiving events."] 2]

def eventEdits (index : TypeIndex) (typesPackage domain : String) (event : Event) :
    Except Failure (List Edit) := do
  let name := Naming.replyName domain event.name
  let fields ← fieldsOf index none domain name event.parameters
  pure (receiverEdits domain event.name ++
    recordEdits none typesPackage name (event.describe :: event.notes) fields [])

def domainEventsEdits (index : TypeIndex) (typesPackage : String) (domain : Domain) :
    Except Failure (List Edit) :=
  collectEdits [] (eventEdits index typesPackage domain.name) domain.events

def eventsEdits (index : TypeIndex) (typesPackage : String) (domains : List Domain) :
    Except Failure (List Edit) :=
  collectEdits (eventRegistryEdits domains) (domainEventsEdits index typesPackage) domains

end ProtocolGen.Emission
