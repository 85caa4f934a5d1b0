import ProtocolGen.Protocol
import ProtocolGen.Text.Blank

/-!
# Documentation texts

The texts that generated code carries for a reader: trimmed descriptions, and notes on the values a
property takes and on experimental or deprecated parts.
-/

set_option autoImplicit false

namespace ProtocolGen

def noDescription : String := "No description."

def trimmed (description : Option String) : String :=
  String.ofList (Text.trim (description.getD "").toList)

def describe (description : Option String) : String :=
  let text := trimmed description
  if text.isEmpty then noDescription else text

def TypeExpression.describe (expression : TypeExpression) : String :=
  ProtocolGen.describe expression.facets.description

def Command.describe (command : Command) : String := ProtocolGen.describe command.description

def Event.describe (event : Event) : String := ProtocolGen.describe event.description

def Domain.describe (domain : Domain) : String := trimmed domain.description

def stateNotes (part : String) (experimental deprecated : Bool) : List String :=
  (if experimental then ["Note: This " ++ part ++ " is experimental."] else []) ++
    (if deprecated then ["Deprecated: This " ++ part ++ " is deprecated."] else [])

def Property.notes (property : Property) : List String :=
  let values :=
    match property.expression.labels? with
    | some labels =>
      ["Values: " ++ ", ".intercalate (labels.map fun label => "\"" ++ label ++ "\"") ++ "."]
    | none => []
  values ++ stateNotes "property" property.experimental property.deprecated

def TypeDeclaration.notes (declaration : TypeDeclaration) : List String :=
  stateNotes "type" declaration.experimental declaration.deprecated

def Command.notes (command : Command) : List String :=
  stateNotes "command" command.experimental command.deprecated

def Event.notes (event : Event) : List String :=
  stateNotes "event" event.experimental event.deprecated

def Domain.notes (domain : Domain) : List String :=
  stateNotes "domain" domain.experimental domain.deprecated

end ProtocolGen
