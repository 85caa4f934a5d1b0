import ProtocolGen.Documentation
import ProtocolGen.Emission.Field
import ProtocolGen.Source.Buffer

/-!
# Record classes

The class that holds the fields of a declared type, of a command's arguments or return values, or of
an event: its fields with their comments, any setters, and the methods that write it to the wire and
read it from there.
-/

set_option autoImplicit false

namespace ProtocolGen.Emission

open ProtocolGen.Types ProtocolGen.Source

def requireModules (package : String) (modules : List String) : List Edit :=
  modules.map fun module => .require package [module]

/-- Edits followed by those that a step makes of each item, in order. -/
def collectEdits {Item : Type} (front : List Edit) (step : Item → Except Failure (List Edit))
    (items : List Item) : Except Failure (List Edit) := do
  let bodies ← items.mapM step
  pure (front ++ bodies.flatten)

def fieldEdits (scope : Scope) (field : Field) : List Edit :=
  let declared := field.memberName ++ ": " ++ field.annotation scope
  [.comment (field.property.expression.describe :: field.property.notes) 1 "#:",
    .line
      (match field.default? scope with
        | some default => declared ++ " = " ++ default
        | none => declared) 1]

/-- The lines that put a field into the wire form of its record. -/
def toWireEdits (field : Field) : List Edit :=
  let assignment := "data[" ++ field.key ++ "] = " ++ field.encoded
  if field.omitEmpty then [.line ("if " ++ field.presence ++ ":") 2, .line assignment 3]
  else if field.indirect && field.encoded != field.place then
    [.line (assignment ++ " if " ++ field.place ++ " is not None else None") 2]
  else [.line assignment 2]

def toDictEdits (fields : List Field) : List Edit :=
  [.blank 1, .line "def to_dict(self) -> dict[str, Any]:" 1,
      .line "data: dict[str, Any] = \x7b\x7d" 2] ++
    fields.flatMap toWireEdits ++ [.line "return data" 2]

def fromDictEdits (scope : Scope) (name : String) (fields : List Field) : List Edit :=
  [.blank 1, .line "@classmethod" 1,
      .line ("def from_dict(cls, data: dict[str, Any]) -> " ++ name ++ ":") 1] ++
    if fields.isEmpty then [.line "return cls()" 2]
    else
      .line "return cls(" 2 ::
        (fields.map fun field => .line (field.memberName ++ "=" ++ field.fromWire scope ++ ",") 3) ++
        [.line ")" 2]

/-- The class of a record. `package` is where its scope imports the modules of domains from. -/
def recordEdits (scope : Scope) (package name : String) (documentation : List String)
    (fields : List Field) (setters : List Edit) : List Edit :=
  [.declare, .require "dataclasses" [], .require "typing" ["Any"], .blank 2,
      .line "@dataclasses.dataclass(kw_only=True)" 0, .line ("class " ++ name ++ ":") 0,
      .docstring documentation 1] ++
    requireModules package (fields.flatMap fun field => field.modules scope) ++
    (if fields.isEmpty then [] else [.blank 1]) ++
    fields.flatMap (fieldEdits scope) ++ setters ++ toDictEdits fields ++
    fromDictEdits scope name fields

end ProtocolGen.Emission
