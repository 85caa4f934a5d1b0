import ProtocolGen.Emission.Record

/-!
# The commands module

One registry of the wire names of all commands, and for each command a record of its arguments, with
a setter for every optional one, and a record of its return values, when it has any.
-/

set_option autoImplicit false

namespace ProtocolGen.Emission

open ProtocolGen.Types ProtocolGen.Source

def wireName (domain name : String) : String := domain ++ "." ++ name

/-- A registry of wire names: a class with a member for each pair of a domain and a name. -/
def registryEdits (heading className documentation : String) (entries : List (String × String)) :
    List Edit :=
  [.header (some heading), .declare, .require "enum" ["StrEnum"], .blank 2,
      .line ("class " ++ className ++ "(StrEnum):") 0, .docstring [documentation] 1] ++
    (if entries.isEmpty then [] else [.blank 1]) ++
    entries.map fun (domain, name) =>
      .line (Naming.memberName domain name ++ " = " ++ Text.literalOf (wireName domain name)) 1

def commandsHeading : String := "Command payloads and wire names."

def commandRegistryEdits (domains : List Domain) : List Edit :=
  registryEdits commandsHeading "CmdType" "Wire names of every protocol command."
    (domains.flatMap fun domain =>
      domain.commands.map fun command => (domain.name, command.name))

def withoutEndLowLines (name : String) : String :=
  String.ofList (Text.dropEndWhile (· == '_') name.toList)

def setterEdits (scope : Scope) (owner : String) (field : Field) : List Edit :=
  [.blank 1,
    .line ("def set_" ++ withoutEndLowLines field.memberName ++ "(self, " ++ field.memberName ++ ": " ++
      annotation scope false field.ref ++ ") -> " ++ owner ++ ":") 1,
    .docstring (("Set the optional " ++ field.property.name ++ " argument.") ::
      field.property.expression.describe :: field.property.notes) 2,
    .line (field.place ++ " = " ++ field.memberName) 2,
    .line "return self" 2]

def argsEdits (index : TypeIndex) (typesPackage domain : String) (command : Command) :
    Except Failure (List Edit) :=
  if command.parameters.isEmpty then .ok []
  else do
    let name := Naming.argsName domain command.name
    let fields ← fieldsOf index none domain name command.parameters
    let setters := (fields.filter Field.omitEmpty).flatMap (setterEdits none name)
    pure (recordEdits none typesPackage name
      ["Arguments for " ++ wireName domain command.name ++ "."] fields setters)

def returnsEdits (index : TypeIndex) (typesPackage domain : String) (command : Command) :
    Except Failure (List Edit) :=
  if command.returns.isEmpty then .ok []
  else do
    let name := Naming.replyName domain command.name
    let fields ← fieldsOf index none domain name command.returns
    pure (recordEdits none typesPackage name
      ["Return values of " ++ wireName domain command.name ++ "."] fields [])

def commandEdits (index : TypeIndex) (typesPackage domain : String) (command : Command) :
    Except Failure (List Edit) := do
  let args ← argsEdits index typesPackage domain command
  let returns ← returnsEdits index typesPackage domain command
  pure (args ++ returns)

def domainCommandsEdits (index : TypeIndex) (typesPackage : String) (domain : Domain) :
    Except Failure (List Edit) :=
  collectEdits [] (commandEdits index typesPackage domain.name) domain.commands

def commandsEdits (index : TypeIndex) (typesPackage : String) (domains : List Domain) :
    Except Failure (List Edit) :=
  collectEdits (commandRegistryEdits domains) (domainCommandsEdits index typesPackage) domains

end ProtocolGen.Emission
