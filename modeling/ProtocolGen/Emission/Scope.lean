import ProtocolGen.Types.Reference

/-!
# Type names in a module

How a resolved type is written in the code of a module. The types of one domain share a module, in
which their bare names are used; everywhere else a declared type is written with the module of its
domain before it, and that module has to be imported.
-/

set_option autoImplicit false

namespace ProtocolGen.Emission

open ProtocolGen.Types

/-- Where a type is written: in the types module of a domain, or in a module shared by all. -/
abbrev Scope := Option String

def isOwn (scope : Scope) (declared : Declared) : Bool := scope = some declared.domain

def qualifiedName (scope : Scope) (declared : Declared) : String :=
  if isOwn scope declared then declared.className
  else Naming.moduleName declared.domain ++ "." ++ declared.className

/-- The modules that the name of a declared type needs in a scope. -/
def qualifiedModules (scope : Scope) (declared : Declared) : List String :=
  if isOwn scope declared then [] else [Naming.moduleName declared.domain]

def primitiveName : Primitive → String
  | .string => "str"
  | .integer => "int"
  | .number => "float"
  | .boolean => "bool"

def quotedIf (quoted : Bool) (name : String) : String :=
  if quoted then "\"" ++ name ++ "\"" else name

/-- The annotation of a resolved type, with declared names in quotes when asked for. -/
def annotation (scope : Scope) (quoted : Bool) : TypeRef → String
  | .primitive primitive => primitiveName primitive
  | .any => "Any"
  | .map => "dict[str, Any]"
  | .array item => "list[" ++ annotation scope quoted item ++ "]"
  | .record declared | .enumeration declared | .raw declared | .alias declared _ =>
    quotedIf quoted (qualifiedName scope declared)

/-- The modules that the annotation of a resolved type needs. -/
def annotationModules (scope : Scope) : TypeRef → List String
  | .primitive _ | .any | .map => []
  | .array item => annotationModules scope item
  | .record declared | .enumeration declared | .raw declared | .alias declared _ =>
    qualifiedModules scope declared

def loopName (depth : Nat) : String := "item" ++ toString depth

/-- A list made from each item of another, or its copy when the items stay as they are. -/
def comprehension (inner loop source : String) : String :=
  if inner = loop then "list(" ++ source ++ ")"
  else "[" ++ inner ++ " for " ++ loop ++ " in " ++ source ++ "]"

def encode : TypeRef → String → Nat → String
  | .alias _ meaning, source, depth => encode meaning source depth
  | .record _, source, _ => source ++ ".to_dict()"
  | .enumeration _, source, _ | .raw _, source, _ => source ++ ".to_wire()"
  | .array item, source, depth =>
    let loop := loopName depth
    comprehension (encode item loop (depth + 1)) loop source
  | .primitive _, source, _ | .any, source, _ | .map, source, _ => source

def decode (scope : Scope) : TypeRef → String → Nat → String
  | .alias _ meaning, source, depth => decode scope meaning source depth
  | .record declared, source, _ => qualifiedName scope declared ++ ".from_dict(" ++ source ++ ")"
  | .enumeration declared, source, _ | .raw declared, source, _ =>
    qualifiedName scope declared ++ ".from_wire(" ++ source ++ ")"
  | .array item, source, depth =>
    let loop := loopName depth
    comprehension (decode scope item loop (depth + 1)) loop source
  | .primitive _, source, _ | .any, source, _ | .map, source, _ => source

def decodeModules (scope : Scope) : TypeRef → List String
  | .alias _ meaning => decodeModules scope meaning
  | .record declared | .enumeration declared | .raw declared => qualifiedModules scope declared
  | .array item => decodeModules scope item
  | .primitive _ | .any | .map => []

end ProtocolGen.Emission
