import ProtocolGen.Emission.Scope
import ProtocolGen.Text.Literal

/-!
# Fields of records

A property becomes a field of a record. An optional property leaves its key out of the wire form
when it is empty; where its type has no empty state, or where a record would hold itself, the field
is indirect and may be `None`. The annotation, the default, the test for presence and the reading
from the wire all follow from these two marks and from the type that aliases lead to.
-/

set_option autoImplicit false

namespace ProtocolGen.Emission

open ProtocolGen.Types

structure Field where
  property : Property
  memberName : String
  ref : TypeRef
  indirect : Bool
  omitEmpty : Bool
  deriving DecidableEq, Repr

def isRecord : TypeRef → Bool
  | .record _ => true
  | _ => false

/-- The field that a property of a resolved type becomes in a record of some class. -/
def fieldOf (index : TypeIndex) (scope : Scope) (owner : String) (property : Property)
    (ref : TypeRef) : Field where
  property := property
  memberName := Naming.attributeName property.name
  ref := ref
  indirect :=
    (property.optional && index.needsIndirection ref) ||
      (isRecord ref && annotation scope false ref = owner)
  omitEmpty := property.optional

def fieldModules (scope : Scope) (ref : TypeRef) : List String :=
  if isRecord ref then annotationModules scope ref else []

/-- The fields of properties of a domain, in a record of some class. -/
def fieldsOf (index : TypeIndex) (scope : Scope) (domain owner : String)
    (properties : List Property) : Except Failure (List Field) :=
  properties.mapM fun property => do
    let ref ← index.resolve domain (some property.name) property.expression
    pure (fieldOf index scope owner property ref)

namespace Field

def annotation (scope : Scope) (field : Field) : String :=
  let text := Emission.annotation scope false field.ref
  if field.indirect then text ++ " | None" else text

def factory (maker : String) : String := "dataclasses.field(default_factory=" ++ maker ++ ")"

def default? (scope : Scope) (field : Field) : Option String :=
  if field.indirect then some "None"
  else if !field.omitEmpty then none
  else
    match field.ref.target with
    | .enumeration declared => some (factory ("lambda: " ++ qualifiedName scope declared ++ ".NOT_SET"))
    | .raw declared => some (factory ("lambda: " ++ qualifiedName scope declared ++ "()"))
    | .array _ => some (factory "list")
    | .map => some (factory "dict")
    | _ => some "None"

def defaultModules (scope : Scope) (field : Field) : List String :=
  if field.indirect || !field.omitEmpty then []
  else
    match field.ref.target with
    | .enumeration declared | .raw declared => qualifiedModules scope declared
    | _ => []

def place (field : Field) : String := "self." ++ field.memberName

def presence (field : Field) : String :=
  if field.indirect || field.ref.target == .any then field.place ++ " is not None" else field.place

def key (field : Field) : String := Text.literalOf field.property.name

/-- The code that gets a field's value on the wire, which may be missing. -/
def wireGet (field : Field) : String := "data.get(" ++ field.key ++ ")"

/-- The code that gets a field's value on the wire, which must be there. -/
def wireItem (field : Field) : String := "data[" ++ field.key ++ "]"

def fromWire (scope : Scope) (field : Field) : String :=
  let decoded (source : String) : String := decode scope field.ref source 0
  if field.indirect then
    if decoded field.wireItem = field.wireItem then field.wireGet
    else decoded field.wireItem ++ " if " ++ field.wireGet ++ " is not None else None"
  else if !field.omitEmpty then decoded field.wireItem
  else
    match field.ref.target with
    | .enumeration _ | .raw _ => decoded field.wireGet
    | .array _ => decoded (field.wireGet ++ " or []")
    | .map => "dict(" ++ field.wireGet ++ " or \x7b\x7d)"
    | _ => field.wireGet

def decodesWire (field : Field) : Bool :=
  field.indirect || !field.omitEmpty ||
    match field.ref.target with
    | .enumeration _ | .raw _ | .array _ => true
    | _ => false

def fromWireModules (scope : Scope) (field : Field) : List String :=
  if field.decodesWire then decodeModules scope field.ref else []

def encoded (field : Field) : String := encode field.ref field.place 0

def modules (scope : Scope) (field : Field) : List String :=
  fieldModules scope field.ref ++ annotationModules scope field.ref ++
    field.defaultModules scope ++ field.fromWireModules scope

end Field

end ProtocolGen.Emission
