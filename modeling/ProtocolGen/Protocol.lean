/-!
# Protocol documents

The content of a protocol document: domains that declare types, commands and events. A type
expression is the facets of a type and, for arrays, the expression of its items.
-/

set_option autoImplicit false

namespace ProtocolGen

/-- What a type expression says about itself, apart from its items. -/
structure Facets where
  description : Option String
  type : Option String
  reference : Option String
  enumeration : Option (List String)
  deriving DecidableEq, Repr, Inhabited

/-- A type expression, with or without an expression for the items of an array. -/
inductive TypeExpression where
  | plain (facets : Facets)
  | withItems (facets : Facets) (items : TypeExpression)
  deriving DecidableEq, Repr, Inhabited

namespace TypeExpression

def facets : TypeExpression → Facets
  | .plain facets => facets
  | .withItems facets _ => facets

def items? : TypeExpression → Option TypeExpression
  | .plain _ => none
  | .withItems _ items => some items

def type (expression : TypeExpression) : Option String := expression.facets.type

/-- The outermost reference, which counts only when it is not empty. -/
def reference? (expression : TypeExpression) : Option String :=
  expression.facets.reference.filter (· != "")

/-- The outermost labels, which count only when there are any. -/
def labels? (expression : TypeExpression) : Option (List String) :=
  expression.facets.enumeration.filter fun labels => !labels.isEmpty

end TypeExpression

/-- A property of a type, parameter of a command or event, or return value. -/
structure Property where
  expression : TypeExpression
  name : String
  optional : Bool
  experimental : Bool
  deprecated : Bool
  deriving DecidableEq, Repr, Inhabited

structure TypeDeclaration where
  expression : TypeExpression
  id : String
  properties : Option (List Property)
  experimental : Bool
  deprecated : Bool
  deriving DecidableEq, Repr, Inhabited

structure Command where
  name : String
  description : Option String
  parameters : List Property
  returns : List Property
  experimental : Bool
  deprecated : Bool
  deriving DecidableEq, Repr, Inhabited

structure Event where
  name : String
  description : Option String
  parameters : List Property
  experimental : Bool
  deprecated : Bool
  deriving DecidableEq, Repr, Inhabited

structure Domain where
  name : String
  description : Option String
  experimental : Bool
  deprecated : Bool
  types : List TypeDeclaration
  commands : List Command
  events : List Event
  deriving DecidableEq, Repr, Inhabited

def Command.optionalParameters (command : Command) : List Property :=
  command.parameters.filter Property.optional

/-- The properties of a declaration, none when it has no list of them. -/
def TypeDeclaration.propertyList (declaration : TypeDeclaration) : List Property :=
  declaration.properties.getD []

end ProtocolGen
