import ProtocolGen.Document.Shape
import ProtocolGen.Protocol

/-!
# Decoding protocol documents

A document of the right shape decodes to its domains, part by part and in order, with an absent
flag read as false and an absent list as empty. Two things that the shape leaves open are decided
here. A reference may also be spelled without its mark, which counts only where the marked spelling
is absent; and a text that holds a lone surrogate is no string.
-/

set_option autoImplicit false

namespace ProtocolGen.Document

structure Protocol where
  version : Option Data
  domains : List Domain

structure Obstacle where
  path : List Step
  reason : String
  deriving DecidableEq, Repr

def Obstacle.line (obstacle : Obstacle) : String :=
  writtenPath obstacle.path ++ ": " ++ obstacle.reason

def within (step : Step) (obstacles : List Obstacle) : List Obstacle :=
  obstacles.map fun obstacle => { obstacle with path := step :: obstacle.path }

def stringObstacles : Data → List Obstacle
  | .text text =>
    if (Text.toString? text).isSome then []
    else
      [⟨[], "Input should be a valid string, unable to parse raw data as a unicode string"⟩]
  | .null => []
  | _ => [⟨[], "Input should be a valid string"⟩]

def memberObstacles (name : String) (obstaclesOf : Data → List Obstacle) (data : Data) :
    List Obstacle :=
  match data.member? name with
  | some value => within (.member name) (obstaclesOf value)
  | none => []

def itemObstaclesFrom (obstaclesOf : Data → List Obstacle) (index : Nat) :
    List Data → List Obstacle
  | [] => []
  | item :: items =>
    within (.item index) (obstaclesOf item) ++ itemObstaclesFrom obstaclesOf (index + 1) items

def listObstacles (obstaclesOf : Data → List Obstacle) : Data → List Obstacle
  | .list items => itemObstaclesFrom obstaclesOf 0 items
  | _ => []

def referenceMember (data : Data) : String :=
  if (data.member? "$ref").isSome then "$ref" else "ref"

def expressionObstacles (data : Data) : List Obstacle :=
  memberObstacles "description" stringObstacles data ++
    memberObstacles "type" stringObstacles data ++
    memberObstacles (referenceMember data) stringObstacles data ++
    (match _found : data.member? "items" with
      | some items => within (.member "items") (expressionObstacles items)
      | none => []) ++
    memberObstacles "enum" (listObstacles stringObstacles) data
termination_by sizeOf data
decreasing_by exact Data.sizeOf_member?_lt _found

def propertyObstacles (data : Data) : List Obstacle :=
  expressionObstacles data ++ memberObstacles "name" stringObstacles data

def declarationObstacles (data : Data) : List Obstacle :=
  expressionObstacles data ++ memberObstacles "id" stringObstacles data ++
    memberObstacles "properties" (listObstacles propertyObstacles) data

def messageObstacles (data : Data) : List Obstacle :=
  memberObstacles "name" stringObstacles data ++
    memberObstacles "description" stringObstacles data ++
    memberObstacles "parameters" (listObstacles propertyObstacles) data

def commandObstacles (data : Data) : List Obstacle :=
  messageObstacles data ++ memberObstacles "returns" (listObstacles propertyObstacles) data

def domainObstacles (data : Data) : List Obstacle :=
  memberObstacles "domain" stringObstacles data ++
    memberObstacles "description" stringObstacles data ++
    memberObstacles "types" (listObstacles declarationObstacles) data ++
    memberObstacles "commands" (listObstacles commandObstacles) data ++
    memberObstacles "events" (listObstacles messageObstacles) data

def obstacles (data : Data) : List Obstacle :=
  memberObstacles "domains" (listObstacles domainObstacles) data

def string? : Data → Option String
  | .text text => Text.toString? text
  | _ => none

def stringMember? (name : String) (data : Data) : Option String := (data.member? name).bind string?

def flagMember (name : String) (data : Data) : Bool :=
  match data.member? name with
  | some (.boolean value) => value
  | _ => false

def listMember? (name : String) (data : Data) : Option (List Data) :=
  match data.member? name with
  | some (.list items) => some items
  | _ => none

/-- The items of a member that is a list. An absent list has none. -/
def listMember (name : String) (data : Data) : List Data := (listMember? name data).getD []

def decodeFacets (data : Data) : Facets where
  description := stringMember? "description" data
  type := stringMember? "type" data
  reference := stringMember? (referenceMember data) data
  enumeration := (listMember? "enum" data).map fun items => items.filterMap string?

def decodeExpression (data : Data) : TypeExpression :=
  match _found : data.member? "items" with
  | some items => .withItems (decodeFacets data) (decodeExpression items)
  | none => .plain (decodeFacets data)
termination_by sizeOf data
decreasing_by exact Data.sizeOf_member?_lt _found

def decodeProperty (data : Data) : Property where
  expression := decodeExpression data
  name := (stringMember? "name" data).getD ""
  optional := flagMember "optional" data
  experimental := flagMember "experimental" data
  deprecated := flagMember "deprecated" data

def decodeDeclaration (data : Data) : TypeDeclaration where
  expression := decodeExpression data
  id := (stringMember? "id" data).getD ""
  properties := (listMember? "properties" data).map fun items => items.map decodeProperty
  experimental := flagMember "experimental" data
  deprecated := flagMember "deprecated" data

def decodeCommand (data : Data) : Command where
  name := (stringMember? "name" data).getD ""
  description := stringMember? "description" data
  parameters := (listMember "parameters" data).map decodeProperty
  returns := (listMember "returns" data).map decodeProperty
  experimental := flagMember "experimental" data
  deprecated := flagMember "deprecated" data

def decodeEvent (data : Data) : Event where
  name := (stringMember? "name" data).getD ""
  description := stringMember? "description" data
  parameters := (listMember "parameters" data).map decodeProperty
  experimental := flagMember "experimental" data
  deprecated := flagMember "deprecated" data

def decodeDomain (data : Data) : Domain where
  name := (stringMember? "domain" data).getD ""
  description := stringMember? "description" data
  experimental := flagMember "experimental" data
  deprecated := flagMember "deprecated" data
  types := (listMember "types" data).map decodeDeclaration
  commands := (listMember "commands" data).map decodeCommand
  events := (listMember "events" data).map decodeEvent

/-- A document, which is taken to have the right shape and no obstacles. -/
def decode (data : Data) : Protocol where
  version := data.member? "version"
  domains := (listMember "domains" data).map decodeDomain

end ProtocolGen.Document
