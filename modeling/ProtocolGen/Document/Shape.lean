import ProtocolGen.Data

/-!
# The shape of protocol documents

What a value must look like to be a protocol document, and the list of faults of one that does not.
A fault has a path from the root and a complaint. Faults are listed in the order of their paths;
those at one path keep the order in which the requirements on it are checked: its kind, its required
members, its known members in turn, and last, for type expressions, that they have a type or a
reference. Unknown members are never looked at.

A property is checked first as a type expression and then as a property, so a value that is no
table is reported twice.
-/

set_option autoImplicit false

namespace ProtocolGen.Document

inductive Step where
  | member (name : String)
  | item (index : Nat)
  deriving DecidableEq, Repr

/-- The kinds of value that a document's parts may be required to have. -/
inductive Kind where
  | object
  | array
  | string
  | boolean
  deriving DecidableEq, Repr

def Kind.name : Kind → String
  | .object => "object"
  | .array => "array"
  | .string => "string"
  | .boolean => "boolean"

def Kind.accepts : Kind → Data → Bool
  | .object, .table _ => true
  | .array, .list _ => true
  | .string, .text _ => true
  | .boolean, .boolean _ => true
  | _, _ => false

/-- What is wrong with a value, which is given as messages show it. -/
inductive Complaint where
  | notOfKind (shown : String) (kind : Kind)
  | missing (name : String)
  | empty (shown : String)
  | noAlternative (shown : String)
  deriving DecidableEq, Repr

def Complaint.message : Complaint → String
  | .notOfKind shown kind => shown ++ " is not of type '" ++ kind.name ++ "'"
  | .missing name => "'" ++ name ++ "' is a required property"
  | .empty shown => shown ++ " should be non-empty"
  | .noAlternative shown => shown ++ " is not valid under any of the given schemas"

structure Fault where
  path : List Step
  complaint : Complaint
  deriving DecidableEq, Repr

def writtenPath (path : List Step) : String :=
  path.foldl
    (fun written step =>
      match step with
      | .member name => written ++ "." ++ name
      | .item index => written ++ "[" ++ toString index ++ "]")
    "$"

def Fault.line (fault : Fault) : String := writtenPath fault.path ++ ": " ++ fault.complaint.message

/-- The order of steps: items by index, members by name. An item comes before a member, which no
two faults of one document ask. -/
def Step.atMost : Step → Step → Bool
  | .item left, .item right => left ≤ right
  | .member left, .member right => left ≤ right
  | .item _, .member _ => true
  | .member _, .item _ => false

/-- The order of paths, step by step, a path coming before its continuations. -/
def pathAtMost : List Step → List Step → Bool
  | [], _ => true
  | _ :: _, [] => false
  | left :: lefts, right :: rights =>
    if left = right then pathAtMost lefts rights else left.atMost right

def inside (step : Step) (faults : List Fault) : List Fault :=
  faults.map fun fault => { fault with path := step :: fault.path }

def kindFaults (kind : Kind) (data : Data) : List Fault :=
  if kind.accepts data then [] else [⟨[], .notOfKind data.shown kind⟩]

def requiredFaults (name : String) (data : Data) : List Fault :=
  match data with
  | .table _ => if (data.member? name).isSome then [] else [⟨[], .missing name⟩]
  | _ => []

def memberFaults (name : String) (faultsOf : Data → List Fault) (data : Data) : List Fault :=
  match data.member? name with
  | some value => inside (.member name) (faultsOf value)
  | none => []

def itemFaultsFrom (faultsOf : Data → List Fault) (index : Nat) : List Data → List Fault
  | [] => []
  | item :: items =>
    inside (.item index) (faultsOf item) ++ itemFaultsFrom faultsOf (index + 1) items

/-- The faults of a list's items. Other values have no items. -/
def itemFaults (faultsOf : Data → List Fault) : Data → List Fault
  | .list items => itemFaultsFrom faultsOf 0 items
  | _ => []

def listFaults (faultsOf : Data → List Fault) (data : Data) : List Fault :=
  kindFaults .array data ++ itemFaults faultsOf data

def emptyFaults : Data → List Fault
  | .text [] => [⟨[], .empty (Data.text []).shown⟩]
  | _ => []

def textFaults (data : Data) : List Fault := kindFaults .string data

def nameFaults (data : Data) : List Fault := kindFaults .string data ++ emptyFaults data

def flagFaults (data : Data) : List Fault := kindFaults .boolean data

/-- The fault of a table that has neither a type nor a reference. -/
def alternativeFaults (data : Data) : List Fault :=
  match data with
  | .table _ =>
    if (data.member? "type").isSome || (data.member? "$ref").isSome then []
    else [⟨[], .noAlternative data.shown⟩]
  | _ => []

def expressionFaults (data : Data) : List Fault :=
  kindFaults .object data ++ memberFaults "description" textFaults data ++
    memberFaults "type" textFaults data ++ memberFaults "$ref" nameFaults data ++
    (match _found : data.member? "items" with
      | some items => inside (.member "items") (expressionFaults items)
      | none => []) ++
    memberFaults "enum" (listFaults textFaults) data ++ alternativeFaults data
termination_by sizeOf data
decreasing_by exact Data.sizeOf_member?_lt _found

/-- The faults of the two flags that every part of a protocol may have. -/
def stateFaults (data : Data) : List Fault :=
  memberFaults "experimental" flagFaults data ++ memberFaults "deprecated" flagFaults data

def propertyFaults (data : Data) : List Fault :=
  expressionFaults data ++ kindFaults .object data ++ requiredFaults "name" data ++
    memberFaults "name" nameFaults data ++ memberFaults "optional" flagFaults data ++
    stateFaults data

def propertiesFaults (data : Data) : List Fault := listFaults propertyFaults data

def declarationFaults (data : Data) : List Fault :=
  expressionFaults data ++ kindFaults .object data ++ requiredFaults "id" data ++
    memberFaults "id" nameFaults data ++ memberFaults "properties" propertiesFaults data ++
    stateFaults data

def commandFaults (data : Data) : List Fault :=
  kindFaults .object data ++ requiredFaults "name" data ++ memberFaults "name" nameFaults data ++
    memberFaults "description" textFaults data ++ memberFaults "parameters" propertiesFaults data ++
    memberFaults "returns" propertiesFaults data ++ stateFaults data

def eventFaults (data : Data) : List Fault :=
  kindFaults .object data ++ requiredFaults "name" data ++ memberFaults "name" nameFaults data ++
    memberFaults "description" textFaults data ++ memberFaults "parameters" propertiesFaults data ++
    stateFaults data

def domainFaults (data : Data) : List Fault :=
  kindFaults .object data ++ requiredFaults "domain" data ++
    memberFaults "domain" nameFaults data ++ memberFaults "description" textFaults data ++
    stateFaults data ++ memberFaults "types" (listFaults declarationFaults) data ++
    memberFaults "commands" (listFaults commandFaults) data ++
    memberFaults "events" (listFaults eventFaults) data

def foundFaults (data : Data) : List Fault :=
  kindFaults .object data ++ requiredFaults "domains" data ++
    memberFaults "version" (kindFaults .object) data ++
    memberFaults "domains" (listFaults domainFaults) data

def faults (data : Data) : List Fault :=
  (foundFaults data).mergeSort fun left right => pathAtMost left.path right.path

def faultLines (data : Data) : List String := (faults data).map Fault.line

end ProtocolGen.Document
