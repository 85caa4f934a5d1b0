import ProtocolGen.Text.Blank
import ProtocolGen.Text.Identifier

/-!
# Names of generated code

How the names of a protocol become identifiers. Classes keep the protocol's spelling with capital
first letters; attributes, methods, parameters and modules are written in small letters with low
lines between the words of camel case and around runs of capitals. A name that is a keyword or
reserved gets a low line at its end. Enumeration members are in capitals, numbered where two would
be equal, and never the name of the unset member.
-/

set_option autoImplicit false

namespace ProtocolGen.Naming

def isWordChar (char : Char) : Bool := char.isAlphanum

def isNameChar (char : Char) : Bool := char.isAlphanum || char == '_'

def collapseLowLines : List Char → List Char
  | '_' :: '_' :: rest => collapseLowLines ('_' :: rest)
  | char :: rest => char :: collapseLowLines rest
  | [] => []

def stripLowLines (name : List Char) : List Char :=
  Text.dropEndWhile (· == '_') (name.dropWhile (· == '_'))

def reservedNames : List String := ["self", "cls"]

def reservedClasses : List String := ["Client"]

def reservedModules : List String :=
  ["abc", "client", "commands", "dataclasses", "enum", "events", "protocol", "typing"]

def isAmong (names : List String) (name : List Char) : Bool :=
  names.any fun candidate => candidate.toList == name

def guardDigit (name : List Char) : List Char :=
  match name with
  | first :: _ => if first.isDigit then '_' :: name else name
  | [] => name

def guardReserved (name : List Char) : List Char :=
  if Text.isKeyword name || isAmong reservedNames name then name ++ ['_'] else name

def safeChars (text : List Char) : List Char :=
  let cleaned := text.map fun char => if isNameChar char then char else '_'
  let stripped := stripLowLines (collapseLowLines cleaned)
  guardReserved (guardDigit (if stripped.isEmpty then "value".toList else stripped))

/-- Whether a word ends between two characters: before a capital that follows a small letter or
digit, and before the last capital of a run when a small letter follows it. -/
def isBoundary (left right : Char) (next : Option Char) : Bool :=
  right.isUpper &&
    (left.isLower || left.isDigit || (left.isUpper && (next.map Char.isLower).getD false))

def markBoundaries : List Char → List Char
  | left :: right :: rest =>
    if isBoundary left right rest.head? then left :: '_' :: markBoundaries (right :: rest)
    else left :: markBoundaries (right :: rest)
  | rest => rest

/-- A text in small letters, with one low line between each two words. -/
def snakeChars (text : List Char) : List Char :=
  let marked := (markBoundaries text).map fun char => if isWordChar char then char else '_'
  (stripLowLines (collapseLowLines marked)).map Text.lowerAscii

/-- A text without its marks, each run of letters and digits begun by a capital. -/
def pascalFrom (atStart : Bool) : List Char → List Char
  | [] => []
  | char :: rest =>
    if isWordChar char then
      (if atStart then Text.upperAscii char else char) :: pascalFrom false rest
    else pascalFrom true rest

/-- A text without its marks, each run of letters and digits begun by a capital. -/
def pascalChars (text : List Char) : List Char := pascalFrom true text

def guardAmong (names : List String) (name : List Char) : List Char :=
  if isAmong names name then name ++ ['_'] else name

def safeIdentifier (text : String) : String := String.ofList (safeChars text.toList)

/-- A text in small letters with low lines between words. It may be empty or begin with a digit. -/
def snake (text : String) : String := String.ofList (snakeChars text.toList)

/-- A text with capitals at its words' starts. It may be empty or begin with a digit. -/
def pascal (text : String) : String := String.ofList (pascalChars text.toList)

def attributeName (name : String) : String := safeIdentifier (snake name)

def moduleName (domain : String) : String :=
  String.ofList (guardAmong reservedModules (safeChars (snakeChars domain.toList)))

def className (name : String) : String := safeIdentifier (pascal name)

def domainClass (domain : String) : String :=
  String.ofList (guardAmong reservedClasses (safeChars (pascalChars domain.toList)))

def memberName (domain name : String) : String := safeIdentifier (pascal domain ++ pascal name)

def argsName (domain command : String) : String := memberName domain command ++ "Args"

/-- The class of a command's return values or an event's payload. -/
def replyName (domain name : String) : String := memberName domain name ++ "Reply"

def eventClientName (domain event : String) : String := memberName domain event ++ "Client"

def argsConstructorName (domain command : String) : String :=
  "new_" ++ snake domain ++ "_" ++ snake command ++ "_args"

def unsetMember : String := "NOT_SET"

/-- The member name of a label before it is compared with others. -/
def memberBase (label : String) : String :=
  match (snakeChars label.toList).map Text.upperAscii with
  | [] => "VALUE"
  | first :: rest =>
    if first.isDigit then "VALUE_" ++ String.ofList (first :: rest) else String.ofList (first :: rest)

def numbered (base : String) (number : Nat) : String := base ++ "_" ++ toString number

/-- The first numbered form of a base name that is not in use, from a number on. -/
def firstUnused (used : List String) (base : String) : Nat → Nat → String
  | 0, number => numbered base number
  | tries + 1, number =>
    if used.contains (numbered base number) then firstUnused used base tries (number + 1)
    else numbered base number

/-- The member name of a label among names in use. There are more numbers to try than names. -/
def memberAmong (used : List String) (label : String) : String :=
  let base := memberBase label
  let name := if base == unsetMember then base ++ "_" else base
  if used.contains name then firstUnused used base used.length 2 else name

def enumMemberNamesFrom (used : List String) : List String → List String
  | [] => []
  | label :: labels =>
    let name := memberAmong used label
    name :: enumMemberNamesFrom (name :: used) labels

def enumMemberNames (labels : List String) : List String :=
  enumMemberNamesFrom [unsetMember] labels

end ProtocolGen.Naming
