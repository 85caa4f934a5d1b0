import ProtocolGen.Data.Unwritable
import ProtocolGen.Document.Decode
import ProtocolGen.Failure
import ProtocolGen.Text.Sorted
import ProtocolGen.Yaml.Document

/-!
# Loading protocol documents

A document is a file of JSON, or of YAML when its name says so. What it holds must have the right
shape. The domains of several documents are put together and sorted by name, which must be unique
among them, so the order of the documents does not matter.

The lines about a document's shape show the values that they are about. A document whose lines would
show an integer that is too long to be written is not refused with lines.
-/

set_option autoImplicit false

namespace ProtocolGen.Document

def parse (source : String) (data : Data) : Except DocumentRefusal Protocol :=
  match faultLines data with
  | [] =>
    match obstacles data with
    | [] => .ok (decode data)
    | found => .error ⟨source, .undecodable (found.map Obstacle.line)⟩
  | lines => .error ⟨source, .misshapen lines⟩

/-- The part of a value at the end of a path. -/
def partAt? : List Step → Data → Option Data
  | [], data => some data
  | .member name :: steps, data => (data.member? name).bind (partAt? steps)
  | .item index :: steps, .list items => items[index]?.bind (partAt? steps)
  | .item _ :: _, _ => none

def Complaint.showsValue : Complaint → Bool
  | .missing _ => false
  | _ => true

/-- Whether the line about a fault would show an integer that is not written. -/
def Fault.isUnwritable (data : Data) (fault : Fault) : Bool :=
  fault.complaint.showsValue && (partAt? fault.path data).any Data.isUnwritable

/-- The failure of a document that is refused. -/
def failureOf (data : Data) (refusal : DocumentRefusal) : Failure :=
  if (faults data).any (Fault.isUnwritable data) then .meaningless Data.unwritableMessage
  else .document refusal

def isYaml (path : Path) : Bool :=
  let ending := path.suffix.toList.map Text.lowerAscii
  ending == ".yaml".toList || ending == ".yml".toList

def readJson (source : String) (bytes : List UInt8) : Except Failure Data :=
  match Text.decodeChars bytes with
  | .error fault => .error (.bytes fault)
  | .ok chars =>
    match Json.read (Text.ofChars (Text.unifyLineEnds chars)) with
    | .ok data => .ok data
    | .error (.tooManyDigits count) => .error (.meaningless (Json.tooManyDigitsMessage count))
    | .error fault => .error (.document ⟨source, .malformedJson fault⟩)

/-- A decoding fault of a file that is read piece by piece. A sequence that the end cuts short is
noticed after the last piece, so its position counts from its own start. -/
def pieceFault (fault : Text.DecodeFault) : Text.DecodeFault :=
  if fault.cause = Text.unexpectedEnd then { fault with start := 0 } else fault

def readYaml (source : String) (bytes : List UInt8) : Except Failure Data :=
  match Text.decodeChars bytes with
  | .error fault => .error (.bytes (pieceFault fault))
  | .ok chars =>
    match Yaml.read (Text.unifyLineEnds chars) with
    | .ok data => .ok data
    | .error .malformed => .error (.document ⟨source, .malformedYaml⟩)
    | .error .endless => .error .endless
    | .error (.meaningless words) => .error (.meaningless words)
    | .error .emptyScalar => .error .emptyScalar
    | .error (.unusableKey kind) => .error (.unusableKey kind)

def load (tree : FileTree) (path : Path) : Except Failure Protocol := do
  let source := path.toString
  match tree.read path with
  | .error fault =>
    if fault.kind.isSystems then .error (.document ⟨source, .unreadable fault.kind.words⟩)
    else .error (.file fault)
  | .ok bytes =>
    let data ←
      if isYaml path then readYaml source bytes.toList else readJson source bytes.toList
    (parse source data).mapError (failureOf data)

/-- The names that come again later in a list, in the order of their second mentions. -/
def repeatedFrom (seen : List String) : List String → List String
  | [] => []
  | name :: names =>
    if seen.contains name then name :: repeatedFrom seen names
    else repeatedFrom (name :: seen) names

def mergedSource : String := "<merged>"

def mergeDomains (domains : List Domain) : Except DocumentRefusal (List Domain) :=
  match repeatedFrom [] (domains.map Domain.name) with
  | [] => .ok (domains.mergeSort fun left right => decide (left.name ≤ right.name))
  | repeated => .error ⟨mergedSource, .duplicateDomains (Text.sortedSet repeated)⟩

def merge (protocols : List Protocol) : Except DocumentRefusal (List Domain) :=
  mergeDomains (protocols.flatMap Protocol.domains)

/-- Loads the documents at some paths, in order, and puts their domains together. -/
def loadDomains (tree : FileTree) (paths : List Path) : Except Failure (List Domain) := do
  let protocols ← paths.mapM (load tree)
  (merge protocols).mapError .document

end ProtocolGen.Document
