import ProtocolGen.Data.Unwritable
import ProtocolGen.Yaml.Node

/-!
# The data of a YAML text

What the nodes of a text stand for. The keys of a mapping must be different; a merge key takes in
the pairs of other mappings, before its own and without that condition. In the end every key is
written out as text, which a long integer does not have, and a node that contains itself has no data.
-/

set_option autoImplicit false

namespace ProtocolGen.Yaml

namespace Graph

def node (graph : Graph) (place : Nat) : Node := (graph.nodes[place]?).getD default

/-- The parts of a node, apart from the mappings that it takes in. -/
def parts (graph : Graph) (place : Nat) : List Nat :=
  match graph.node place with
  | .scalar _ _ => []
  | .sequence _ items => items
  | .mapping _ pairs =>
    (pairs.filter fun pair => (graph.node pair.1).tag != .merge).flatMap fun (key, value) =>
      [key, value]

/-- Whether a way down from a node may be as long as a bound. -/
def hasWay (graph : Graph) : Nat → Nat → Bool
  | 0, _ => true
  | steps + 1, place => (graph.parts place).any fun part => graph.hasWay steps part

/-- Whether a node contains itself, or one of its parts does: then there is a way down that is
longer than there are nodes. -/
def isEndless (graph : Graph) (place : Nat) : Bool := graph.hasWay (graph.nodes.size + 1) place

/-- The pairs of a mapping with those that merge keys take in put first, and whether there are any.
A mapping that is being flattened gives only its own pairs. -/
def flatten (graph : Graph) : Nat → List Nat → Nat → Except Fault (List (Nat × Nat) × Bool)
  | 0, _, _ => .error .malformed
  | steps + 1, open_, place =>
    match graph.node place with
    | .mapping _ pairs =>
      let isMerge (pair : Nat × Nat) : Bool := (graph.node pair.1).tag == .merge
      let own := pairs.filter fun pair => !isMerge pair
      let pairsOf (source : Nat) : Except Fault (List (Nat × Nat)) :=
        match graph.node source with
        | .mapping _ pairs =>
          if open_.contains source || source == place then
            .ok (pairs.filter fun pair => !isMerge pair)
          else (graph.flatten steps (place :: open_) source).map (·.1)
        | _ => .error .malformed
      let takenIn (source : Nat) : Except Fault (List (Nat × Nat)) :=
        match graph.node source with
        | .mapping _ _ => pairsOf source
        | .sequence _ items => (items.mapM pairsOf).map fun lists => lists.reverse.flatten
        | .scalar _ _ => .error .malformed
      let walk (taken : List (Nat × Nat)) (pair : Nat × Nat) : Except Fault (List (Nat × Nat)) :=
        if isMerge pair then
          if taken.isEmpty then takenIn pair.2 else .error .malformed
        else .ok taken
      (pairs.foldlM walk []).map fun taken => (taken ++ own, !taken.isEmpty)
    | _ => .error .malformed

/-- The text of a scalar, or of the value that a mapping has under its default key. -/
def scalarContent (graph : Graph) : Nat → Nat → Except Fault (List Char)
  | 0, _ => .error .malformed
  | steps + 1, place =>
    match graph.node place with
    | .scalar _ content => .ok content
    | .sequence _ _ => .error .malformed
    | .mapping _ pairs =>
      match pairs.find? fun (key, _) => (graph.node key).tag == .default with
      | some (_, value) => graph.scalarContent steps value
      | none => .error .malformed

end Graph

/-- The integer or fraction that a value is, truth values counting as zero and one. -/
def numericValue? : Data → Option (Int × Nat)
  | .boolean value => some (if value then 1 else 0, 1)
  | .integer value => some (value, 1)
  | .float value => value.toFraction?
  | _ => none

mutual

/-- Whether two keys are the same. Numbers are compared by value. -/
def sameKey : Data → Data → Bool
  | .text left, right => match right with
    | .text right => left == right
    | _ => false
  | .null, right => match right with
    | .null => true
    | _ => false
  | .moment left, right => match right with
    | .moment right => left == right
    | _ => false
  | .octets left, right => match right with
    | .octets right => left == right
    | _ => false
  | .list left, right => match right with
    | .list right => sameKeys left right
    | _ => false
  | .float left, right =>
    match right with
    | .float right => left.numericallyEqual right
    | _ =>
      match left.toFraction?, numericValue? right with
      | some (a, b), some (c, d) => a * d == c * b
      | _, _ => false
  | left, right =>
    match numericValue? left, numericValue? right with
    | some (a, b), some (c, d) => a * d == c * b
    | _, _ => false

def sameKeys : List Data → List Data → Bool
  | [], [] => true
  | left :: lefts, right :: rights => sameKey left right && sameKeys lefts rights
  | _, _ => false

end

def isCollection : Data → Bool
  | .set _ | .table _ | .list _ => true
  | _ => false

/-- Checks that a value can be a key. A list can unless it holds a collection. -/
def checkKey : Data → Except Fault Unit
  | .set _ | .table _ => .error .malformed
  | .list items =>
    match items.find? isCollection with
    | some item => .error (.unusableKey item.kindName)
    | none => .ok ()
  | _ => .ok ()

/-- The text of a key. A list is written in parentheses, with a comma even behind a single item. -/
def keyText : Data → Text
  | .list [item] => Text.ofString ("(" ++ item.shown ++ ",)")
  | .list items => Text.ofString ("(" ++ ", ".intercalate (items.map Data.shown) ++ ")")
  | key => key.plain

/-- Pairs with one more. A known key keeps its place and gets the new value. -/
def putPair (key value : Data) : List (Data × Data) → List (Data × Data)
  | [] => [(key, value)]
  | pair :: pairs =>
    if sameKey pair.1 key then (pair.1, value) :: pairs else pair :: putPair key value pairs

/-- Pairs with one more. Unless repetitions are allowed, its key must be a new one. -/
def addPair (repetitions : Bool) (known : List (Data × Data)) (key value : Data) :
    Except Fault (List (Data × Data)) := do
  checkKey key
  if !repetitions && known.any fun pair => sameKey pair.1 key then throw .malformed
  pure (putPair key value known)

/-- The table of some pairs. When keys are written out, each must have a text. -/
def tableOfPairs (writing : Bool) (pairs : List (Data × Data)) : Except Fault Data :=
  if writing && pairs.any fun (key, _) => key.isUnwritable then
    .error (.meaningless Data.unwritableMessage)
  else .ok (Data.tableOf (pairs.map fun (key, value) => (keyText key, value)))

def scalarData (version : Version) (tag : Tag) (content : List Char) : Except Fault Data :=
  match tag with
  | .null => .ok .null
  | .boolean => (truthScalar content).map .boolean
  | .integer => (integerScalar version content).map .integer
  | .float => (floatScalar version content).map .float
  | .binary => (binaryScalar content).map .octets
  | .timestamp => (timestampScalar content).map .moment
  | .string => .ok (.text (Text.ofChars content))
  | _ => .error .malformed

namespace Graph

mutual

def data (graph : Graph) (writing : Bool) : Nat → Nat → Except Fault Data
  | 0, _ => .ok .null
  | steps + 1, place =>
    let node := graph.node place
    match node.tag, node with
    | .sequence, .sequence _ items | .pairs, .sequence _ items =>
      if node.tag == .pairs then
        (graph.singlePairs writing steps items).map fun pairs =>
          .list (pairs.map fun (key, value) => .list [key, value])
      else (graph.dataList writing steps items).map .list
    | .orderedMap, .sequence _ items => do
      let pairs ← graph.singlePairs writing steps items
      let known ← pairs.foldlM
        (fun known (key, value) => do
          if isCollection key then throw (.unusableKey key.kindName)
          addPair false known key value)
        []
      tableOfPairs writing known
    | .mapping, .mapping _ _ => do
      let pairs ← graph.mappingPairs writing steps place
      tableOfPairs writing pairs
    | .set, .mapping _ _ => do
      let pairs ← graph.mappingPairs writing steps place
      pure (.set (pairs.map (·.1)))
    | .sequence, _ | .pairs, _ | .orderedMap, _ | .mapping, _ | .set, _ => .error .malformed
    | tag, _ => do
      let content ← graph.scalarContent (steps + 1) place
      scalarData graph.version tag content

def dataList (graph : Graph) (writing : Bool) : Nat → List Nat → Except Fault (List Data)
  | 0, _ => .ok []
  | steps + 1, items => items.mapM fun item => graph.data writing steps item

def keyData (graph : Graph) (writing : Bool) : Nat → Nat → Except Fault Data
  | 0, _ => .ok .null
  | steps + 1, place =>
    match graph.node place with
    | .scalar .default content => .ok (.text (Text.ofChars content))
    | _ => graph.data writing steps place

def mappingPairs (graph : Graph) (writing : Bool) :
    Nat → Nat → Except Fault (List (Data × Data))
  | 0, _ => .ok []
  | steps + 1, place => do
    let (pairs, merged) ← graph.flatten (graph.nodes.size + 1) [] place
    pairs.foldlM
      (fun known (key, value) => do
        let key ← graph.keyData writing steps key
        let value ← graph.data writing steps value
        addPair merged known key value)
      []

/-- The data of the pairs of mappings that have one pair each. -/
def singlePairs (graph : Graph) (writing : Bool) :
    Nat → List Nat → Except Fault (List (Data × Data))
  | 0, _ => .ok []
  | steps + 1, items => items.mapM fun item =>
    match graph.node item with
    | .mapping _ [(key, value)] => do
      let key ← graph.data writing steps key
      let value ← graph.data writing steps value
      pure (key, value)
    | _ => .error .malformed

end

end Graph

/-- The data of a text. A text without a document holds nothing. The keys are written out once all
values are known, so what is wrong with the values comes first. -/
def read (chars : List Char) : Except Fault Data := do
  let graph ← Graph.read chars
  match graph.root with
  | none => pure .null
  | some root =>
    if graph.isEndless root then throw .endless
    let steps := 3 * graph.nodes.size + 3
    let _ ← graph.data false steps root
    graph.data true steps root

end ProtocolGen.Yaml
