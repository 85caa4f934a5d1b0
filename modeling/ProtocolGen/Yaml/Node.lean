import ProtocolGen.Yaml.Scalar
import ProtocolGen.Yaml.Token

/-!
# Nodes of YAML

The graph that a text writes: scalars, sequences and mappings with their tags. An alias is the node
that its anchor names, so a node may have many parents and may even contain itself. Nodes are kept
in a list and named by their places in it.
-/

set_option autoImplicit false

namespace ProtocolGen.Yaml

inductive Node where
  | scalar (tag : Tag) (content : List Char)
  | sequence (tag : Tag) (items : List Nat)
  | mapping (tag : Tag) (pairs : List (Nat × Nat))
  deriving Inhabited

def Node.tag : Node → Tag
  | .scalar tag _ | .sequence tag _ | .mapping tag _ => tag

/-- The nodes of a text, and its outermost node if it has one. -/
structure Graph where
  nodes : Array Node
  root : Option Nat
  version : Version

structure Composer where
  lexer : Lexer
  nodes : Array Node
  anchors : List (List Char × Nat)
  handles : List (List Char × List Char)

abbrev ComposeM := StateT Composer (Except Fault)

def withLexer {α : Type} (step : LexM α) : ComposeM α := do
  let composer ← get
  let (result, lexer) ← step.run composer.lexer
  set { composer with lexer := lexer }
  pure result

def peekNode : ComposeM Token := withLexer peekToken

def takeNode : ComposeM Token := withLexer takeToken

def refuseNode {α : Type} : ComposeM α := throw .malformed

def isAfterOldNow : ComposeM Bool := do pure (← get).lexer.version.isAfterOld

/-- Keeps a node, under an anchor if it has one, and gives its place. -/
def keepNode (anchor : Option (List Char)) (node : Node) : ComposeM Nat := do
  let place := (← get).nodes.size
  modify fun composer =>
    { composer with
      nodes := composer.nodes.push node,
      anchors :=
        match anchor with
        | some name => (name, place) :: composer.anchors
        | none => composer.anchors }
  pure place

def setNode (place : Nat) (node : Node) : ComposeM Unit :=
  modify fun composer => { composer with nodes := composer.nodes.setIfInBounds place node }

def keepScalar (content : List Char) (plain : Bool) : ComposeM Nat := do
  let version := (← get).lexer.version
  keepNode none (.scalar (if plain then plainTag version content else .string) content)

def keepEmpty : ComposeM Nat := keepScalar [] true

structure Properties where
  anchor : Option (List Char)
  /-- The address of the tag. -/
  tag : Option (List Char)

def tagAddressOf (handle : Option (List Char)) (suffix : List Char) : ComposeM (List Char) := do
  match handle with
  | none => pure suffix
  | some handle =>
    match (← get).handles.lookup handle with
    | some leading => pure (leading ++ suffix)
    | none => refuseNode

def readProperties : ComposeM Properties := do
  match ← peekNode with
  | .anchor name => do
    let _ ← takeNode
    match ← peekNode with
    | .tag handle suffix => do
      let _ ← takeNode
      pure ⟨some name, some (← tagAddressOf handle suffix)⟩
    | _ => pure ⟨some name, none⟩
  | .tag handle suffix => do
    let _ ← takeNode
    match ← peekNode with
    | .anchor name => do
      let _ ← takeNode
      pure ⟨some name, some (← tagAddressOf handle suffix)⟩
    | _ => pure ⟨none, some (← tagAddressOf handle suffix)⟩
  | _ => pure ⟨none, none⟩

def Properties.isUntagged (properties : Properties) : Bool :=
  properties.tag.isNone || properties.tag == some ['!']

def Properties.collectionTag (properties : Properties) (own : Tag) : Tag :=
  if properties.isUntagged then own else Tag.ofAddress (properties.tag.getD [])

/-- The tag of a scalar. An exclamation mark alone makes any scalar count as plain. -/
def Properties.scalarTag (properties : Properties) (version : Version) (content : List Char)
    (plain : Bool) : Tag :=
  match properties.tag with
  | none => if plain then plainTag version content else .string
  | some ['!'] => plainTag version content
  | some address => Tag.ofAddress address

mutual

/-- Reads a node. In a block, collections of blocks may stand there, and where a mapping's value
stands also a sequence without indentation of its own. -/
def readNode (inBlock unindented : Bool) : Nat → ComposeM Nat
  | 0 => refuseNode
  | steps + 1 => do
    match ← peekNode with
    | .alias name => do
      let _ ← takeNode
      match (← get).anchors.lookup name with
      | some place => pure place
      | none => refuseNode
    | _ => do
      let properties ← readProperties
      let version := (← get).lexer.version
      match ← peekNode with
      | .blockEntry =>
        if unindented then do
          let tag := properties.collectionTag .sequence
          let place ← keepNode properties.anchor (.sequence tag [])
          let items ← readUnindented steps []
          setNode place (.sequence tag items)
          pure place
        else readEmpty properties steps
      | .scalar content plain => do
        let _ ← takeNode
        keepNode properties.anchor
          (.scalar (properties.scalarTag version content plain) content)
      | .flowSequenceStart => do
        let _ ← takeNode
        let tag := properties.collectionTag .sequence
        let place ← keepNode properties.anchor (.sequence tag [])
        let items ← readFlowItems steps []
        setNode place (.sequence tag items)
        pure place
      | .flowMappingStart => do
        let _ ← takeNode
        let tag := properties.collectionTag .mapping
        let place ← keepNode properties.anchor (.mapping tag [])
        let pairs ← readFlowPairs steps []
        setNode place (.mapping tag pairs)
        pure place
      | .blockSequenceStart =>
        if inBlock then do
          let _ ← takeNode
          let tag := properties.collectionTag .sequence
          let place ← keepNode properties.anchor (.sequence tag [])
          let items ← readBlockItems steps []
          setNode place (.sequence tag items)
          pure place
        else readEmpty properties steps
      | .blockMappingStart =>
        if inBlock then do
          let _ ← takeNode
          let tag := properties.collectionTag .mapping
          let place ← keepNode properties.anchor (.mapping tag [])
          let pairs ← readBlockPairs steps []
          setNode place (.mapping tag pairs)
          pure place
        else readEmpty properties steps
      | _ => readEmpty properties steps

/-- Keeps the empty scalar that an anchor or tag alone stands for. -/
def readEmpty (properties : Properties) : Nat → ComposeM Nat
  | 0 => refuseNode
  | _ + 1 => do
    if properties.anchor.isNone && properties.tag.isNone then refuseNode
    else
      let tag :=
        if properties.isUntagged then plainTag Version.current []
        else Tag.ofAddress (properties.tag.getD [])
      keepNode properties.anchor (.scalar tag [])

/-- Reads a node unless a token stands there that shows there is none. -/
def readUnless (absent : Token → Bool) (inBlock unindented : Bool) : Nat → ComposeM Nat
  | 0 => refuseNode
  | steps + 1 => do
    if absent (← peekNode) then keepEmpty else readNode inBlock unindented steps

def readBlockItems : Nat → List Nat → ComposeM (List Nat)
  | 0, _ => refuseNode
  | steps + 1, done => do
    match ← takeNode with
    | .blockEntry => do
      let item ← readUnless (fun token => token == .blockEntry || token == .blockEnd) true false steps
      readBlockItems steps (item :: done)
    | .blockEnd => pure done.reverse
    | _ => refuseNode

/-- Reads the items of a sequence that has no indentation of its own. -/
def readUnindented : Nat → List Nat → ComposeM (List Nat)
  | 0, _ => refuseNode
  | steps + 1, done => do
    match ← peekNode with
    | .blockEntry => do
      let _ ← takeNode
      let item ← readUnless (fun token =>
        token == .blockEntry || token == .key || token == .value || token == .blockEnd) true false
        steps
      readUnindented steps (item :: done)
    | _ => pure done.reverse

def readBlockPairs : Nat → List (Nat × Nat) → ComposeM (List (Nat × Nat))
  | 0, _ => refuseNode
  | steps + 1, done => do
    let absent (token : Token) : Bool :=
      token == .key || token == .value || token == .blockEnd
    match ← peekNode with
    | .key => do
      let _ ← takeNode
      let key ← readUnless absent true true steps
      let value ← readBlockValue steps
      readBlockPairs steps ((key, value) :: done)
    | .value => do
      if ← isAfterOldNow then
        let key ← keepEmpty
        let value ← readBlockValue steps
        readBlockPairs steps ((key, value) :: done)
      else refuseNode
    | .blockEnd => do
      let _ ← takeNode
      pure done.reverse
    | _ => refuseNode

def readBlockValue : Nat → ComposeM Nat
  | 0 => refuseNode
  | steps + 1 => do
    match ← peekNode with
    | .value => do
      let _ ← takeNode
      readUnless (fun token => token == .key || token == .value || token == .blockEnd) true true steps
    | _ => keepEmpty

def readFlowItems : Nat → List Nat → ComposeM (List Nat)
  | 0, _ => refuseNode
  | steps + 1, done => do
    if (← peekNode) == .flowSequenceEnd then
      let _ ← takeNode
      pure done.reverse
    else
      if !done.isEmpty then
        if (← takeNode) != .flowEntry then refuseNode
      match ← peekNode with
      | .flowSequenceEnd => do
        let _ ← takeNode
        pure done.reverse
      | .key => do
        let _ ← takeNode
        let place ← keepNode none (.mapping .mapping [])
        let key ← readUnless (fun token =>
          token == .value || token == .flowEntry || token == .flowSequenceEnd) false false steps
        let value ← readFlowValue .flowSequenceEnd steps
        setNode place (.mapping .mapping [(key, value)])
        readFlowItems steps (place :: done)
      | _ => do
        let item ← readNode false false steps
        readFlowItems steps (item :: done)

/-- Reads the value behind a key in a flow collection with some closing mark. -/
def readFlowValue (closing : Token) : Nat → ComposeM Nat
  | 0 => refuseNode
  | steps + 1 => do
    match ← peekNode with
    | .value => do
      let _ ← takeNode
      readUnless (fun token => token == .flowEntry || token == closing) false false steps
    | _ => keepEmpty

def readFlowPairs : Nat → List (Nat × Nat) → ComposeM (List (Nat × Nat))
  | 0, _ => refuseNode
  | steps + 1, done => do
    if (← peekNode) == .flowMappingEnd then
      let _ ← takeNode
      pure done.reverse
    else
      if !done.isEmpty then
        if (← takeNode) != .flowEntry then refuseNode
      match ← peekNode with
      | .flowMappingEnd => do
        let _ ← takeNode
        pure done.reverse
      | .key => do
        let _ ← takeNode
        let key ← readUnless (fun token =>
          token == .value || token == .flowEntry || token == .flowMappingEnd) false false steps
        let value ← readFlowValue .flowMappingEnd steps
        readFlowPairs steps ((key, value) :: done)
      | .value => do
        if ← isAfterOldNow then
          let key ← keepEmpty
          let value ← readFlowValue .flowMappingEnd steps
          readFlowPairs steps ((key, value) :: done)
        else
          let key ← readNode false false steps
          let value ← keepEmpty
          readFlowPairs steps ((key, value) :: done)
      | _ => do
        let key ← readNode false false steps
        let value ← keepEmpty
        readFlowPairs steps ((key, value) :: done)

end

def standardHandles : List (List Char × List Char) :=
  [(['!'], ['!']), (['!', '!'], "tag:yaml.org,2002:".toList)]

/-- Reads directives: whether a version is named, and the handles that they give. -/
def readDirectives (versioned : Bool) (handles : List (List Char × List Char)) :
    Nat → ComposeM (List (List Char × List Char))
  | 0 => refuseNode
  | steps + 1 => do
    match ← peekNode with
    | .directive directive => do
      let _ ← takeNode
      match directive with
      | .version version =>
        if versioned || version.major != 1 then refuseNode
        else readDirectives true handles steps
      | .tag handle leading =>
        if (handles.lookup handle).isSome then refuseNode
        else readDirectives versioned ((handle, leading) :: handles) steps
      | .unknown => readDirectives versioned handles steps
    | _ => pure handles

def skipDocumentEnds : Nat → ComposeM Unit
  | 0 => pure ()
  | steps + 1 => do
    if (← peekNode) == .documentEnd then
      let _ ← takeNode
      skipDocumentEnds steps

def readDocument (steps : Nat) : ComposeM (Option Nat) := do
  let explicit (token : Token) : Bool :=
    match token with
    | .directive _ | .documentStart => true
    | _ => false
  let first ← peekNode
  if first == .streamEnd then pure none
  else if explicit first then
    let handles ← readDirectives false [] steps
    modify fun composer => { composer with handles := handles ++ standardHandles }
    if (← takeNode) != .documentStart then refuseNode
    let next ← peekNode
    if explicit next || next == .documentEnd || next == .streamEnd then
      pure (some (← keepEmpty))
    else pure (some (← readNode true false steps))
  else pure (some (← readNode true false steps))

/-- Reads what may follow the first document: a mark of its end, or several of them in the older
version, and nothing more. -/
def readRest (steps : Nat) : ComposeM Unit := do
  if (← get).lexer.version == Version.old then skipDocumentEnds steps else skipDocumentEnds 1
  if (← peekNode) != .streamEnd then refuseNode

/-- The graph that a text writes. The text must be readable and hold at most one document. -/
def Graph.read (chars : List Char) : Except Fault Graph := do
  if !chars.all isReadable then throw .malformed
  let steps := 8 * chars.length + 64
  let start : Composer := ⟨Lexer.start chars, #[], [], standardHandles⟩
  let compose : ComposeM (Option Nat) := do
    let root ← readDocument steps
    if root.isSome then readRest steps
    pure root
  let (root, composer) ← compose.run start
  pure ⟨composer.nodes, root, composer.lexer.version⟩

end ProtocolGen.Yaml
