import ProtocolGen.Yaml.ScalarText

/-!
# Tokens of YAML

Marks, scalars and the ends of blocks. Blocks are known by their indentation alone, so their tokens
appear where indentation changes; and a mapping's key is known only by the mark after it, so its
token is put before a scalar or collection that is already read. Tokens are therefore read on
demand, with a record of where a key may have begun.
-/

set_option autoImplicit false

namespace ProtocolGen.Yaml

inductive Directive where
  | version (version : Version)
  | tag (handle leading : List Char)
  | unknown
  deriving DecidableEq, Repr

inductive Token where
  | directive (directive : Directive)
  | documentStart
  | documentEnd
  | streamEnd
  | blockSequenceStart
  | blockMappingStart
  | blockEnd
  | flowSequenceStart
  | flowSequenceEnd
  | flowMappingStart
  | flowMappingEnd
  | blockEntry
  | flowEntry
  | key
  | value
  | alias (name : List Char)
  | anchor (name : List Char)
  | tag (handle : Option (List Char)) (suffix : List Char)
  | scalar (content : List Char) (plain : Bool)
  deriving DecidableEq, Repr

/-- A place where a key may have begun. A required one must turn out to be a key. -/
structure PossibleKey where
  level : Nat
  number : Nat
  required : Bool
  index : Nat
  line : Nat
  column : Nat
  deriving DecidableEq, Repr

/-- The reader of tokens: where it is, what it has read and not handed out, and what it is inside
of. -/
structure Lexer where
  cursor : Cursor
  tokens : Array Token
  taken : Nat
  /-- The indentation of the innermost block, one less than none outside of all. -/
  indent : Int
  indents : List Int
  /-- The opening marks of the flow collections that are open, the innermost first. -/
  flow : List Char
  allowKey : Bool
  keys : List PossibleKey
  finished : Bool
  version : Version

abbrev LexM := StateT Lexer (Except Fault)

namespace Lexer

def start (chars : List Char) : Lexer :=
  ⟨Cursor.ofChars chars, #[], 0, -1, [], [], true, [], false, Version.current⟩

def inFlow (lexer : Lexer) : Bool := !lexer.flow.isEmpty

def level (lexer : Lexer) : Nat := lexer.flow.length

end Lexer

def refuse {α : Type} : LexM α := throw .malformed

def moveTo (cursor : Cursor) : LexM Unit := modify fun lexer => { lexer with cursor := cursor }

def addToken (token : Token) : LexM Unit :=
  modify fun lexer => { lexer with tokens := lexer.tokens.push token }

def allowKey (allow : Bool) : LexM Unit := modify fun lexer => { lexer with allowKey := allow }

/-- Moves past blanks, comments and line breaks. Tabs are blanks in flow collections only. In a block
a line break allows a key. -/
def skipToToken : Nat → LexM Unit
  | 0 => pure ()
  | steps + 1 => do
    let lexer ← get
    let cursor := lexer.cursor.skip fun char => char == ' ' || (lexer.inFlow && char == '\t')
    let cursor := if cursor.head == '#' then cursor.skip fun char => !isEnd char else cursor
    match cursor.lineBreak? with
    | some (_, cursor) => do
      moveTo cursor
      if !(← get).inFlow then allowKey true
      skipToToken steps
    | none => moveTo cursor

/-- Forgets possible keys that are on an earlier line or too far back. -/
def dropStaleKeys : LexM Unit := do
  let lexer ← get
  let stale (key : PossibleKey) : Bool :=
    key.line != lexer.cursor.line || 1024 < lexer.cursor.index - key.index
  if lexer.keys.any fun key => stale key && key.required then refuse
  set { lexer with keys := lexer.keys.filter fun key => !stale key }

def dropKey : LexM Unit := do
  let lexer ← get
  if lexer.keys.any fun key => key.level == lexer.level && key.required then refuse
  set { lexer with keys := lexer.keys.filter fun key => key.level != lexer.level }

def saveKey : LexM Unit := do
  let lexer ← get
  if lexer.allowKey then
    let required := !lexer.inFlow && lexer.indent == (lexer.cursor.column : Int)
    dropKey
    let key : PossibleKey :=
      ⟨lexer.level, lexer.taken + lexer.tokens.size, required, lexer.cursor.index,
        lexer.cursor.line, lexer.cursor.column⟩
    modify fun lexer => { lexer with keys := lexer.keys ++ [key] }

/-- Ends the blocks that are deeper than a column, given how many there are at most. -/
def unwindWithin (column : Int) : Nat → LexM Unit
  | 0 => pure ()
  | steps + 1 => do
    let lexer ← get
    if column < lexer.indent then
      set { lexer with
        indent := lexer.indents.headD (-1), indents := lexer.indents.tail,
        tokens := lexer.tokens.push .blockEnd }
      unwindWithin column steps

/-- Ends the blocks that are deeper than a column. In a flow collection indentation means nothing. -/
def unwind (column : Int) : LexM Unit := do
  let lexer ← get
  if !lexer.inFlow then unwindWithin column (lexer.indents.length + 1)

/-- Begins a block at a column when it is deeper than the current one, and tells whether it is. -/
def indentTo (column : Nat) : LexM Bool := do
  let lexer ← get
  if lexer.indent < (column : Int) then
    set { lexer with indent := (column : Int), indents := lexer.indent :: lexer.indents }
    pure true
  else pure false

def readEnd : LexM Unit := do
  unwind (-1)
  dropKey
  modify fun lexer =>
    { lexer with
      allowKey := false, keys := [], tokens := lexer.tokens.push .streamEnd, finished := true }

def decimal? (cursor : Cursor) : Option (Nat × Cursor) :=
  let length := cursor.run Char.isDigit
  if length == 0 then none
  else
    let digits := cursor.take length
    some (digits.foldl (fun number char => number * 10 + (char.toNat - '0'.toNat)) 0,
      cursor.forward length)

def isTagWord (char : Char) : Bool := char.isAlphanum || char == '-' || char == '_'

/-- Characters of addresses in tags. The number sign is one of them since the current version. -/
def isAddress (version : Version) (char : Char) : Bool :=
  char.isAlphanum || "-;/?:@&=+$,_.!~*'()[]%".toList.contains char ||
    (version.isAfterOld && char == '#')

/-- The handle of a tag at a cursor: an exclamation mark, or a word between two. -/
def tagHandle (cursor : Cursor) : Except Fault (List Char × Cursor) :=
  if cursor.head != '!' then .error .malformed
  else if cursor.peek 1 == ' ' then .ok (['!'], cursor.next)
  else
    let length := cursor.next.run isTagWord
    if cursor.peek (length + 1) != '!' then .error .malformed
    else .ok (cursor.take (length + 2), cursor.forward (length + 2))

def percentOctets : Nat → Cursor → List Nat → Except Fault (List Nat × Cursor)
  | 0, cursor, octets => .ok (octets, cursor)
  | steps + 1, cursor, octets =>
    if cursor.head != '%' then .ok (octets, cursor)
    else
      match escapedNumber? cursor.next 2 with
      | some octet => percentOctets steps (cursor.forward 3) (octets ++ [octet])
      | none => .error .malformed

def charsOfOctets? (octets : List Nat) : Option (List Char) :=
  (String.fromUTF8? (octets.map UInt8.ofNat).toByteArray).map String.toList

def tagAddressWithin (version : Version) :
    Nat → Cursor → List Char → Except Fault (List Char × Cursor)
  | 0, cursor, address => .ok (address, cursor)
  | steps + 1, cursor, address =>
    if cursor.head == '%' then
      match percentOctets cursor.bound cursor [] with
      | .error fault => .error fault
      | .ok (octets, cursor) =>
        match charsOfOctets? octets with
        | some chars => tagAddressWithin version steps cursor (address ++ chars)
        | none => .error .malformed
    else if cursor.index < cursor.chars.size && isAddress version cursor.head then
      tagAddressWithin version steps cursor.next (address ++ [cursor.head])
    else .ok (address, cursor)

def tagAddress (version : Version) (cursor : Cursor) : Except Fault (List Char × Cursor) :=
  match tagAddressWithin version cursor.bound cursor [] with
  | .ok ([], _) => .error .malformed
  | result => result

def atSpaceOrEnd (cursor : Cursor) : Bool := cursor.head == ' ' || isBreakOrEnd cursor.head

/-- The cursor behind the rest of a directive's line, which may be a comment. -/
def directiveEnd (cursor : Cursor) : Except Fault Cursor :=
  let cursor := cursor.skipSpaces
  let cursor := if cursor.head == '#' then cursor.skip fun char => !isEnd char else cursor
  if isEnd cursor.head then .ok ((cursor.lineBreak?.map (·.2)).getD cursor) else .error .malformed

def versionDirective (cursor : Cursor) : Except Fault (Version × Cursor) :=
  match decimal? cursor.skipSpaces with
  | none => .error .malformed
  | some (major, cursor) =>
    if cursor.head != '.' then .error .malformed
    else
      match decimal? cursor.next with
      | none => .error .malformed
      | some (minor, cursor) =>
        if atSpaceOrEnd cursor then .ok (⟨major, minor⟩, cursor) else .error .malformed

def tagDirective (version : Version) (cursor : Cursor) :
    Except Fault (List Char × List Char × Cursor) := do
  let (handle, cursor) ← tagHandle cursor.skipSpaces
  if cursor.head != ' ' then throw .malformed
  let (address, cursor) ← tagAddress version cursor.skipSpaces
  if !atSpaceOrEnd cursor then throw .malformed
  pure (handle, address, cursor)

def readDirective : LexM Unit := do
  unwind (-1)
  dropKey
  allowKey false
  let cursor := (← get).cursor.next
  let length := cursor.run fun char => isTagWord char || char == ':' || char == '.'
  let name := cursor.take length
  let behind := cursor.forward length
  if length == 0 || !atSpaceOrEnd behind then refuse
  if name == "YAML".toList then
    let (version, behind) ← versionDirective behind
    modify fun lexer => { lexer with version := version }
    moveTo (← directiveEnd behind)
    addToken (.directive (.version version))
  else if name == "TAG".toList then
    let (handle, address, behind) ← tagDirective (← get).version behind
    moveTo (← directiveEnd behind)
    addToken (.directive (.tag handle address))
  else
    moveTo (← directiveEnd (behind.skip fun char => !isEnd char))
    addToken (.directive .unknown)

def readSeparator (token : Token) : LexM Unit := do
  unwind (-1)
  dropKey
  allowKey false
  moveTo ((← get).cursor.forward 3)
  addToken token

def readMark (token : Token) : LexM Unit := do
  moveTo (← get).cursor.next
  addToken token

/-- Reads the opening mark of a flow collection, which may begin a key. -/
def openFlow (token : Token) : LexM Unit := do
  saveKey
  modify fun lexer => { lexer with flow := lexer.cursor.head :: lexer.flow, allowKey := true }
  readMark token

def closeFlow (token : Token) : LexM Unit := do
  dropKey
  modify fun lexer => { lexer with flow := lexer.flow.tail, allowKey := false }
  readMark token

def readFlowEntry : LexM Unit := do
  allowKey true
  dropKey
  readMark .flowEntry

/-- Begins a block collection here when it is deeper than the current block. -/
def beginBlock (token : Token) : LexM Unit := do
  let lexer ← get
  if !lexer.inFlow then
    if !lexer.allowKey then refuse
    if ← indentTo lexer.cursor.column then addToken token

def readBlockEntry : LexM Unit := do
  beginBlock .blockSequenceStart
  allowKey true
  dropKey
  readMark .blockEntry

def readKey : LexM Unit := do
  beginBlock .blockMappingStart
  allowKey !(← get).inFlow
  dropKey
  readMark .key

def insertToken (number : Nat) (token : Token) : LexM Unit :=
  modify fun lexer =>
    let place := number - lexer.taken
    { lexer with tokens := lexer.tokens.extract 0 place ++ #[token] ++
        lexer.tokens.extract place lexer.tokens.size }

/-- Reads the mark of a value. What may have begun a key at this level was one. -/
def readValue : LexM Unit := do
  let lexer ← get
  match lexer.keys.find? fun key => key.level == lexer.level with
  | some key => do
    set { lexer with keys := lexer.keys.filter fun other => other.level != lexer.level }
    insertToken key.number .key
    if !lexer.inFlow then
      if ← indentTo key.column then insertToken key.number .blockMappingStart
    allowKey false
  | none => do
    beginBlock .blockMappingStart
    allowKey !lexer.inFlow
    dropKey
  readMark .value

def isAnchorChar (char : Char) : Bool :=
  let code := char.toNat
  !",[]\x7b\x7d".toList.contains char &&
    ((0x21 ≤ code && code ≤ 0x7E) || (0xA0 ≤ code && code ≤ 0xFFFD && char != byteOrderMark) ||
      0x10000 ≤ code)

def readAnchor (token : List Char → Token) : LexM Unit := do
  saveKey
  allowKey false
  let cursor := (← get).cursor.next
  let length := cursor.run isAnchorChar
  let behind := cursor.forward length
  let stops := isBreakOrEnd behind.head || " \t?:,[]\x7b\x7d%@\u0060".toList.contains behind.head
  if length == 0 || !stops then refuse
  moveTo behind
  addToken (token (cursor.take length))

/-- The tag at a cursor: its handle, its suffix, and the cursor behind it. -/
def tagAt (version : Version) (cursor : Cursor) :
    Except Fault (Option (List Char) × List Char × Cursor) := do
  if cursor.peek 1 == '<' then
    let (address, behind) ← tagAddress version (cursor.forward 2)
    if behind.head != '>' then throw .malformed
    pure (none, address, behind.next)
  else if isEndOrBlank (cursor.peek 1) then pure (none, ['!'], cursor.next)
  else
    let length := cursor.next.run fun char => !(char == ' ' || isBreak char || char == '!')
    if cursor.peek (length + 1) == '!' then
      let (handle, behind) ← tagHandle cursor
      let (suffix, behind) ← tagAddress version behind
      pure (some handle, suffix, behind)
    else
      let (suffix, behind) ← tagAddress version cursor.next
      pure (some ['!'], suffix, behind)

def readTag : LexM Unit := do
  saveKey
  allowKey false
  let lexer ← get
  let (handle, suffix, behind) ← tagAt lexer.version lexer.cursor
  if !atSpaceOrEnd behind then refuse
  moveTo behind
  addToken (.tag handle suffix)

def readBlockScalar : LexM Unit := do
  allowKey true
  dropKey
  let lexer ← get
  let text ← blockScalar lexer.indent lexer.cursor
  moveTo text.cursor
  addToken (.scalar text.content false)

def readQuotedScalar : LexM Unit := do
  saveKey
  allowKey false
  let text ← quotedScalar (← get).cursor
  moveTo text.cursor
  addToken (.scalar text.content false)

/-- Reads a plain scalar. When it ends with a line, a key may begin behind it. -/
def readPlainScalar : LexM Unit := do
  saveKey
  let lexer ← get
  let text := plainScalar lexer.version lexer.inFlow lexer.indent lexer.cursor
  allowKey text.brokeLine
  moveTo text.cursor
  addToken (.scalar text.content true)

def isValueMark (lexer : Lexer) : Bool :=
  let spaced := isEndOrBlank (lexer.cursor.peek 1)
  if !lexer.inFlow then spaced
  else if lexer.version == Version.old then true
  else if lexer.flow.head? == some '[' then spaced
  else if lexer.tokens.back? == some .value then spaced
  else true

def mayBeginPlain (lexer : Lexer) : Bool :=
  let char := lexer.cursor.head
  let next := lexer.cursor.peek 1
  let special :=
    isBreakOrEnd char || " \t-?:,[]\x7b\x7d#&*!|>'\"%@\u0060".toList.contains char
  !special || (char == '-' && !isEndOrBlank next) ||
    (lexer.version != Version.old && char == ':' && lexer.inFlow && next != ' ' && next != '\t') ||
    (!isEndOrBlank next && !lexer.inFlow && (char == '?' || char == ':'))

def readMore : LexM Unit := do
  let first ← get
  if first.cursor.index == 0 && first.cursor.head == byteOrderMark then moveTo first.cursor.next
  skipToToken (← get).cursor.bound
  dropStaleKeys
  unwind ((← get).cursor.column : Int)
  let lexer ← get
  let cursor := lexer.cursor
  let char := cursor.head
  let next := cursor.peek 1
  if cursor.chars.size ≤ cursor.index then readEnd
  else if char == '%' && cursor.column == 0 then readDirective
  else if cursor.column == 0 && cursor.isTriple '-' then readSeparator .documentStart
  else if cursor.column == 0 && cursor.isTriple '.' then readSeparator .documentEnd
  else if char == '[' then openFlow .flowSequenceStart
  else if char == '{' then openFlow .flowMappingStart
  else if char == ']' then closeFlow .flowSequenceEnd
  else if char == '}' then closeFlow .flowMappingEnd
  else if char == ',' then readFlowEntry
  else if char == '-' && isEndOrBlank next then readBlockEntry
  else if char == '?' && (lexer.inFlow || isEndOrBlank next) then readKey
  else if char == ':' && isValueMark lexer then readValue
  else if char == '*' then readAnchor .alias
  else if char == '&' then readAnchor .anchor
  else if char == '!' then readTag
  else if (char == '|' || char == '>') && !lexer.inFlow then readBlockScalar
  else if char == '\'' || char == '"' then readQuotedScalar
  else if mayBeginPlain lexer then readPlainScalar
  else refuse

/-- Whether more has to be read before the next token is known: it may turn out to follow the token
of a key. -/
def needsMore : LexM Bool := do
  if (← get).finished then pure false
  else if (← get).tokens.isEmpty then pure true
  else
    dropStaleKeys
    let lexer ← get
    let numbers := lexer.keys.map PossibleKey.number
    pure (numbers.contains lexer.taken && numbers.all fun number => lexer.taken ≤ number)

def readNeeded : Nat → LexM Unit
  | 0 => pure ()
  | steps + 1 => do
    if ← needsMore then
      readMore
      readNeeded steps

def peekToken : LexM Token := do
  readNeeded ((← get).cursor.bound + 1)
  pure (((← get).tokens[0]?).getD .streamEnd)

def takeToken : LexM Token := do
  let token ← peekToken
  modify fun lexer =>
    { lexer with tokens := lexer.tokens.extract 1 lexer.tokens.size, taken := lexer.taken + 1 }
  pure token

end ProtocolGen.Yaml
