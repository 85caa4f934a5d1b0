import ProtocolGen.Yaml.Cursor

/-!
# Scalar texts of YAML

The content of plain, quoted and block scalars. A line break between words counts as a space, and
each further one as itself; the styles differ in their escapes, in where they end, and in what they
keep of breaks and blanks.
-/

set_option autoImplicit false

namespace ProtocolGen.Yaml

structure ScalarText where
  content : List Char
  cursor : Cursor

/-- Content so far with a piece added. Content is collected in reverse. -/
def addPiece (reversed piece : List Char) : List Char := piece.reverse ++ reversed

/-- What folding makes of a line break and the breaks after it. -/
def foldedBreaks (first : Char) (breaks : List Char) : List Char :=
  (if first != '\n' then [first] else if breaks.isEmpty then [' '] else []) ++ breaks

def hexValue? (char : Char) : Option Nat :=
  if char.isDigit then some (char.toNat - '0'.toNat)
  else if 'a' ≤ char && char ≤ 'f' then some (char.toNat - 'a'.toNat + 10)
  else if 'A' ≤ char && char ≤ 'F' then some (char.toNat - 'A'.toNat + 10)
  else none

def hexNumber? (digits : List Char) : Option Nat :=
  digits.foldlM (fun number char => (hexValue? char).map fun digit => number * 16 + digit) 0

/-- The character behind a backslash that stands for another. -/
def escaped? : Char → Option Char
  | '0' => some '\x00'
  | 'a' => some '\x07'
  | 'b' => some '\x08'
  | 't' | '\t' => some '\t'
  | 'n' => some '\n'
  | 'v' => some '\x0b'
  | 'f' => some '\x0c'
  | 'r' => some '\r'
  | 'e' => some '\x1b'
  | ' ' => some ' '
  | '"' => some '"'
  | '/' => some '/'
  | '\\' => some '\\'
  | 'N' => some '\u0085'
  | '_' => some '\u00a0'
  | 'L' => some '\u2028'
  | 'P' => some '\u2029'
  | _ => none

/-- How many digits follow a letter that writes a character by its number. -/
def escapeLength? : Char → Option Nat
  | 'x' => some 2
  | 'u' => some 4
  | 'U' => some 8
  | _ => none

/-- The breaks of empty lines inside a quoted scalar. A mark between documents must not stand
there. -/
def quotedBreaksWithin : Nat → Cursor → List Char → Except Fault (List Char × Cursor)
  | 0, _, _ => .error .malformed
  | steps + 1, cursor, breaks =>
    if cursor.isSeparator then .error .malformed
    else
      let cursor := cursor.skip fun char => char == ' ' || char == '\t'
      match cursor.lineBreak? with
      | some (char, cursor) => quotedBreaksWithin steps cursor (breaks ++ [char])
      | none => .ok (breaks, cursor)

def quotedBreaks (cursor : Cursor) : Except Fault (List Char × Cursor) :=
  quotedBreaksWithin cursor.bound cursor []

/-- The number that an escape with so many digits writes at a cursor. -/
def escapedNumber? (cursor : Cursor) (length : Nat) : Option Nat :=
  let digits := cursor.take length
  if digits.length == length then hexNumber? digits else none

/-- The character of a surrogate and of the escaped one behind it. -/
def escapedPair? (high : Nat) (cursor : Cursor) : Option Char :=
  if 0xD800 ≤ high && high < 0xDC00 && cursor.head == '\\' && cursor.peek 1 == 'u' then
    match escapedNumber? (cursor.forward 2) 4 with
    | some low =>
      if 0xDC00 ≤ low && low < 0xE000 then
        some (Char.ofNat (0x10000 + (high - 0xD800) * 0x400 + (low - 0xDC00)))
      else none
    | none => none
  else none

/-- The escape at a backslash: its content and the cursor behind it. A surrogate without its partner
is refused. -/
def quotedEscape (cursor : Cursor) : Except Fault (List Char × Cursor) :=
  let letter := cursor.peek 1
  match escaped? letter with
  | some char => .ok ([char], cursor.forward 2)
  | none =>
    match escapeLength? letter with
    | some length =>
      let behind := cursor.forward 2
      match escapedNumber? behind length with
      | none => .error .malformed
      | some number =>
        let behind := behind.forward length
        if number.isValidChar then .ok ([Char.ofNat number], behind)
        else if number < 0x110000 then
          match escapedPair? number behind with
          | some char => .ok ([char], behind.forward 6)
          | none => .error .malformed
        else .error (.meaningless "chr() arg not in range(0x110000)")
    | none =>
      match (cursor.forward 1).lineBreak? with
      | some (_, behind) => quotedBreaks behind
      | none => .error .malformed

def quotedWithin (quote : Char) : Nat → Cursor → List Char → Except Fault ScalarText
  | 0, _, _ => .error .malformed
  | steps + 1, cursor, content =>
    let char := cursor.head
    if char == quote then
      if quote == '\'' && cursor.peek 1 == '\'' then
        quotedWithin quote steps (cursor.forward 2) ('\'' :: content)
      else .ok ⟨content.reverse, cursor.next⟩
    else if cursor.chars.size ≤ cursor.index then .error .malformed
    else if char == '\\' && quote == '"' then
      match quotedEscape cursor with
      | .error fault => .error fault
      | .ok (piece, cursor) => quotedWithin quote steps cursor (addPiece content piece)
    else if char == ' ' || char == '\t' || isBreak char then
      let length := cursor.run fun char => char == ' ' || char == '\t'
      let blanks := cursor.take length
      let cursor := cursor.forward length
      match cursor.lineBreak? with
      | some (first, cursor) =>
        match quotedBreaks cursor with
        | .error fault => .error fault
        | .ok (breaks, cursor) =>
          quotedWithin quote steps cursor (addPiece content (foldedBreaks first breaks))
      | none =>
        if cursor.chars.size ≤ cursor.index then .error .malformed
        else quotedWithin quote steps cursor (addPiece content blanks)
    else quotedWithin quote steps cursor.next (char :: content)

def quotedScalar (cursor : Cursor) : Except Fault ScalarText :=
  quotedWithin cursor.head (2 * cursor.bound) cursor.next []

inductive Chomping where
  | strip
  | clip
  | keep
  deriving DecidableEq, Repr

def chomping? : Char → Option Chomping
  | '+' => some .keep
  | '-' => some .strip
  | _ => none

/-- The digit for a block scalar's indentation. Zero is refused. -/
def increment? (char : Char) : Except Fault (Option Nat) :=
  if char == '0' then .error .malformed
  else if char.isDigit then .ok (some (char.toNat - '0'.toNat))
  else .ok none

/-- The header of a block scalar behind its first mark: the two indicators in either order, and the
cursor behind the rest of the line, which may be a comment. -/
def blockHeader (cursor : Cursor) : Except Fault (Chomping × Option Nat × Cursor) := do
  let (chomping, increment, cursor) ←
    match chomping? cursor.head with
    | some chomping => do
      let increment ← increment? (cursor.peek 1)
      pure (chomping, increment, cursor.forward (if increment.isSome then 2 else 1))
    | none => do
      let increment ← increment? cursor.head
      let cursor := cursor.forward (if increment.isSome then 1 else 0)
      match (if increment.isSome then chomping? cursor.head else none) with
      | some chomping => pure (chomping, increment, cursor.next)
      | none => pure (Chomping.clip, increment, cursor)
  if !(isBreakOrEnd cursor.head || cursor.head == ' ') then throw .malformed
  let cursor := cursor.skipSpaces
  let cursor := if cursor.head == '#' then cursor.skip fun char => !isEnd char else cursor
  if !isEnd cursor.head then throw .malformed
  pure (chomping, increment, (cursor.lineBreak?.map (·.2)).getD cursor)

/-- The breaks and spaces before a block scalar's first line: the breaks, and the deepest column
that was reached. -/
def blockIndentationWithin : Nat → Cursor → List Char → Nat → List Char × Nat × Cursor
  | 0, cursor, breaks, deepest => (breaks, deepest, cursor)
  | steps + 1, cursor, breaks, deepest =>
    match cursor.lineBreak? with
    | some (char, cursor) => blockIndentationWithin steps cursor (breaks ++ [char]) deepest
    | none =>
      if cursor.head == ' ' then
        blockIndentationWithin steps cursor.next breaks (max deepest cursor.next.column)
      else (breaks, deepest, cursor)

/-- The breaks of empty lines of a block scalar, with the next line's indentation skipped. -/
def blockBreaksWithin (indent : Nat) : Nat → Cursor → List Char → List Char × Cursor
  | 0, cursor, breaks => (breaks, cursor)
  | steps + 1, cursor, breaks =>
    let cursor := cursor.skipSpacesTo indent
    match cursor.lineBreak? with
    | some (char, cursor) => blockBreaksWithin indent steps cursor (breaks ++ [char])
    | none => (breaks, cursor)

def blockBreaks (indent : Nat) (cursor : Cursor) : List Char × Cursor :=
  blockBreaksWithin indent cursor.bound cursor []

/-- Whether a line stands at the cursor that belongs to a block scalar. -/
def isBlockLine (indent : Nat) (cursor : Cursor) : Bool :=
  cursor.column == indent && cursor.index < cursor.chars.size

/-- The lines of a block scalar: the reversed content, the last line's break, the breaks after it,
and the cursor behind all. At the margin a mark between documents ends the scalar. -/
def blockLinesWithin (folded atMargin : Bool) (indent : Nat) :
    Nat → Cursor → List Char → List Char → List Char → List Char × List Char × List Char × Cursor
  | 0, cursor, content, lineBreak, breaks => (content, lineBreak, breaks, cursor)
  | steps + 1, cursor, content, lineBreak, breaks =>
    if !isBlockLine indent cursor then (content, lineBreak, breaks, cursor)
    else
      let content := addPiece content breaks
      let leadingBlank := cursor.head == ' ' || cursor.head == '\t'
      let length := cursor.run fun char => !isEnd char
      let content := addPiece content (cursor.take length)
      let behind := cursor.forward length
      let (lineBreak, behind) :=
        match behind.lineBreak? with
        | some (char, behind) => ([char], behind)
        | none => ([], behind)
      let (breaks, behind) := blockBreaks indent behind
      if atMargin && behind.column == 0 && behind.isSeparator then
        (content, lineBreak, breaks, behind)
      else if isBlockLine indent behind then
        let nextBlank := behind.head == ' ' || behind.head == '\t'
        let piece :=
          if folded && lineBreak == ['\n'] && !leadingBlank && !nextBlank then
            if breaks.isEmpty then [' '] else []
          else lineBreak
        blockLinesWithin folded atMargin indent steps behind (addPiece content piece) lineBreak breaks
      else (content, lineBreak, breaks, behind)

/-- The block scalar at a cursor inside a block of some indentation, which is one less than none
outside of all blocks. -/
def blockScalar (parentIndent : Int) (cursor : Cursor) : Except Fault ScalarText := do
  let folded := cursor.head == '>'
  let (chomping, increment, cursor) ← blockHeader cursor.next
  let least := (parentIndent + 1).toNat
  let (breaks, indent, cursor) :=
    match increment with
    | none =>
      let (breaks, deepest, cursor) := blockIndentationWithin cursor.bound cursor [] 0
      (breaks, max least deepest, cursor)
    | some increment =>
      let indent := max least 1 + increment - 1
      let (breaks, cursor) := blockBreaks indent cursor
      (breaks, indent, cursor)
  let atMargin := increment.isNone && least == 0
  let (content, lineBreak, breaks, cursor) :=
    blockLinesWithin folded atMargin indent cursor.bound cursor [] [] breaks
  let content := if chomping == .strip then content else addPiece content lineBreak
  let content := if chomping == .keep then addPiece content breaks else content
  pure ⟨content.reverse, cursor⟩

def isFlowEnd (char : Char) : Bool :=
  char == ',' || char == ':' || char == '?' || char == '[' || char == ']' || char == '{' ||
    char == '}'

def endsPlain (version : Version) (inFlow : Bool) (char next : Char) : Bool :=
  if char == ':' && !isEndOrBlank next then false
  else if char == '?' && version != Version.old then false
  else isEndOrBlank char || (!inFlow && char == ':' && isEndOrBlank next) || (inFlow && isFlowEnd char)

/-- The number of characters up to where a plain scalar is interrupted. -/
def plainLengthWithin (version : Version) (inFlow : Bool) (cursor : Cursor) : Nat → Nat → Nat
  | 0, length => length
  | steps + 1, length =>
    if endsPlain version inFlow (cursor.peek length) (cursor.peek (length + 1)) then length
    else plainLengthWithin version inFlow cursor steps (length + 1)

/-- The breaks of empty lines inside a plain scalar, and whether a mark between documents stands
behind one. -/
def plainBreaksWithin : Nat → Cursor → List Char → List Char × Bool × Cursor
  | 0, cursor, breaks => (breaks, false, cursor)
  | steps + 1, cursor, breaks =>
    if cursor.head == ' ' then plainBreaksWithin steps cursor.next breaks
    else
      match cursor.lineBreak? with
      | some (char, cursor) =>
        if cursor.isSeparator then (breaks, true, cursor)
        else plainBreaksWithin steps cursor (breaks ++ [char])
      | none => (breaks, false, cursor)

/-- What stands between two parts of a plain scalar, whether a line break was in it, and the cursor
behind it. Nothing stands there when a mark between documents follows. -/
def plainSpaces (cursor : Cursor) : List Char × Bool × Cursor :=
  let length := cursor.run (· == ' ')
  let spaces := cursor.take length
  let cursor := cursor.forward length
  match cursor.lineBreak? with
  | none => (spaces, false, cursor)
  | some (first, cursor) =>
    if cursor.isSeparator then ([], true, cursor)
    else
      let (breaks, separated, cursor) := plainBreaksWithin cursor.bound cursor []
      if separated then ([], true, cursor) else (foldedBreaks first breaks, true, cursor)

/-- A plain scalar's content, whether a line break comes behind it, and the cursor behind it. -/
structure PlainText where
  content : List Char
  brokeLine : Bool
  cursor : Cursor

/-- The rest of a plain scalar: the reversed content, what stands between it and the next part, and
whether that broke the line. -/
def plainWithin (version : Version) (inFlow : Bool) (indent : Int) :
    Nat → Cursor → List Char → List Char → Bool → PlainText
  | 0, cursor, content, _, brokeLine => ⟨content.reverse, brokeLine, cursor⟩
  | steps + 1, cursor, content, spaces, brokeLine =>
    if cursor.head == '#' then ⟨content.reverse, brokeLine, cursor⟩
    else
      let length := plainLengthWithin version inFlow cursor cursor.bound 0
      if length == 0 then ⟨content.reverse, brokeLine, cursor⟩
      else
        let content := addPiece (addPiece content spaces) (cursor.take length)
        let (spaces, brokeLine, cursor) := plainSpaces (cursor.forward length)
        if spaces.isEmpty || cursor.head == '#' || (!inFlow && (cursor.column : Int) < indent) then
          ⟨content.reverse, brokeLine, cursor⟩
        else plainWithin version inFlow indent steps cursor content spaces brokeLine

/-- The plain scalar at a cursor inside a block of some indentation. -/
def plainScalar (version : Version) (inFlow : Bool) (parentIndent : Int) (cursor : Cursor) :
    PlainText :=
  plainWithin version inFlow (parentIndent + 1) cursor.bound cursor [] [] false

end ProtocolGen.Yaml
