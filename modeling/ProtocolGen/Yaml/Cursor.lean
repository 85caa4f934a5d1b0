import ProtocolGen.Moment

/-!
# Reading YAML text

A cursor over the characters of a YAML text with its line and column, and the classes of characters
that the notation distinguishes. Past the end the cursor shows a null character, which no readable
text contains.
-/

set_option autoImplicit false

namespace ProtocolGen.Yaml

inductive Fault where
  /-- The notation is broken, or a value is not what its tag says. -/
  | malformed
  /-- A collection contains itself. -/
  | endless
  /-- A scalar has the form of a value that does not exist, in words. -/
  | meaningless (words : String)
  /-- A scalar is empty where its tag needs a first character. -/
  | emptyScalar
  /-- A key holds a value of the named kind, which no key may hold. -/
  | unusableKey (kind : String)
  deriving DecidableEq, Repr

structure Version where
  major : Nat
  minor : Nat
  deriving DecidableEq, Repr

def Version.current : Version := ⟨1, 2⟩

def Version.old : Version := ⟨1, 1⟩

def Version.isAfterOld (version : Version) : Bool :=
  1 < version.major || (version.major == 1 && 1 < version.minor)

structure Cursor where
  chars : Array Char
  index : Nat
  line : Nat
  column : Nat

def isReadable (char : Char) : Bool :=
  let code := char.toNat
  code == 0x09 || code == 0x0A || code == 0x0D || (0x20 ≤ code && code ≤ 0x7E) || code == 0x85 ||
    (0xA0 ≤ code && code ≤ 0xD7FF) || (0xE000 ≤ code && code ≤ 0xFFFD) || 0x10000 ≤ code

def isEnd (char : Char) : Bool :=
  char == '\n' || char == '\x00' || char == '\r' || char == '\u0085'

def isEndOrBlank (char : Char) : Bool := isEnd char || char == ' ' || char == '\t'

/-- Characters that end a line, the two separators of Unicode included. -/
def isBreak (char : Char) : Bool :=
  char == '\n' || char == '\r' || char == '\u0085' || char == '\u2028' || char == '\u2029'

/-- Characters that end a line or the text, the two separators of Unicode included. -/
def isBreakOrEnd (char : Char) : Bool := isBreak char || char == '\x00'

def byteOrderMark : Char := '\uFEFF'

namespace Cursor

def ofChars (chars : List Char) : Cursor := ⟨chars.toArray, 0, 0, 0⟩

def peek (cursor : Cursor) (ahead : Nat) : Char :=
  (cursor.chars[cursor.index + ahead]?).getD '\x00'

def head (cursor : Cursor) : Char := cursor.peek 0

def take (cursor : Cursor) (count : Nat) : List Char :=
  (cursor.chars.extract cursor.index (cursor.index + count)).toList

/-- The cursor behind the next character. Each line break but a carriage return before a line feed
begins a line, and a byte order mark takes no column. -/
def next (cursor : Cursor) : Cursor :=
  let char := cursor.head
  let moved := { cursor with index := cursor.index + 1 }
  if isBreak char && !(char == '\r' && cursor.peek 1 == '\n') then
    { moved with line := cursor.line + 1, column := 0 }
  else if char == byteOrderMark then moved
  else { moved with column := cursor.column + 1 }

def forward (cursor : Cursor) : Nat → Cursor
  | 0 => cursor
  | count + 1 => cursor.next.forward count

/-- A bound on the steps that any walk through the rest of the text takes. -/
def bound (cursor : Cursor) : Nat := cursor.chars.size - cursor.index + 1

/-- How many of the next characters are of a class, up to a bound. -/
def runWithin (cursor : Cursor) (inClass : Char → Bool) : Nat → Nat → Nat
  | 0, length => length
  | steps + 1, length =>
    if cursor.index + length < cursor.chars.size && inClass (cursor.peek length) then
      cursor.runWithin inClass steps (length + 1)
    else length

def run (cursor : Cursor) (inClass : Char → Bool) : Nat := cursor.runWithin inClass cursor.bound 0

def skip (cursor : Cursor) (inClass : Char → Bool) : Cursor := cursor.forward (cursor.run inClass)

def skipSpaces (cursor : Cursor) : Cursor := cursor.skip (· == ' ')

/-- The cursor behind the next spaces, but not past a column. -/
def skipSpacesTo (cursor : Cursor) (column : Nat) : Cursor :=
  cursor.forward (min (cursor.run (· == ' ')) (column - cursor.column))

/-- The line break at the cursor, as a text has it, and the cursor behind it. -/
def lineBreak? (cursor : Cursor) : Option (Char × Cursor) :=
  let char := cursor.head
  if char == '\r' && cursor.peek 1 == '\n' then some ('\n', cursor.forward 2)
  else if char == '\n' || char == '\r' || char == '\u0085' then some ('\n', cursor.next)
  else if char == '\u2028' || char == '\u2029' then some (char, cursor.next)
  else none

/-- Whether three of a character stand at the cursor and nothing on the line is joined to them. -/
def isTriple (cursor : Cursor) (char : Char) : Bool :=
  cursor.head == char && cursor.peek 1 == char && cursor.peek 2 == char &&
    isEndOrBlank (cursor.peek 3)

def isSeparator (cursor : Cursor) : Bool := cursor.isTriple '-' || cursor.isTriple '.'

end Cursor

end ProtocolGen.Yaml
