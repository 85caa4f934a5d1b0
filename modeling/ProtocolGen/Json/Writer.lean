import ProtocolGen.Data

/-!
# Writing JSON

The compact form in ASCII: no blanks, every code point outside printable ASCII escaped, those
beyond the basic plane as a surrogate pair. Kinds that JSON lacks are not written.
-/

set_option autoImplicit false

namespace ProtocolGen.Json

def unitEscape (unit : Nat) : List Char := '\\' :: 'u' :: Text.hexDigits 4 unit

def writtenPoint (point : CodePoint) : List Char :=
  match point with
  | .scalar '"' => ['\\', '"']
  | .scalar '\\' => ['\\', '\\']
  | .scalar '\n' => ['\\', 'n']
  | .scalar '\r' => ['\\', 'r']
  | .scalar '\t' => ['\\', 't']
  | .scalar '\x08' => ['\\', 'b']
  | .scalar '\x0c' => ['\\', 'f']
  | .scalar char =>
    if 0x20 ≤ char.toNat && char.toNat < 0x7F then [char]
    else if char.toNat < 0x10000 then unitEscape char.toNat
    else
      let offset := char.toNat - 0x10000
      unitEscape (0xD800 + offset / 0x400) ++ unitEscape (0xDC00 + offset % 0x400)
  | .surrogate index => unitEscape (0xD800 + index.val)

def writtenText (text : Text) : List Char := '"' :: text.flatMap writtenPoint ++ ['"']

def writtenInteger (number : Int) : List Char :=
  if number < 0 then '-' :: Nat.toDigits 10 number.natAbs else Nat.toDigits 10 number.natAbs

def commas : List (List Char) → List Char
  | [] => []
  | [piece] => piece
  | piece :: pieces => piece ++ ',' :: commas pieces

/-- Why a value is not written: it holds a value of the named kind, which JSON lacks. -/
structure Unwritable where
  kind : String
  deriving DecidableEq, Repr

def Unwritable.message (fault : Unwritable) : String :=
  "Object of type " ++ fault.kind ++ " is not JSON serializable"

mutual

/-- The compact form of a value. The first kind that JSON lacks is the one complained about. -/
def written : Data → Except Unwritable (List Char)
  | .null => .ok "null".toList
  | .boolean value => .ok (if value then "true".toList else "false".toList)
  | .integer value => .ok (writtenInteger value)
  | .float value => .ok (value.text "Infinity" "NaN").toList
  | .text value => .ok (writtenText value)
  | .moment value => .error ⟨value.shortKindName⟩
  | .octets _ => .error ⟨"bytes"⟩
  | .set _ => .error ⟨"set"⟩
  | .list items => (writtenItems items).map fun pieces => '[' :: commas pieces ++ [']']
  | .table entries => (writtenEntries entries).map fun pieces => '{' :: commas pieces ++ ['}']

def writtenItems : List Data → Except Unwritable (List (List Char))
  | [] => .ok []
  | item :: items => do
    let piece ← written item
    let pieces ← writtenItems items
    pure (piece :: pieces)

def writtenEntries : List (Text × Data) → Except Unwritable (List (List Char))
  | [] => .ok []
  | entry :: entries => do
    let piece ← writtenEntry entry
    let pieces ← writtenEntries entries
    pure (piece :: pieces)

def writtenEntry : Text × Data → Except Unwritable (List Char)
  | (key, value) => (written value).map fun piece => writtenText key ++ ':' :: piece

end

end ProtocolGen.Json
