import ProtocolGen.Text.CodePoint
import ProtocolGen.Text.Printable

/-!
# String literals

The literal that denotes a text in generated code and in messages. It stands in single quotes,
unless the text has a single quote and no double quote. A backslash and the quote in use are
escaped, as are line feed, carriage return and tab by their letters; every other code point that is
not printable is written in hexadecimal with two, four or eight digits, the least that hold it.
-/

set_option autoImplicit false

namespace ProtocolGen.Text

def hexDigit (number : Nat) : Char :=
  if number < 10 then Char.ofNat (number + '0'.toNat) else Char.ofNat (number - 10 + 'a'.toNat)

/-- A number's last hexadecimal digits, as many as asked for. -/
def hexDigits : Nat → Nat → List Char
  | 0, _ => []
  | count + 1, number => hexDigits count (number / 16) ++ [hexDigit (number % 16)]

def hexEscape (code : Nat) : List Char :=
  if code < 0x100 then '\\' :: 'x' :: hexDigits 2 code
  else if code < 0x10000 then '\\' :: 'u' :: hexDigits 4 code
  else '\\' :: 'U' :: hexDigits 8 code

def literalChar (quote char : Char) : List Char :=
  if char == quote || char == '\\' then ['\\', char]
  else if char == '\n' then ['\\', 'n']
  else if char == '\r' then ['\\', 'r']
  else if char == '\t' then ['\\', 't']
  else if isPrintable char.toNat then [char]
  else hexEscape char.toNat

def literalCodePoint (quote : Char) : CodePoint → List Char
  | .scalar char => literalChar quote char
  | .surrogate index => hexEscape (0xD800 + index.val)

def literalQuote (text : Text) : Char :=
  if text.contains (.scalar '\'') && !text.contains (.scalar '"') then '"' else '\''

def literal (text : Text) : List Char :=
  let quote := literalQuote text
  quote :: text.flatMap (literalCodePoint quote) ++ [quote]

def literalOf (string : String) : String := String.ofList (literal (ofString string))

end ProtocolGen.Text
