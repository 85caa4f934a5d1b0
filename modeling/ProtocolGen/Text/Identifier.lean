import ProtocolGen.Text.IdentifierTable
import ProtocolGen.Text.Printable

/-!
# Identifiers

Which texts are identifiers of the generated code: a start character or low line, then start
characters, marks, digits and connectors, as Unicode's XID properties say.
-/

set_option autoImplicit false

namespace ProtocolGen.Text

/-- ASCII letters, digits and the low line, decided without a table. -/
def isAsciiIdentifierChar (char : Char) : Bool := char.isAlphanum || char == '_'

def isIdentifierStart (char : Char) : Bool :=
  if char.toNat < 0x80 then char.isAlpha || char == '_'
  else inRanges identifierStartRanges char.toNat

def isIdentifierContinue (char : Char) : Bool :=
  if char.toNat < 0x80 then isAsciiIdentifierChar char
  else inRanges identifierStartRanges char.toNat || inRanges identifierOnlyContinueRanges char.toNat

/-- Whether a text is an identifier. Keywords are identifiers in this sense. -/
def isIdentifier : List Char → Bool
  | [] => false
  | first :: rest => isIdentifierStart first && rest.all isIdentifierContinue

def keywords : List String := [
  "False", "None", "True", "and", "as", "assert", "async", "await", "break", "class", "continue",
  "def", "del", "elif", "else", "except", "finally", "for", "from", "global", "if", "import", "in",
  "is", "lambda", "nonlocal", "not", "or", "pass", "raise", "return", "try", "while", "with",
  "yield"]

def isKeyword (chars : List Char) : Bool := keywords.any fun keyword => keyword.toList == chars

end ProtocolGen.Text
