import ProtocolGen.Text.Wrap

/-!
# Docstrings and comments

Documentation texts as lines of code. Lines are filled to 72 columns, but never to fewer than forty
behind a deep indent. A docstring of one short paragraph takes one line; any other begins with the
opening quotes, separates paragraphs by empty lines, and has the closing quotes on a line of their
own. Backslashes are doubled and each three quotes in a row are escaped, as is a last quote, which
would otherwise touch the closing ones.
-/

set_option autoImplicit false

namespace ProtocolGen.Source

def indentUnit : List Char := [' ', ' ', ' ', ' ']

def indentOf (indent : Nat) : List Char := (List.replicate indent indentUnit).flatten

def fillColumns : Nat := 72

def fillWidth (used : Nat) : Nat := max (fillColumns - used) 40

def escapeDoc (text : List Char) : List Char :=
  let backslashes := Text.replaceAll ['\\'] ['\\', '\\'] text
  let quotes := Text.replaceAll ['"', '"', '"'] ['\\', '"', '\\', '"', '\\', '"'] backslashes
  if quotes.getLast? = some '"' then quotes.dropLast ++ ['\\', '"'] else quotes

def docQuotes : List Char := ['"', '"', '"']

/-- The lines of paragraphs, with an empty line between each two. -/
def paragraphLines (width : Nat) : List (List Char) → List (List Char)
  | [] => []
  | [paragraph] => Text.wrap width (escapeDoc paragraph)
  | paragraph :: paragraphs =>
    Text.wrap width (escapeDoc paragraph) ++ [] :: paragraphLines width paragraphs

/-- The lines of a docstring at an indent, none when the texts are blank. -/
def docstringLines (texts : List (List Char)) (indent : Nat) : List (List Char) :=
  let width := fillWidth (indentOf indent).length
  match Text.paragraphs texts with
  | [] => []
  | paragraphs =>
    let alone := paragraphs.length == 1 && (paragraphs.headD []).length + 6 ≤ width
    if alone then [docQuotes ++ escapeDoc (paragraphs.headD []) ++ docQuotes]
    else
      match paragraphLines (width - 3) paragraphs with
      | [] => [docQuotes]
      | first :: rest => (docQuotes ++ first) :: rest ++ [docQuotes]

/-- The lines of a comment at an indent, each begun by a mark and a space. -/
def commentLines (texts : List (List Char)) (indent : Nat) (mark : List Char) : List (List Char) :=
  let width := fillWidth ((indentOf indent).length + mark.length + 1)
  (Text.paragraphs texts).flatMap fun paragraph =>
    (Text.wrap width paragraph).map fun line => mark ++ ' ' :: line

end ProtocolGen.Source
