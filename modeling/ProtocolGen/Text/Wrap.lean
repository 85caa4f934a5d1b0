import ProtocolGen.Text.Blank

/-!
# Greedy line filling

Words are set on lines of bounded width. A word goes on the current line when it fits after one
space, and starts a new line otherwise; a word wider than a line stands alone on its line.
-/

set_option autoImplicit false

namespace ProtocolGen.Text

def fillFrom (width : Nat) (line : List Char) : List (List Char) → List (List Char)
  | [] => [line]
  | word :: words =>
    if line.length + 1 + word.length ≤ width then
      fillFrom width (line ++ ' ' :: word) words
    else
      line :: fillFrom width word words

def fill (width : Nat) : List (List Char) → List (List Char)
  | [] => []
  | word :: words => fillFrom width word words

def wrap (width : Nat) (chars : List Char) : List (List Char) := fill width (words chars)

/-- The paragraphs of some texts: an empty line ends a paragraph, and inside one every run of blanks
counts as a space. Paragraphs of blanks alone vanish. -/
def paragraphs (texts : List (List Char)) : List (List Char) :=
  texts.flatMap fun text =>
    (splitOn ['\n', '\n'] (replaceAll ['\r', '\n'] ['\n'] text)).filterMap fun chunk =>
      let line := joinWith [' '] (words chunk)
      if line.isEmpty then none else some line

end ProtocolGen.Text
