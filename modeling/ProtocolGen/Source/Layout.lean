import ProtocolGen.Text.Blank

/-!
# White space of source texts

The normal form of a module's white space: no spaces or tabs at the ends of lines, at most two empty
lines in a row, and exactly one line feed at the end. Only the line feed ends a line here.
-/

set_option autoImplicit false

namespace ProtocolGen.Source

def isMargin (char : Char) : Bool := char == ' ' || char == '\t'

/-- The lines of a text, the last one being what follows the last line feed. -/
def linesOf (text : List Char) : List (List Char) := Text.splitOn ['\n'] text

/-- A text without the spaces and tabs at the ends of its lines. -/
def trimLines (text : List Char) : List Char :=
  Text.joinWith ['\n'] ((linesOf text).map fun line => Text.dropEndWhile isMargin line)

/-- A text in which a run of line feeds has at most three, given how many came right before. -/
def limitFeedsFrom : Nat → List Char → List Char
  | _, [] => []
  | count, '\n' :: rest =>
    if count < 3 then '\n' :: limitFeedsFrom (count + 1) rest else limitFeedsFrom count rest
  | _, char :: rest => char :: limitFeedsFrom 0 rest

/-- A text in which every run of four or more line feeds is cut to three. -/
def limitFeeds (text : List Char) : List Char := limitFeedsFrom 0 text

def normalise (text : List Char) : List Char :=
  Text.dropEndWhile (· == '\n') (limitFeeds (trimLines text)) ++ ['\n']

end ProtocolGen.Source
