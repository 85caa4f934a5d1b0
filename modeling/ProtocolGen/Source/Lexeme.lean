import ProtocolGen.Text.Blank
import ProtocolGen.Text.Identifier

/-!
# Lexemes of source texts

A scanner for the code that is generated: names, numbers, string literals and marks, with the ends of
logical lines. Inside brackets and after a backslash a line feed ends no line. A text is refused when
a string literal or a bracket is left open, a bracket does not match, a character belongs to no
lexeme, or the first line is indented.
-/

set_option autoImplicit false

namespace ProtocolGen.Source

inductive Lexeme where
  | name (text : List Char)
  | number
  | string
  | mark (char : Char)
  | lineEnd
  deriving DecidableEq, Repr

structure Located where
  lexeme : Lexeme
  line : Nat
  deriving DecidableEq, Repr

inductive Refusal where
  | unterminatedString
  | bracketNeverClosed
  | unmatchedBracket
  | tooManyBrackets
  | unexpectedIndent
  | invalidCharacter
  | invalidSyntax
  deriving DecidableEq, Repr

def Refusal.message : Refusal → String
  | .unterminatedString => "unterminated string literal"
  | .bracketNeverClosed => "bracket was never closed"
  | .unmatchedBracket => "unmatched bracket"
  | .tooManyBrackets => "too many nested parentheses"
  | .unexpectedIndent => "unexpected indent"
  | .invalidCharacter => "invalid character"
  | .invalidSyntax => "invalid syntax"

inductive Mode where
  /-- Between lexemes. -/
  | between
  /-- At the blanks that a logical line begins with. -/
  | margin (indented : Bool)
  | name (reversed : List Char)
  | number
  | comment
  /-- Behind a backslash that joins two lines. -/
  | joining
  /-- Behind one or two quotes that may open a long literal. -/
  | opening (quote : Char) (count : Nat)
  /-- In a literal of one line, or behind a backslash in it. -/
  | short (quote : Char) (escaped : Bool)
  /-- In a literal of any lines, behind some closing quotes or behind a backslash. -/
  | long (quote : Char) (closing : Nat) (escaped : Bool)
  deriving DecidableEq, Repr

structure Scanner where
  mode : Mode
  line : Nat
  /-- Closing brackets that are owed, the innermost first. -/
  owed : List Char
  /-- Whether a lexeme was seen on the current logical line. -/
  lineBegun : Bool
  /-- Whether a lexeme was seen at all. -/
  textBegun : Bool
  /-- Lexemes in reverse. -/
  found : List Located
  deriving Repr

namespace Scanner

def start : Scanner := ⟨.margin false, 1, [], false, false, []⟩

/-- A scanner with one more lexeme, which began on the current line. -/
def emit (scanner : Scanner) (lexeme : Lexeme) (mode : Mode) : Scanner :=
  { scanner with
    mode := mode, lineBegun := true, textBegun := true,
    found := ⟨lexeme, scanner.line⟩ :: scanner.found }

/-- A scanner behind a line feed that may end a logical line. -/
def endLine (scanner : Scanner) : Scanner :=
  let next := { scanner with line := scanner.line + 1 }
  if !scanner.owed.isEmpty then { next with mode := .between }
  else if scanner.lineBegun then
    { next with
      mode := .margin false, lineBegun := false,
      found := ⟨.lineEnd, scanner.line⟩ :: scanner.found }
  else { next with mode := .margin false }

def closingOf? : Char → Option Char
  | '(' => some ')'
  | '[' => some ']'
  | '{' => some '}'
  | _ => none

def isMark (char : Char) : Bool := "+-*/%@&|^~<>=!.,:;".toList.contains char

def maximumDepth : Nat := 200

def between (scanner : Scanner) (char : Char) : Except Refusal Scanner :=
  if char == '\n' then .ok scanner.endLine
  else if char == ' ' || char == '\t' || char == '\x0c' then .ok { scanner with mode := .between }
  else if char == '#' then .ok { scanner with mode := .comment }
  else if char == '\\' then .ok { scanner with mode := .joining }
  else if char == '"' || char == '\'' then .ok { scanner with mode := .opening char 1 }
  else if Text.isIdentifierStart char then .ok { scanner with mode := .name [char] }
  else if char.isDigit then .ok { scanner with mode := .number }
  else
    match closingOf? char with
    | some closing =>
      if maximumDepth ≤ scanner.owed.length then .error .tooManyBrackets
      else .ok { scanner.emit (.mark char) .between with owed := closing :: scanner.owed }
    | none =>
      if char == ')' || char == ']' || char == '}' then
        match scanner.owed with
        | closing :: owed =>
          if closing == char then .ok { scanner.emit (.mark char) .between with owed := owed }
          else .error .unmatchedBracket
        | [] => .error .unmatchedBracket
      else if isMark char then .ok (scanner.emit (.mark char) .between)
      else .error .invalidCharacter

/-- One character at the margin of a logical line. The first lexeme must not be indented. -/
def margin (scanner : Scanner) (indented : Bool) (char : Char) : Except Refusal Scanner :=
  if char == ' ' || char == '\t' then .ok { scanner with mode := .margin true }
  else if char == '\x0c' then .ok { scanner with mode := .margin false }
  else if char == '\n' || char == '#' then scanner.between char
  else if indented && !scanner.textBegun then .error .unexpectedIndent
  else scanner.between char

def short (scanner : Scanner) (quote : Char) (escaped : Bool) (char : Char) :
    Except Refusal Scanner :=
  if escaped then
    let line := if char == '\n' then scanner.line + 1 else scanner.line
    .ok { scanner with mode := .short quote false, line := line }
  else if char == '\n' then .error .unterminatedString
  else if char == '\\' then .ok { scanner with mode := .short quote true }
  else if char == quote then .ok (scanner.emit .string .between)
  else .ok { scanner with mode := .short quote false }

def long (scanner : Scanner) (quote : Char) (closing : Nat) (escaped : Bool) (char : Char) :
    Except Refusal Scanner :=
  let scanner := if char == '\n' then { scanner with line := scanner.line + 1 } else scanner
  if escaped then .ok { scanner with mode := .long quote 0 false }
  else if char == '\\' then .ok { scanner with mode := .long quote 0 true }
  else if char == quote then
    if closing == 2 then .ok (scanner.emit .string .between)
    else .ok { scanner with mode := .long quote (closing + 1) false }
  else .ok { scanner with mode := .long quote 0 false }

def step (scanner : Scanner) (char : Char) : Except Refusal Scanner :=
  match scanner.mode with
  | .between => scanner.between char
  | .margin indented => scanner.margin indented char
  | .name reversed =>
    if Text.isIdentifierContinue char then .ok { scanner with mode := .name (char :: reversed) }
    else (scanner.emit (.name reversed.reverse) .between).between char
  | .number =>
    if Text.isIdentifierContinue char || char == '.' then .ok scanner
    else (scanner.emit .number .between).between char
  | .comment =>
    if char == '\n' then .ok scanner.endLine else .ok scanner
  | .joining =>
    if char == '\n' then .ok { scanner with mode := .between, line := scanner.line + 1 }
    else .error .invalidSyntax
  | .opening quote count =>
    if char == quote then
      if count == 1 then .ok { scanner with mode := .opening quote 2 }
      else .ok { scanner with mode := .long quote 0 false }
    else if count == 1 then scanner.short quote false char
    else (scanner.emit .string .between).between char
  | .short quote escaped => scanner.short quote escaped char
  | .long quote closing escaped => scanner.long quote closing escaped char

def finish (scanner : Scanner) : Except Refusal (List Located) :=
  match scanner.mode with
  | .short _ _ | .long _ _ _ | .opening _ 1 => .error .unterminatedString
  | _ => if scanner.owed.isEmpty then .ok scanner.found.reverse else .error .bracketNeverClosed

end Scanner

def lexemes (text : List Char) : Except (Nat × Refusal) (List Located) :=
  let chars := Text.unifyLineEnds text ++ ['\n']
  match chars.foldlM
      (fun scanner char => (scanner.step char).mapError fun refusal => (scanner.line, refusal))
      Scanner.start with
  | .error fault => .error fault
  | .ok scanner => scanner.finish.mapError fun refusal => (scanner.line, refusal)

end ProtocolGen.Source
