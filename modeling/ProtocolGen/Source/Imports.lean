import ProtocolGen.Source.Lexeme

/-!
# Import statements

The grammar of import statements over lexemes. `import` takes dotted names, and `from` a dotted name
or dots and then names, which may be renamed, in parentheses or not. No name in a statement is a
keyword. Every other statement is let through.
-/

set_option autoImplicit false

namespace ProtocolGen.Source

def keywordLexeme (word : String) : Lexeme := .name word.toList

def isNaming : Lexeme → Bool
  | .name text => !Text.isKeyword text
  | _ => false

/-- The lexemes after a dotted name, when one stands at the head. -/
def afterDotted? : List Lexeme → Option (List Lexeme)
  | head :: .mark '.' :: rest => if isNaming head then afterDotted? rest else none
  | head :: rest => if isNaming head then some rest else none
  | [] => none

/-- The lexemes after a renaming, when one stands at the head, and all of them otherwise. -/
def afterRenaming? : List Lexeme → Option (List Lexeme)
  | .name ['a', 's'] :: head :: rest => if isNaming head then some rest else none
  | [.name ['a', 's']] => none
  | rest => some rest

/-- Whether lexemes are a list of dotted names, each possibly renamed. The bound is their number. -/
def areModules : Nat → List Lexeme → Bool
  | 0, _ => false
  | bound + 1, lexemes =>
    match (afterDotted? lexemes).bind afterRenaming? with
    | some [] => true
    | some (.mark ',' :: rest) => areModules bound rest
    | _ => false

/-- Whether lexemes are a list of names, each possibly renamed, ending as a list in parentheses may
or may not. The bound is their number. -/
def areNames (parenthesised : Bool) : Nat → List Lexeme → Bool
  | 0, _ => false
  | bound + 1, lexemes =>
    match lexemes with
    | head :: rest =>
      isNaming head &&
        match afterRenaming? rest with
        | some [] => !parenthesised
        | some [.mark ')'] => parenthesised
        | some [.mark ',', .mark ')'] => parenthesised
        | some (.mark ',' :: rest) => areNames parenthesised bound rest
        | _ => false
    | [] => false

/-- Whether lexemes are what may follow the word `import` of a statement that begins with `from`. -/
def areTargets : List Lexeme → Bool
  | [.mark '*'] => true
  | .mark '(' :: rest => areNames true rest.length rest
  | rest => areNames false rest.length rest

/-- Whether lexemes are the rest of a statement that begins with `from`. -/
def isFromRest (lexemes : List Lexeme) : Bool :=
  let afterDots := lexemes.dropWhile (· == .mark '.')
  let dots := afterDots.length < lexemes.length
  let named :=
    match afterDots with
    | .name ['i', 'm', 'p', 'o', 'r', 't'] :: _ => if dots then some afterDots else none
    | _ => afterDotted? afterDots
  match named with
  | some (.name ['i', 'm', 'p', 'o', 'r', 't'] :: targets) => areTargets targets
  | _ => false

def isAcceptable : List Lexeme → Bool
  | .name ['i', 'm', 'p', 'o', 'r', 't'] :: rest => areModules rest.length rest
  | .name ['f', 'r', 'o', 'm'] :: rest => isFromRest rest
  | _ => true

/-- The first import statement that is not acceptable, by its line. The statement being read is
given in reverse, with its line. -/
def badImportFrom (statement : List Lexeme) (line : Nat) : List Located → Option Nat
  | [] => if isAcceptable statement.reverse then none else some line
  | located :: rest =>
    if located.lexeme = .lineEnd || located.lexeme = .mark ';' then
      if isAcceptable statement.reverse then badImportFrom [] 0 rest else some line
    else
      badImportFrom (located.lexeme :: statement)
        (if statement.isEmpty then located.line else line) rest

/-- The line of the first import statement that is not acceptable. -/
def badImport? (lexemes : List Located) : Option Nat := badImportFrom [] 0 lexemes

end ProtocolGen.Source
