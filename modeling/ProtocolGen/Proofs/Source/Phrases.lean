import ProtocolGen.Proofs.Source.Lines
import ProtocolGen.Proofs.Source.Scanning

/-!
# Phrases in lines of code

What a line of code says is asked of its lexemes: whether a run of names and marks stands in it, and
which dotted names do. A word in a string literal or in a longer name does not count. For a line that
is spelled by pieces the answer is read off the pieces.
-/

set_option autoImplicit false

namespace ProtocolGen.Source

open ProtocolGen.Text

/-! ## Words -/

def Lexeme.word (text : String) : Lexeme := .name text.toList

@[simp] theorem Lexeme.word_inj {text other : String} :
    Lexeme.word text = Lexeme.word other ↔ text = other := by
  rw [Lexeme.word, Lexeme.word, Lexeme.name.injEq, String.toList_inj]

@[simp] theorem Lexeme.word_ne_mark (text : String) (char : Char) :
    Lexeme.word text ≠ .mark char := by
  rintro ⟨⟩

@[simp] theorem Lexeme.mark_ne_word (text : String) (char : Char) :
    Lexeme.mark char ≠ .word text := by
  rintro ⟨⟩

@[simp] theorem Lexeme.word_ne_string (text : String) : Lexeme.word text ≠ .string := by
  rintro ⟨⟩

@[simp] theorem Lexeme.word_ne_lineEnd (text : String) : Lexeme.word text ≠ .lineEnd := by
  rintro ⟨⟩

/-- The names of a line, each with those that follow it behind dots. -/
def dottedNames : List Lexeme → List (List String)
  | .name first :: .mark '.' :: .name next :: rest =>
    match dottedNames (.name next :: rest) with
    | path :: paths => (String.ofList first :: path) :: paths
    | [] => []
  | .name first :: rest => [String.ofList first] :: dottedNames rest
  | _ :: rest => dottedNames rest
  | [] => []

section DottedNames

variable {first next : String} {rest : List Lexeme}

attribute [local simp] dottedNames

@[simp] theorem dottedNames_nil : dottedNames [] = [] := rfl

@[simp] theorem dottedNames_dot : dottedNames (.word first :: .mark '.' :: .word next :: rest) =
    match dottedNames (.word next :: rest) with
    | path :: paths => (first :: path) :: paths
    | [] => [] := by
  simp only [Lexeme.word, dottedNames, String.ofList_toList]

@[simp] theorem dottedNames_word_mark {char : Char} (notDot : char ≠ '.') :
    dottedNames (.word first :: .mark char :: rest) = [first] :: dottedNames rest := by
  simp [Lexeme.word, notDot]

@[simp] theorem dottedNames_word_word : dottedNames (.word first :: .word next :: rest) =
    [first] :: dottedNames (.word next :: rest) := by
  simp [Lexeme.word]

@[simp] theorem dottedNames_word_lineEnd :
    dottedNames [.word first, .lineEnd] = [[first]] := by
  simp [Lexeme.word]

@[simp] theorem dottedNames_mark {char : Char} :
    dottedNames (.mark char :: rest) = dottedNames rest := by
  simp

@[simp] theorem dottedNames_string : dottedNames (.string :: rest) = dottedNames rest := by
  simp

@[simp] theorem dottedNames_lineEnd : dottedNames (.lineEnd :: rest) = dottedNames rest := by
  simp

end DottedNames

namespace Piece

def word (text : String) : Piece := .name text.toList

section Follow

variable {last : Option Piece} {owed : List Char} {rest : List Piece}

attribute [local simp] Follow Spelled owedBehind? Apart

@[simp] theorem apart_none_word (text : String) : Apart none (.word text) := trivial

@[simp] theorem apart_mark_word (char : Char) (text : String) :
    Apart (some (.mark char)) (.word text) := trivial

@[simp] theorem apart_blank_word (text : String) : Apart (some .blank) (.word text) := trivial

@[simp] theorem follow_nil : Follow last owed [] ↔ owed = [] := Iff.rfl

@[simp] theorem follow_word {text : String} : Follow last owed (.word text :: rest) ↔
    isIdentifier text.toList ∧ Apart last (.word text) ∧ Follow (some (.word text)) owed rest := by
  simp [word]

@[simp] theorem follow_mark {char : Char} : Follow last owed (.mark char :: rest) ↔
    ∃ next, owedBehindMark? owed char = some next ∧ Follow (some (.mark char)) next rest := by
  simp

@[simp] theorem follow_blank {piece : Piece} :
    Follow (some piece) owed (.blank :: rest) ↔ Follow (some .blank) owed rest := by
  simp

@[simp] theorem follow_mark_literal {char : Char} {text : Text} :
    Follow (some (.mark char)) owed (.literal text :: rest) ↔
      Follow (some (.literal text)) owed rest := by
  simp

@[simp] theorem follow_blank_literal {text : Text} :
    Follow (some .blank) owed (.literal text :: rest) ↔
      Follow (some (.literal text)) owed rest := by
  simp

end Follow

section Marks

variable {owed : List Char}

theorem owedBehindMark?_plain {char : Char} (plain : char ∈ ['.', ',', ':', '=', '-', '>']) :
    owedBehindMark? owed char = some owed := by
  have passes : ∀ mark ∈ ['.', ',', ':', '=', '-', '>'], Scanner.closingOf? mark = none ∧
      (mark == ')' || mark == ']' || mark == '}') = false ∧ Scanner.isMark mark := by decide
  obtain ⟨opensNone, closesNone, isMark⟩ := passes char plain
  simp only [owedBehindMark?, opensNone, closesNone, isMark, Bool.false_eq_true, if_false, if_true]

theorem owedBehindMark?_open (room : owed.length < 200) :
    owedBehindMark? owed '(' = some (')' :: owed) := if_pos room

@[simp] theorem owedBehindMark?_close : owedBehindMark? (')' :: owed) ')' = some owed := rfl

end Marks

@[simp] theorem lexemes_nil : lexemes [] = [] := rfl

@[simp] theorem lexemes_word (text : String) (rest : List Piece) :
    lexemes (.word text :: rest) = .word text :: lexemes rest := rfl

@[simp] theorem lexemes_mark (char : Char) (rest : List Piece) :
    lexemes (.mark char :: rest) = .mark char :: lexemes rest := rfl

@[simp] theorem lexemes_literal (text : Text) (rest : List Piece) :
    lexemes (.literal text :: rest) = .string :: lexemes rest := rfl

@[simp] theorem lexemes_blank (rest : List Piece) : lexemes (.blank :: rest) = lexemes rest := rfl

-- By an equation and not by `rfl`: a step by `rfl` leaves it to the kernel to compare the characters of
-- two literals.
@[simp] theorem chars_word (text : String) : (word text).chars = text.toList := by
  rw [word, chars]

@[simp] theorem chars_mark (char : Char) : (mark char).chars = [char] := rfl

@[simp] theorem chars_literal (text : Text) : (literal text).chars = Text.literal text := rfl

@[simp] theorem chars_blank : blank.chars = [' '] := rfl

@[simp] theorem spell_nil : spell [] = [] := rfl

@[simp] theorem spell_cons (piece : Piece) (rest : List Piece) :
    spell (piece :: rest) = piece.chars ++ spell rest := by
  rw [spell, List.flatMap_cons, spell]

/-- Whether what a piece is written as does not end with a blank. -/
def endsSolid : Piece → Bool
  | .name chars => chars.getLast?.any fun last => !isBlank last
  | .mark char => !isBlank char
  | .literal _ => true
  | .blank => false

@[simp] theorem endsSolid_word (text : String) :
    (word text).endsSolid = text.toList.getLast?.any fun last => !isBlank last := rfl

@[simp] theorem endsSolid_mark (char : Char) : (mark char).endsSolid = !isBlank char := rfl

@[simp] theorem endsSolid_literal (text : Text) : (literal text).endsSolid := rfl

theorem exists_concat_of_endsSolid {piece : Piece} (solid : piece.endsSolid) :
    ∃ front last, piece.chars = front ++ [last] ∧ ¬ isBlank last := by
  cases piece with
  | name chars =>
    obtain ⟨last, atEnd, notBlank⟩ := (Option.any_eq_true _ _).mp solid
    obtain ⟨front, rfl⟩ := List.getLast?_eq_some_iff.mp atEnd
    exact ⟨front, last, rfl, by simpa using notBlank⟩
  | mark char => exact ⟨[], char, rfl, by simpa [endsSolid] using solid⟩
  | literal text =>
    have notBlank : ∀ quote ∈ ['\'', '"'], ¬ isBlank quote := by decide
    exact ⟨_, _, rfl, notBlank _ (literalQuote_mem text)⟩
  | blank => cases solid

end Piece

/-! ## Lines that are spelled by pieces -/

/-- Some pieces, the last one no blank, spell a line of code. -/
structure Spells (line : String) (pieces : List Piece) : Prop where
  chars : line.toList = Piece.spell pieces
  follow : Piece.Follow none [] pieces
  ends : pieces.getLast?.any Piece.endsSolid
  notEmpty : Piece.lexemes pieces ≠ []

theorem spells_iff {line : String} {pieces : List Piece} :
    Spells line pieces ↔ line.toList = Piece.spell pieces ∧ Piece.Follow none [] pieces ∧
      pieces.getLast?.any Piece.endsSolid ∧ Piece.lexemes pieces ≠ [] :=
  ⟨fun spells => ⟨spells.chars, spells.follow, spells.ends, spells.notEmpty⟩,
    fun ⟨chars, follow, ends, notEmpty⟩ => ⟨chars, follow, ends, notEmpty⟩⟩

@[simp] theorem toList_literalOf (text : String) :
    (literalOf text).toList = literal (ofString text) := by
  rw [literalOf, String.toList_ofList]

/-- A phrase stands in a line that can be read. -/
def Says (line : String) (phrase : List Lexeme) : Prop :=
  ∃ located, lexemes line.toList = .ok located ∧ phrase <:+: located.map Located.lexeme

/-- A dotted name in a line that can be read begins in some way. -/
def Names (line : String) (path : List String) : Prop :=
  ∃ located, lexemes line.toList = .ok located ∧
    ∃ full ∈ dottedNames (located.map Located.lexeme), path <+: full

namespace Spells

variable {line : String} {pieces : List Piece} (spells : Spells line pieces)

include spells

theorem exists_lexemes : ∃ located, lexemes line.toList = .ok located ∧
    located.map Located.lexeme = Piece.lexemes pieces ++ [.lineEnd] := by
  rw [spells.chars]
  exact lexemes_spell spells.follow spells.notEmpty

theorem says_iff {phrase : List Lexeme} :
    Says line phrase ↔ phrase <:+: Piece.lexemes pieces ++ [.lineEnd] := by
  obtain ⟨located, read, found⟩ := spells.exists_lexemes
  simp only [Says, read, Except.ok.injEq, exists_eq_left', found]

theorem names_iff {path : List String} : Names line path ↔
    ∃ full ∈ dottedNames (Piece.lexemes pieces ++ [.lineEnd]), path <+: full := by
  obtain ⟨located, read, found⟩ := spells.exists_lexemes
  simp only [Names, read, Except.ok.injEq, exists_eq_left', found]

theorem isSolid_indented (indent : Nat) : IsSolid (Buffer.indented line indent).toList := by
  obtain ⟨last, atEnd, solid⟩ := (Option.any_eq_true _ _).mp spells.ends
  obtain ⟨before, same⟩ := List.getLast?_eq_some_iff.mp atEnd
  obtain ⟨front, char, chars, notBlank⟩ := Piece.exists_concat_of_endsSolid solid
  have spelled : line.toList = (Piece.spell before ++ front) ++ [char] := by
    rw [spells.chars, same, Piece.spell, List.flatMap_append, List.flatMap_singleton, chars,
      List.append_assoc, Piece.spell]
  have notEmpty : line ≠ "" := by
    rintro rfl
    simp at spelled
  rw [Buffer.toList_indented indent notEmpty]
  refine ⟨?_, indentOf indent ++ (Piece.spell before ++ front), char, ?_, notBlank⟩
  · rw [List.mem_append, not_or, spells.chars]
    refine ⟨?_, not_mem_spell (by decide) spells.follow⟩
    intro member
    obtain ⟨unit, repeated, inUnit⟩ := List.mem_flatten.mp member
    rw [List.eq_of_mem_replicate repeated] at inUnit
    exact absurd inUnit (by decide)
  · simp only [spelled, List.append_assoc]

end Spells

end ProtocolGen.Source
