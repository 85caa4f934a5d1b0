import Mathlib.Algebra.Group.Nat.Defs
import ProtocolGen.Proofs.Source.Scanning

/-!
# What string literals say

Code is read as its characters and the texts that its string literals denote. A literal is in one or two
quotes of a kind, without a prefix, and a backslash in it begins an escape: a letter for a character, the
number of a code point in hexadecimal or octal digits, or a line that goes on. The literal that is written
for a text denotes it, whatever code points the text has, and stands on one line.
-/

set_option autoImplicit false

namespace ProtocolGen.Source

open ProtocolGen.Text

/-- A character of some code outside of string literals, or the text that a literal denotes. -/
inductive CodePart where
  | char (char : Char)
  | text (value : Text)
  deriving DecidableEq, Repr

def CodePart.text? : CodePart → Option Text
  | .char _ => none
  | .text value => some value

/-- Where a reader of code stands, with what it has read of a literal that it is in. -/
inductive Spot where
  /-- Outside of literals, where a quote does not begin one if it stands right behind a word. -/
  | code (glued : Bool)
  | comment
  | opened (quote : Char)
  /-- Behind two quotes, which are an empty literal unless a third one follows. -/
  | doubled (quote : Char)
  | inside (quote : Char) (value : Text)
  | escaped (quote : Char) (value : Text)
  /-- In the digits of a code point, of which some may follow. -/
  | digits (quote : Char) (value : Text) (base left number : Nat)

/-- The value of a digit, whose letter may be small or capital. -/
def digitValue? (base : Nat) (char : Char) : Option Nat :=
  ("0123456789abcdef".toList.findIdx? (· == lowerAscii char)).filter (· < base)

/-- The character that is named by one behind a backslash. -/
def namedEscape? : Char → Option Char
  | '\\' => some '\\'
  | '\'' => some '\''
  | '"' => some '"'
  | 'a' => some '\x07'
  | 'b' => some '\x08'
  | 'f' => some '\x0c'
  | 'n' => some '\n'
  | 'r' => some '\r'
  | 't' => some '\t'
  | 'v' => some '\x0b'
  | _ => none

/-- How many hexadecimal digits follow a letter behind a backslash. -/
def escapeLength? : Char → Option Nat
  | 'x' => some 2
  | 'u' => some 4
  | 'U' => some 8
  | _ => none

namespace Spot

/-- Reads a character of code. -/
def inCode (glued : Bool) (char : Char) : Option (List CodePart × Spot) :=
  if char = '\'' ∨ char = '"' then if glued then none else some ([], .opened char)
  else if char = '#' then some ([], .comment)
  else some ([.char char], .code (isIdentifierContinue char))

/-- Reads a character of a literal. -/
def inText (quote : Char) (value : Text) (char : Char) : Option (List CodePart × Spot) :=
  if char = quote then some ([.text value], .code true)
  else if char = '\\' then some ([], .escaped quote value)
  else if char = '\n' ∨ char = '\r' then none
  else some ([], .inside quote (value ++ [.scalar char]))

/-- Reads the character behind a backslash, which means itself and the backslash where nothing else is
meant. Characters are not looked up by long names. -/
def behindBackslash (quote : Char) (value : Text) (char : Char) : Option (List CodePart × Spot) :=
  if char = '\n' then some ([], .inside quote value)
  else if char = '\r' ∨ char = 'N' then none
  else
    match namedEscape? char, escapeLength? char, digitValue? 8 char with
    | some meant, _, _ => some ([], .inside quote (value ++ [.scalar meant]))
    | none, some length, _ => some ([], .digits quote value 16 length 0)
    | none, none, some digit => some ([], .digits quote value 8 2 digit)
    | none, none, none => some ([], .inside quote (value ++ [.scalar '\\', .scalar char]))

/-- Reads a digit. Octal digits may be fewer than could follow, hexadecimal ones may not. -/
def inDigits (quote : Char) (value : Text) (base left number : Nat) (char : Char) :
    Option (List CodePart × Spot) :=
  match digitValue? base char with
  | some digit =>
    let longer := number * base + digit
    if left = 1 then
      (CodePoint.ofNat? longer).map fun point => ([], .inside quote (value ++ [point]))
    else some ([], .digits quote value base (left - 1) longer)
  | none =>
    if base = 8 then (CodePoint.ofNat? number).bind fun point => inText quote (value ++ [point]) char
    else none

/-- The parts of the code that end with a character, and where the reader stands behind it. -/
def step : Spot → Char → Option (List CodePart × Spot)
  | .code glued, char => inCode glued char
  | .comment, char => some (if char = '\n' then ([.char char], .code false) else ([], .comment))
  | .opened quote, char =>
    if char = quote then some ([], .doubled quote) else inText quote [] char
  | .doubled quote, char =>
    if char = quote then none
    else (inCode true char).map fun (found, next) => (.text [] :: found, next)
  | .inside quote value, char => inText quote value char
  | .escaped quote value, char => behindBackslash quote value char
  | .digits quote value base left number, char => inDigits quote value base left number char

/-- What the end of the code ends. -/
def finish : Spot → Option (List CodePart)
  | .code _ | .comment => some []
  | .doubled _ => some [.text []]
  | .opened _ | .inside _ _ | .escaped _ _ | .digits _ _ _ _ _ => none

end Spot

/-- The parts of the rest of some code. Code with literals in three quotes or with prefixes is not read. -/
def partsFrom (spot : Spot) : List Char → Option (List CodePart)
  | [] => spot.finish
  | char :: rest => (spot.step char).bind fun (found, next) => (partsFrom next rest).map (found ++ ·)

def parts? (code : List Char) : Option (List CodePart) := partsFrom (.code false) code

/-- The texts that the literals of some code denote, in order. -/
def texts? (code : String) : Option (List Text) :=
  (parts? code.toList).map fun parts => parts.filterMap CodePart.text?

section Reading

variable {spot next : Spot} {char : Char}

theorem partsFrom_cons {found : List CodePart} (stepped : spot.step char = some (found, next))
    (rest : List Char) : partsFrom spot (char :: rest) = (partsFrom next rest).map (found ++ ·) := by
  rw [partsFrom, stepped]
  rfl

theorem partsFrom_silent (stepped : spot.step char = some ([], next)) (rest : List Char) :
    partsFrom spot (char :: rest) = partsFrom next rest := by
  rw [partsFrom_cons stepped]
  exact Option.map_id'

end Reading

/-! ## Code points -/

theorem ofNat?_value (point : CodePoint) : CodePoint.ofNat? point.value = some point := by
  cases point with
  | scalar char => exact dif_pos char.valid
  | surrogate index =>
    have range := index.isLt
    have notChar : ¬ (0xD800 + index.val).isValidChar := by
      rintro (low | ⟨high, -⟩) <;> omega
    rw [CodePoint.value, CodePoint.ofNat?, dif_neg notChar, dif_pos ⟨by omega, by omega⟩]
    simp

theorem value_lt (point : CodePoint) : point.value < 0x110000 := by
  cases point with
  | scalar char =>
    have valid := char.valid
    rw [CodePoint.value]
    rcases valid with low | ⟨-, high⟩
    · exact Nat.lt_trans low (by decide)
    · exact high
  | surrogate index =>
    have range := index.isLt
    rw [CodePoint.value]
    omega

/-- The characters that are written behind a backslash for themselves or for another one. -/
def escapeLetters : List Char := ['\'', '"', '\\', 'n', 'r', 't']

/-- What a code point is written as in a literal: an escape by name, itself, or its number. -/
inductive Shown (quote : Char) : CodePoint → List Char → Prop where
  | named {letter meant : Char} (known : letter ∈ escapeLetters)
      (named : namedEscape? letter = some meant) : Shown quote (.scalar meant) ['\\', letter]
  | itself {char : Char} (notQuote : char ≠ quote) (notBackslash : char ≠ '\\')
      (printable : isPrintable char.toNat) : Shown quote (.scalar char) [char]
  | number (point : CodePoint) : Shown quote point (hexEscape point.value)

theorem shown_literalCodePoint {quote : Char} (isQuote : quote ∈ ['\'', '"']) (point : CodePoint) :
    Shown quote point (literalCodePoint quote point) := by
  cases point with
  | surrogate index => exact .number (.surrogate index)
  | scalar char =>
    rw [literalCodePoint]
    unfold literalChar
    split
    · next special =>
      have same : ∀ letter ∈ ['\'', '"', '\\'],
          letter ∈ escapeLetters ∧ namedEscape? letter = some letter := by decide
      have among := mem_of_quote_or_backslash isQuote special
      exact .named (same char among).1 (same char among).2
    · next plain =>
      simp only [Bool.or_eq_true, beq_iff_eq, not_or] at plain
      split
      · next feed => exact eq_of_beq feed ▸ .named (by decide) rfl
      · split
        · next back => exact eq_of_beq back ▸ .named (by decide) rfl
        · split
          · next tab => exact eq_of_beq tab ▸ .named (by decide) rfl
          · split
            · next printable => exact .itself plain.1 plain.2 printable
            · exact .number (.scalar char)

section Literals

variable {quote : Char} {value : Text}

theorem digitValue?_hexDigit (number : Nat) :
    digitValue? 16 (hexDigit (number % 16)) = some (number % 16) := by
  have back : ∀ digit : Fin 16, digitValue? 16 (hexDigit digit.val) = some digit.val := by decide
  exact back ⟨number % 16, Nat.mod_lt _ (by decide)⟩

/-- While further digits follow, those that were read are the number so far. -/
theorem partsFrom_hexDigits (count left before number : Nat) (rest : List Char) :
    partsFrom (.digits quote value 16 (count + left + 1) before) (hexDigits count number ++ rest) =
      partsFrom (.digits quote value 16 (left + 1) (before * 16 ^ count + number % 16 ^ count)) rest := by
  induction count generalizing left number rest with
  | zero => simp [hexDigits, Nat.mod_one]
  | succ count ih =>
    have stepped : Spot.step (.digits quote value 16 (left + 1 + 1)
        (before * 16 ^ count + number / 16 % 16 ^ count)) (hexDigit (number % 16)) =
        some ([], .digits quote value 16 (left + 1)
          (before * 16 ^ (count + 1) + number % 16 ^ (count + 1))) := by
      have longer : (before * 16 ^ count + number / 16 % 16 ^ count) * 16 + number % 16 =
          before * 16 ^ (count + 1) + number % 16 ^ (count + 1) := by
        rw [Nat.pow_succ', Nat.mod_mul, Nat.add_mul, Nat.mul_assoc, Nat.mul_comm (16 ^ count)]
        omega
      rw [Spot.step, Spot.inDigits, digitValue?_hexDigit]
      simp only [longer]
      simp
    rw [hexDigits, List.append_assoc, Nat.add_right_comm count 1 left, Nat.add_assoc count left 1,
      ih (left + 1), List.singleton_append, partsFrom_silent stepped]

theorem partsFrom_lastHexDigit {count : Nat} {point : CodePoint}
    (short : point.value < 16 ^ (count + 1)) (rest : List Char) :
    partsFrom (.digits quote value 16 (count + 1) 0) (hexDigits (count + 1) point.value ++ rest) =
      partsFrom (.inside quote (value ++ [point])) rest := by
  have before : point.value / 16 % 16 ^ count = point.value / 16 := by
    refine Nat.mod_eq_of_lt (Nat.div_lt_of_lt_mul ?_)
    rwa [← Nat.pow_succ']
  have stepped : Spot.step (.digits quote value 16 1 (point.value / 16)) (hexDigit (point.value % 16)) =
      some ([], .inside quote (value ++ [point])) := by
    have whole : point.value / 16 * 16 + point.value % 16 = point.value := Nat.div_add_mod' _ _
    rw [Spot.step, Spot.inDigits, digitValue?_hexDigit]
    simp [whole, ofNat?_value]
  have read := @partsFrom_hexDigits quote value count 0 0 (point.value / 16)
    (hexDigit (point.value % 16) :: rest)
  rw [before, Nat.zero_mul, Nat.zero_add, Nat.zero_add, partsFrom_silent stepped] at read
  rw [hexDigits, List.append_assoc, List.singleton_append]
  exact read

variable (isQuote : quote ∈ ['\'', '"'])

include isQuote

theorem step_inside_backslash :
    Spot.step (.inside quote value) '\\' = some ([], .escaped quote value) := by
  have other : '\\' ≠ quote := by
    rintro rfl
    exact absurd isQuote (by decide)
  rw [Spot.step, Spot.inText, if_neg other, if_pos rfl]

theorem partsFrom_named {letter meant : Char} (named : namedEscape? letter = some meant)
    (rest : List Char) :
    partsFrom (.inside quote value) ('\\' :: letter :: rest) =
      partsFrom (.inside quote (value ++ [.scalar meant])) rest := by
  have plain : letter ≠ '\n' ∧ letter ≠ '\r' ∧ letter ≠ 'N' := by
    refine ⟨?_, ?_, ?_⟩ <;>
      · rintro rfl
        cases named
  have stepped : Spot.step (.escaped quote value) letter =
      some ([], .inside quote (value ++ [.scalar meant])) := by
    simp [Spot.step, Spot.behindBackslash, plain, named]
  rw [partsFrom_silent (step_inside_backslash isQuote), partsFrom_silent stepped]

theorem partsFrom_hexEscape (point : CodePoint) (rest : List Char) :
    partsFrom (.inside quote value) (hexEscape point.value ++ rest) =
      partsFrom (.inside quote (value ++ [point])) rest := by
  have numbered {letter : Char} {count : Nat}
      (begun : Spot.step (.escaped quote value) letter = some ([], .digits quote value 16 (count + 1) 0))
      (short : point.value < 16 ^ (count + 1)) :
      partsFrom (.inside quote value) ('\\' :: letter :: (hexDigits (count + 1) point.value ++ rest)) =
        partsFrom (.inside quote (value ++ [point])) rest := by
    rw [partsFrom_silent (step_inside_backslash isQuote), partsFrom_silent begun,
      partsFrom_lastHexDigit short]
  unfold hexEscape
  split
  · next two => exact numbered rfl two
  · split
    · next four => exact numbered rfl four
    · exact numbered rfl (Nat.lt_trans (value_lt point) (by decide))

/-- What is written for a code point is read as that code point. -/
theorem partsFrom_literalCodePoint (point : CodePoint) (rest : List Char) :
    partsFrom (.inside quote value) (literalCodePoint quote point ++ rest) =
      partsFrom (.inside quote (value ++ [point])) rest := by
  have shown := shown_literalCodePoint isQuote point
  generalize literalCodePoint quote point = written at shown ⊢
  cases shown with
  | named _ named => exact partsFrom_named isQuote named rest
  | @itself char notQuote notBackslash printable =>
    have single : char ≠ '\n' ∧ char ≠ '\r' := by
      constructor <;>
        · rintro rfl
          cases printable
    refine partsFrom_silent ?_ rest
    simp [Spot.step, Spot.inText, notQuote, notBackslash, single]
  | number => exact partsFrom_hexEscape isQuote point rest

theorem partsFrom_text (text : Text) (rest : List Char) :
    partsFrom (.inside quote value) (text.flatMap (literalCodePoint quote) ++ rest) =
      partsFrom (.inside quote (value ++ text)) rest := by
  induction text generalizing value with
  | nil => rw [List.flatMap_nil, List.nil_append, List.append_nil]
  | cons point text ih =>
    rw [List.flatMap_cons, List.append_assoc, partsFrom_literalCodePoint isQuote, ih, List.append_assoc,
      List.singleton_append]

end Literals

/-- The literal written for a text is read as that text, and what follows is read behind a word. -/
theorem partsFrom_literal (text : Text) (rest : List Char) :
    partsFrom (.code false) (literal text ++ rest) =
      (partsFrom (.code true) rest).map (.text text :: ·) := by
  have isQuote := literalQuote_mem text
  have opens : Spot.step (.code false) (literalQuote text) = some ([], .opened (literalQuote text)) := by
    rw [Spot.step, Spot.inCode, if_pos (by simpa using isQuote)]
    rfl
  have closes : Spot.step (.inside (literalQuote text) text) (literalQuote text) =
      some ([.text text], .code true) := if_pos rfl
  rw [literal, List.append_assoc, List.cons_append, partsFrom_silent opens]
  cases text with
  | nil =>
    have doubled : Spot.step (.opened (literalQuote [])) (literalQuote []) =
        some ([], .doubled (literalQuote [])) := by rw [Spot.step, if_pos rfl]
    rw [List.flatMap_nil, List.nil_append, List.singleton_append, partsFrom_silent doubled]
    cases rest with
    | nil => rfl
    | cons char rest =>
      rw [partsFrom, partsFrom, Spot.step, Spot.step]
      split
      · next third =>
        have quotes : char = '\'' ∨ char = '"' := by simpa [third] using isQuote
        rw [Spot.inCode, if_pos quotes, if_pos rfl]
        rfl
      · cases Spot.inCode true char with
        | none => rfl
        | some found => simp [Option.map_map, Function.comp_def]
  | cons point text =>
    have written := written_literalCodePoint isQuote point
    obtain ⟨first, more, begins, other⟩ := written.exists_eq_cons isQuote
    have entered (rest : List Char) :
        partsFrom (.opened (literalQuote (point :: text)))
            (literalCodePoint (literalQuote (point :: text)) point ++ rest) =
          partsFrom (.inside (literalQuote (point :: text)) [])
            (literalCodePoint (literalQuote (point :: text)) point ++ rest) := by
      rw [begins, List.cons_append, partsFrom, partsFrom, Spot.step, if_neg other]
      rfl
    rw [List.flatMap_cons, List.append_assoc, entered, ← List.append_assoc, ← List.flatMap_cons,
      partsFrom_text isQuote, List.nil_append, List.singleton_append, partsFrom_cons closes]
    rfl

/-! ## Characters -/

theorem isPrintable_of_mem_hexEscape {code : Nat} {char : Char} (member : char ∈ hexEscape code) :
    isPrintable char.toNat := by
  have digits : ∀ digit : Fin 16, isPrintable (hexDigit digit).toNat := by decide
  have letters : ∀ char ∈ ['\\', 'x', 'u', 'U'], isPrintable char.toNat := by decide
  simp only [List.forall_mem_cons] at letters
  have shown {count : Nat} {letter : Char} (letterShown : isPrintable letter.toNat)
      (member : char ∈ '\\' :: letter :: hexDigits count code) : isPrintable char.toNat := by
    rcases List.mem_cons.mp member with rfl | behind
    · exact letters.1
    · rcases List.mem_cons.mp behind with rfl | inDigits
      · exact letterShown
      · obtain ⟨digit, rfl⟩ := mem_hexDigits inDigits
        exact digits digit
  unfold hexEscape at member
  split at member
  · exact shown letters.2.1 member
  · split at member
    · exact shown letters.2.2.1 member
    · exact shown letters.2.2.2.1 member

theorem isPrintable_of_mem_literalCodePoint {quote : Char} (isQuote : quote ∈ ['\'', '"'])
    {point : CodePoint} {char : Char} (member : char ∈ literalCodePoint quote point) :
    isPrintable char.toNat := by
  have letters : ∀ letter ∈ escapeLetters, isPrintable letter.toNat := by decide
  have shown := shown_literalCodePoint isQuote point
  generalize literalCodePoint quote point = written at shown member
  cases shown with
  | named known =>
    simp only [List.mem_cons, List.not_mem_nil, or_false] at member
    rcases member with rfl | rfl
    · exact letters _ (by decide)
    · exact letters _ known
  | itself _ _ printable => rwa [List.mem_singleton.mp member]
  | number => exact isPrintable_of_mem_hexEscape member

/-- A literal shows whatever has no visible form by its number. -/
theorem isPrintable_of_mem_literal {text : Text} {char : Char} (member : char ∈ literal text) :
    isPrintable char.toNat := by
  have quotes : ∀ quote ∈ ['\'', '"'], isPrintable quote.toNat := by decide
  have isQuote := literalQuote_mem text
  simp only [literal, List.mem_cons, List.mem_append, List.not_mem_nil, or_false] at member
  rcases member with (rfl | inText) | rfl
  · exact quotes _ isQuote
  · obtain ⟨point, -, written⟩ := List.mem_flatMap.mp inText
    exact isPrintable_of_mem_literalCodePoint isQuote written
  · exact quotes _ isQuote

theorem not_mem_lineBreaks_of_mem_literal {text : Text} {char : Char} (member : char ∈ literal text) :
    char ∉ lineBreaks := by
  have hidden : ∀ char ∈ lineBreaks, isPrintable char.toNat = false := by decide +kernel
  intro ending
  have printable := isPrintable_of_mem_literal member
  rw [hidden char ending] at printable
  cases printable

end ProtocolGen.Source
