import ProtocolGen.Proofs.Text.Characters
import ProtocolGen.Proofs.Text.LineEnds
import ProtocolGen.Source.Lexeme
import ProtocolGen.Text.Literal

/-!
# Reading a line of code

A line of code is spelled by pieces: names, marks, string literals and blanks. When no two names and no
two literals stand side by side and the brackets match, the scanner finds exactly the lexemes of the
pieces, whatever the names are and whatever texts the literals denote.
-/

set_option autoImplicit false

namespace ProtocolGen.Source

open ProtocolGen.Text

inductive Piece where
  | name (chars : List Char)
  | mark (char : Char)
  | literal (text : Text)
  | blank

namespace Piece

def chars : Piece → List Char
  | .name chars => chars
  | .mark char => [char]
  | .literal text => Text.literal text
  | .blank => [' ']

def lexeme? : Piece → Option Lexeme
  | .name chars => some (.name chars)
  | .mark char => some (.mark char)
  | .literal _ => some .string
  | .blank => none

/-- The brackets owed behind a mark, if it may stand where some are owed. -/
def owedBehindMark? (owed : List Char) (char : Char) : Option (List Char) :=
  match Scanner.closingOf? char with
  | some closing => if owed.length < Scanner.maximumDepth then some (closing :: owed) else none
  | none =>
    if char == ')' || char == ']' || char == '}' then
      match owed with
      | closing :: owed => if closing == char then some owed else none
      | [] => none
    else if Scanner.isMark char then some owed else none

def owedBehind? (owed : List Char) : Piece → Option (List Char)
  | .mark char => owedBehindMark? owed char
  | .name _ | .literal _ | .blank => some owed

/-- Whether a piece can be told from the one before it. A line begins with no blank. -/
def Apart : Option Piece → Piece → Prop
  | none, .blank => False
  | some (.name _), .name _ => False
  | some (.literal _), .literal _ => False
  | _, _ => True

def Spelled : Piece → Prop
  | .name chars => isIdentifier chars
  | .mark _ | .literal _ | .blank => True

/-- Pieces that may follow a piece where some brackets are owed. -/
def Follow : Option Piece → List Char → List Piece → Prop
  | _, owed, [] => owed = []
  | last, owed, piece :: rest =>
    piece.Spelled ∧ Apart last piece ∧
      ∃ next, piece.owedBehind? owed = some next ∧ Follow (some piece) next rest

/-- The lexemes of pieces. -/
def lexemes (pieces : List Piece) : List Lexeme := pieces.filterMap lexeme?

def spell (pieces : List Piece) : List Char := pieces.flatMap chars

end Piece

namespace Scanner

/-- Takes characters one by one. -/
def run (scanner : Scanner) (chars : List Char) : Except Refusal Scanner := chars.foldlM step scanner

theorem run_cons (scanner : Scanner) (char : Char) (chars : List Char) :
    scanner.run (char :: chars) = scanner.step char >>= fun next => next.run chars :=
  List.foldlM_cons

theorem run_append (scanner : Scanner) (chars more : List Char) :
    scanner.run (chars ++ more) = scanner.run chars >>= fun next => next.run more :=
  List.foldlM_append

theorem run_cons_of_step {scanner next : Scanner} {char : Char} (chars : List Char)
    (stepped : scanner.step char = .ok next) : scanner.run (char :: chars) = next.run chars := by
  rw [run_cons, stepped]
  rfl

theorem run_append_of_run {scanner next : Scanner} {chars : List Char} (more : List Char)
    (ran : scanner.run chars = .ok next) : scanner.run (chars ++ more) = next.run more := by
  rw [run_append, ran]
  rfl

end Scanner

/-! ## String literals -/

section Literals

open Scanner

theorem mem_hexDigits {char : Char} {count number : Nat} (member : char ∈ hexDigits count number) :
    ∃ digit : Fin 16, char = hexDigit digit := by
  induction count generalizing number with
  | zero => cases member
  | succ count ih =>
    rcases List.mem_append.mp member with before | last
    · exact ih before
    · exact ⟨⟨number % 16, Nat.mod_lt _ (by decide)⟩, List.mem_singleton.mp last⟩

/-- What a code point is written as in a literal: itself, an escaped character, or its number. -/
inductive Written (quote : Char) : List Char → Prop where
  | ordinary {char : Char} (notQuote : char ≠ quote) (notBackslash : char ≠ '\\')
      (notFeed : char ≠ '\n') (notReturn : char ≠ '\r') : Written quote [char]
  | escape {char : Char} (notFeed : char ≠ '\n') (notReturn : char ≠ '\r') :
      Written quote ['\\', char]
  | number {letter : Char} (notFeed : letter ≠ '\n') (notReturn : letter ≠ '\r') (count code : Nat) :
      Written quote (['\\', letter] ++ hexDigits count code)

theorem written_hexEscape (quote : Char) (code : Nat) : Written quote (hexEscape code) := by
  unfold hexEscape
  split
  · exact .number (by decide) (by decide) 2 code
  · split
    · exact .number (by decide) (by decide) 4 code
    · exact .number (by decide) (by decide) 8 code

/-- A character that a literal has to escape in any case is a quote or a backslash. -/
theorem mem_of_quote_or_backslash {quote char : Char} (isQuote : quote ∈ ['\'', '"'])
    (special : char == quote || char == '\\') : char ∈ ['\'', '"', '\\'] := by
  rw [Bool.or_eq_true, beq_iff_eq, beq_iff_eq] at special
  rcases special with rfl | rfl
  · exact List.mem_append_left ['\\'] isQuote
  · decide

theorem written_literalCodePoint {quote : Char} (isQuote : quote ∈ ['\'', '"'])
    (codePoint : CodePoint) : Written quote (literalCodePoint quote codePoint) := by
  cases codePoint with
  | surrogate index => exact written_hexEscape quote _
  | scalar char =>
    rw [literalCodePoint]
    unfold literalChar
    split
    · next special =>
      have among := mem_of_quote_or_backslash isQuote special
      refine .escape ?_ ?_
      · rintro rfl
        exact absurd among (by decide)
      · rintro rfl
        exact absurd among (by decide)
    · next plain =>
      rw [Bool.or_eq_true, beq_iff_eq, beq_iff_eq, not_or] at plain
      split
      · exact .escape (by decide) (by decide)
      · next notFeed =>
        split
        · exact .escape (by decide) (by decide)
        · next notReturn =>
          split
          · exact .escape (by decide) (by decide)
          · split
            · exact .ordinary plain.1 plain.2 (by simpa using notFeed) (by simpa using notReturn)
            · exact written_hexEscape quote _

theorem not_mem_hexDigits {char : Char} (special : char ∈ ['\'', '"', '\\', '\n', '\r'])
    (count number : Nat) : char ∉ hexDigits count number := by
  have digits : ∀ digit : Fin 16, ∀ char ∈ ['\'', '"', '\\', '\n', '\r'], char ≠ hexDigit digit := by
    decide
  intro member
  obtain ⟨digit, same⟩ := mem_hexDigits member
  exact digits digit char special same

/-- A scanner in a literal of one line. -/
def inLiteral (scanner : Scanner) (quote : Char) : Scanner :=
  { scanner with mode := .short quote false }

/-- Characters that stand for themselves in a literal. -/
def IsOrdinary (quote char : Char) : Prop := char ≠ quote ∧ char ≠ '\\' ∧ char ≠ '\n'

variable {quote : Char}

theorem run_inLiteral_of_ordinary (scanner : Scanner) {chars : List Char}
    (ordinary : ∀ char ∈ chars, IsOrdinary quote char) :
    run (inLiteral scanner quote) chars = .ok (inLiteral scanner quote) := by
  induction chars with
  | nil => rfl
  | cons char chars ih =>
    rw [List.forall_mem_cons] at ordinary
    obtain ⟨⟨notQuote, notBackslash, notFeed⟩, others⟩ := ordinary
    have stepped : step (inLiteral scanner quote) char = .ok (inLiteral scanner quote) := by
      simp [step, short, inLiteral, notQuote, notBackslash, notFeed]
    rw [run_cons_of_step _ stepped]
    exact ih others

theorem run_inLiteral_of_escape (scanner : Scanner) {char : Char} (notFeed : char ≠ '\n') :
    run (inLiteral scanner quote) ['\\', char] = .ok (inLiteral scanner quote) := by
  have escaping : step (inLiteral scanner quote) '\\' =
      .ok { scanner with mode := .short quote true } := by
    simp [step, short, inLiteral]
  have escaped : step { scanner with mode := .short quote true } char =
      .ok (inLiteral scanner quote) := by
    simp [step, short, inLiteral, notFeed]
  rw [run_cons_of_step _ escaping, run_cons_of_step _ escaped]
  rfl

variable (isQuote : quote ∈ ['\'', '"'])

include isQuote

theorem run_inLiteral_of_written {chars : List Char} (written : Written quote chars)
    (scanner : Scanner) : run (inLiteral scanner quote) chars = .ok (inLiteral scanner quote) := by
  have special : quote ∈ ['\'', '"', '\\', '\n', '\r'] :=
    List.mem_append_left ['\\', '\n', '\r'] isQuote
  cases written with
  | ordinary notQuote notBackslash notFeed =>
    refine run_inLiteral_of_ordinary scanner fun char member => ?_
    rw [List.mem_singleton.mp member]
    exact ⟨notQuote, notBackslash, notFeed⟩
  | escape notFeed => exact run_inLiteral_of_escape scanner notFeed
  | number notFeed _ count code =>
    rw [run_append_of_run _ (run_inLiteral_of_escape scanner notFeed)]
    refine run_inLiteral_of_ordinary scanner fun char member => ⟨?_, ?_, ?_⟩
    · rintro rfl
      exact not_mem_hexDigits special count code member
    · rintro rfl
      exact not_mem_hexDigits (by decide) count code member
    · rintro rfl
      exact not_mem_hexDigits (by decide) count code member

theorem run_inLiteral_of_text (text : Text) (scanner : Scanner) :
    run (inLiteral scanner quote) (text.flatMap (literalCodePoint quote)) =
      .ok (inLiteral scanner quote) := by
  induction text with
  | nil => rfl
  | cons codePoint text ih =>
    rw [List.flatMap_cons, run_append_of_run _
      (run_inLiteral_of_written isQuote (written_literalCodePoint isQuote codePoint) scanner), ih]

theorem Written.exists_eq_cons {chars : List Char} (written : Written quote chars) :
    ∃ first rest, chars = first :: rest ∧ first ≠ quote := by
  have backslash : '\\' ≠ quote := by
    rintro rfl
    exact absurd isQuote (by decide)
  cases written with
  | ordinary notQuote => exact ⟨_, _, rfl, notQuote⟩
  | escape => exact ⟨_, _, rfl, backslash⟩
  | number => exact ⟨_, _, rfl, backslash⟩

omit isQuote in
theorem Written.not_mem {chars : List Char} (written : Written quote chars) {char : Char}
    (ending : char ∈ ['\n', '\r']) : char ∉ chars := by
  have special : char ∈ ['\'', '"', '\\', '\n', '\r'] :=
    List.mem_append_right ['\'', '"', '\\'] ending
  have ends {other : Char} (notFeed : other ≠ '\n') (notReturn : other ≠ '\r') : char ≠ other := by
    rintro rfl
    simp [notFeed, notReturn] at ending
  have backslash : char ≠ '\\' := by
    rintro rfl
    exact absurd ending (by decide)
  cases written with
  | ordinary notQuote notBackslash notFeed notReturn => simpa using ends notFeed notReturn
  | escape notFeed notReturn => simpa using ⟨backslash, ends notFeed notReturn⟩
  | number notFeed notReturn count code =>
    simpa using ⟨backslash, ends notFeed notReturn, not_mem_hexDigits special count code⟩

end Literals

theorem literalQuote_mem (text : Text) : literalQuote text ∈ ['\'', '"'] := by
  unfold literalQuote
  split <;> decide

/-- A literal stands on one line. -/
theorem not_mem_literal {char : Char} (ending : char ∈ ['\n', '\r']) (text : Text) :
    char ∉ literal text := by
  have quotes : ∀ quote ∈ ['\'', '"'], ∀ ending ∈ ['\n', '\r'], ending ≠ quote := by decide
  have notQuote : char ≠ literalQuote text := quotes _ (literalQuote_mem text) _ ending
  have body : char ∉ text.flatMap (literalCodePoint (literalQuote text)) := by
    intro member
    obtain ⟨codePoint, -, inWritten⟩ := List.mem_flatMap.mp member
    exact (written_literalCodePoint (literalQuote_mem text) codePoint).not_mem ending inWritten
  simp only [literal, List.mem_cons, List.mem_append, List.not_mem_nil, or_false, not_or]
  exact ⟨⟨notQuote, body⟩, notQuote⟩

namespace Scanner

/-! ## Between two pieces -/

/-- A scanner once the lexeme that it is in has ended. -/
def settled (scanner : Scanner) : Scanner :=
  match scanner.mode with
  | .name reversed => scanner.emit (.name reversed.reverse) .between
  | .opening _ _ => scanner.emit .string .between
  | _ => { scanner with mode := .between }

/-- The modes behind a piece, or at the start of a line. -/
inductive Rests : Option Piece → Mode → Prop where
  | start : Rests none (.margin false)
  | name (chars : List Char) : Rests (some (.name chars)) (.name chars.reverse)
  | mark (char : Char) : Rests (some (.mark char)) .between
  | literal (text : Text) : Rests (some (.literal text)) .between
  | empty (text : Text) {quote : Char} (isQuote : quote ∈ ['\'', '"']) :
      Rests (some (.literal text)) (.opening quote 2)
  | blank : Rests (some .blank) .between

/-- Characters that can begin a piece behind another one, or a line. -/
def Begins (last : Option Piece) (char : Char) : Prop :=
  match last with
  | none => char ∉ [' ', '\t', '\x0c']
  | some (.name _) => ¬ isIdentifierContinue char
  | some (.literal _) => char ∉ ['\'', '"']
  | some (.mark _) | some .blank => True

theorem step_of_begins {last : Option Piece} {scanner : Scanner} {char : Char}
    (rests : Rests last scanner.mode) (begins : Begins last char) :
    scanner.step char = scanner.settled.between char := by
  obtain ⟨mode, line, owed, lineBegun, textBegun, found⟩ := scanner
  cases rests with
  | start =>
    have notMargin : (char == ' ' || char == '\t') = false ∧ (char == '\x0c') = false := by
      simpa [Begins, not_or, and_assoc] using begins
    simp only [step, margin, notMargin, Bool.false_eq_true, if_false, Bool.false_and]
    split <;> rfl
  | name chars =>
    have ends : isIdentifierContinue char = false := by simpa [Begins] using begins
    simp only [step, ends, Bool.false_eq_true, if_false]
    rfl
  | mark _ | literal _ | blank => rfl
  | @empty _ quote isQuote =>
    have ends : (char == quote) = false := by
      rw [beq_eq_false_iff_ne]
      rintro rfl
      exact begins isQuote
    simp only [step, ends, Bool.false_eq_true, if_false]
    rfl

/-! ## The beginning of a piece -/

theorem between_of_identifierStart (scanner : Scanner) {char : Char}
    (start : isIdentifierStart char) :
    scanner.between char = .ok { scanner with mode := .name [char] } := by
  have other : ∀ special ∈ ['\n', ' ', '\t', '\x0c', '#', '\\', '"', '\''],
      (char == special) = false := by
    intro special member
    rw [beq_eq_false_iff_ne]
    rintro rfl
    have none : ∀ special ∈ ['\n', ' ', '\t', '\x0c', '#', '\\', '"', '\''],
        isIdentifierStart special = false := by decide
    rw [none char member] at start
    cases start
  simp only [List.forall_mem_cons] at other
  simp [between, other, start]

def markChars : List Char := "([\x7b)]\x7d+-*/%@&|^~<>=!.,:;".toList

theorem mem_markChars {owed next : List Char} {char : Char}
    (owes : Piece.owedBehindMark? owed char = some next) : char ∈ markChars := by
  unfold Piece.owedBehindMark? at owes
  split at owes
  · next opens =>
    unfold closingOf? at opens
    split at opens
    · decide
    · decide
    · decide
    · cases opens
  · split at owes
    · next closes =>
      simp only [Bool.or_eq_true, beq_iff_eq] at closes
      rcases closes with (rfl | rfl) | rfl <;> decide
    · split at owes
      · next isMark =>
        have among : char ∈ "+-*/%@&|^~<>=!.,:;".toList := by simpa [Scanner.isMark] using isMark
        exact List.mem_append_right "([\x7b)]\x7d".toList among
      · cases owes

theorem between_of_mark (scanner : Scanner) {char : Char} {next : List Char}
    (owes : Piece.owedBehindMark? scanner.owed char = some next) :
    scanner.between char = .ok { scanner.emit (.mark char) .between with owed := next } := by
  have plain : ∀ mark ∈ markChars, (∀ special ∈ ['\n', ' ', '\t', '\x0c', '#', '\\', '"', '\''],
      (mark == special) = false) ∧ isIdentifierStart mark = false ∧ mark.isDigit = false := by decide
  obtain ⟨other, notName, notNumber⟩ := plain char (mem_markChars owes)
  simp only [List.forall_mem_cons] at other
  simp only [between, other, notName, notNumber, Bool.false_eq_true, if_false, Bool.or_self]
  unfold Piece.owedBehindMark? at owes
  cases opens : closingOf? char with
  | some closing =>
    rw [opens] at owes
    dsimp only at owes ⊢
    split at owes
    · next shallow =>
      rw [if_neg (Nat.not_le.mpr shallow)]
      cases owes
      rfl
    · cases owes
  | none =>
    rw [opens] at owes
    dsimp only at owes ⊢
    split at owes
    · next closes =>
      rw [if_pos closes]
      cases owed : scanner.owed with
      | nil =>
        rw [owed] at owes
        cases owes
      | cons closing rest =>
        rw [owed] at owes
        dsimp only at owes ⊢
        split at owes
        · next matching =>
          rw [if_pos matching]
          cases owes
          rfl
        · cases owes
    · next notCloses =>
      rw [if_neg notCloses]
      split at owes
      · next isMark =>
        rw [if_pos isMark]
        cases owes
        rfl
      · cases owes

theorem between_of_quote (scanner : Scanner) {quote : Char} (isQuote : quote ∈ ['\'', '"']) :
    scanner.between quote = .ok { scanner with mode := .opening quote 1 } := by
  simp only [List.mem_cons, List.not_mem_nil, or_false] at isQuote
  rcases isQuote with rfl | rfl <;> rfl

theorem step_opening_of_ne (scanner : Scanner) {quote char : Char} (other : char ≠ quote) :
    step { scanner with mode := .opening quote 1 } char = step (inLiteral scanner quote) char := by
  simp only [step, inLiteral, beq_iff_eq, other, if_false, if_true]
  rfl

theorem step_inLiteral_of_quote (scanner : Scanner) {quote : Char} (isQuote : quote ∈ ['\'', '"']) :
    step (inLiteral scanner quote) quote = .ok (scanner.emit .string .between) := by
  simp only [List.mem_cons, List.not_mem_nil, or_false] at isQuote
  rcases isQuote with rfl | rfl <;> rfl

/-- A literal is read to its end, where an empty one may still grow into a long one. -/
theorem run_literal {last : Option Piece} {scanner : Scanner} (text : Text)
    (rests : Rests last scanner.mode) (begins : Begins last (literalQuote text)) :
    ∃ reached, scanner.run (literal text) = .ok reached ∧
      Rests (some (.literal text)) reached.mode ∧ reached.owed = scanner.settled.owed ∧
      reached.settled = scanner.settled.emit .string .between := by
  have isQuote := literalQuote_mem text
  have opened : scanner.step (literalQuote text) =
      .ok { scanner.settled with mode := .opening (literalQuote text) 1 } := by
    rw [step_of_begins rests begins, between_of_quote _ isQuote]
  rw [literal, List.cons_append, run_cons_of_step _ opened]
  cases body : text.flatMap (literalCodePoint (literalQuote text)) with
  | nil =>
    refine ⟨{ scanner.settled with mode := .opening (literalQuote text) 2 }, ?_, .empty text isQuote,
      rfl, rfl⟩
    simp [run, step]
  | cons first rest =>
    obtain ⟨codePoint, text, rfl⟩ : ∃ codePoint more, text = codePoint :: more :=
      List.exists_cons_of_ne_nil (by rintro rfl; cases body)
    have other : first ≠ literalQuote (codePoint :: text) := by
      obtain ⟨head, _, written, notQuote⟩ :=
        (written_literalCodePoint isQuote codePoint).exists_eq_cons isQuote
      rw [List.flatMap_cons, written] at body
      cases body
      exact notQuote
    have inside : run { scanner.settled with mode := .opening (literalQuote (codePoint :: text)) 1 }
        (first :: rest) = .ok (inLiteral scanner.settled (literalQuote (codePoint :: text))) := by
      rw [run_cons, step_opening_of_ne _ other, ← run_cons, ← body]
      exact run_inLiteral_of_text isQuote _ _
    rw [run_append_of_run _ inside]
    refine ⟨scanner.settled.emit .string .between, ?_, .literal _, rfl, rfl⟩
    have closed := step_inLiteral_of_quote scanner.settled isQuote
    rw [run_cons_of_step _ closed]
    rfl

/-! ## A line of pieces -/

/-- A scanner that has read some lexemes, the last one up to its end, and that owes some brackets. -/
structure Behind (last : Option Piece) (owed : List Char) (read : List Lexeme) (scanner : Scanner) :
    Prop where
  rests : Rests last scanner.mode
  owed : scanner.settled.owed = owed
  found : scanner.settled.found.reverse.map Located.lexeme = read
  begun : scanner.settled.lineBegun = !read.isEmpty
  textBegun : read ≠ [] → scanner.settled.textBegun

/-- A scanner at the head of a line, in a text in which a lexeme was seen or not. -/
def atHead (textBegun : Bool) : Scanner := ⟨.margin false, 0, [], false, textBegun, []⟩

theorem behind_atHead (textBegun : Bool) : Behind none [] [] (atHead textBegun) :=
  ⟨.start, rfl, rfl, rfl, fun read => absurd rfl read⟩

theorem behind_start : Behind none [] [] start :=
  ⟨.start, rfl, rfl, rfl, fun read => absurd rfl read⟩

section Pieces

variable {last : Option Piece} {owed next : List Char} {read : List Lexeme} {scanner : Scanner}

theorem Behind.emit (behind : Behind last owed read scanner) {piece : Piece} {reached : Scanner}
    {lexeme : Lexeme} (rests : Rests (some piece) reached.mode) (owes : reached.settled.owed = next)
    (found : reached.settled.found = (scanner.settled.emit lexeme .between).found)
    (begun : reached.settled.lineBegun) (textBegun : reached.settled.textBegun) :
    Behind (some piece) next (read ++ [lexeme]) reached := by
  refine ⟨rests, owes, ?_, ?_, fun _ => textBegun⟩
  · rw [found, Scanner.emit, List.reverse_cons, List.map_append, behind.found]
    rfl
  · rw [begun]
    simp

theorem run_name (scanner : Scanner) {reversed chars : List Char}
    (continued : ∀ char ∈ chars, isIdentifierContinue char) :
    run { scanner with mode := .name reversed } chars =
      .ok { scanner with mode := .name (chars.reverse ++ reversed) } := by
  induction chars generalizing reversed with
  | nil => rfl
  | cons char chars ih =>
    rw [List.forall_mem_cons] at continued
    have stepped : step { scanner with mode := .name reversed } char =
        .ok { scanner with mode := .name (char :: reversed) } := by
      simp only [step, continued.1, if_true]
    rw [run_cons_of_step _ stepped, ih continued.2, List.reverse_cons, List.append_assoc,
      List.singleton_append]

theorem begins_of_identifierStart {chars : List Char} {char : Char}
    (apart : Piece.Apart last (.name chars)) (start : isIdentifierStart char) : Begins last char := by
  have other {specials : List Char} (none : ∀ special ∈ specials, isIdentifierStart special = false) :
      char ∉ specials := by
    intro member
    rw [none char member] at start
    cases start
  match last with
  | none => exact other (by decide)
  | some (.name _) => exact apart.elim
  | some (.literal _) => exact other (by decide)
  | some (.mark _) | some .blank => trivial

theorem begins_of_mark {char : Char} (owes : Piece.owedBehindMark? owed char = some next) :
    Begins last char := by
  have plain : ∀ mark ∈ markChars, mark ∉ [' ', '\t', '\x0c'] ∧ isIdentifierContinue mark = false ∧
      mark ∉ ['\'', '"'] := by decide
  obtain ⟨notMargin, notName, notQuote⟩ := plain char (mem_markChars owes)
  match last with
  | none => exact notMargin
  | some (.name _) => simpa [Begins] using notName
  | some (.literal _) => exact notQuote
  | some (.mark _) | some .blank => trivial

theorem begins_of_quote {text : Text} {char : Char} (apart : Piece.Apart last (.literal text))
    (isQuote : char ∈ ['\'', '"']) : Begins last char := by
  have plain : ∀ quote ∈ ['\'', '"'], quote ∉ [' ', '\t', '\x0c'] ∧
      isIdentifierContinue quote = false := by decide
  obtain ⟨notMargin, notName⟩ := plain char isQuote
  match last with
  | none => exact notMargin
  | some (.name _) => simpa [Begins] using notName
  | some (.literal _) => exact apart.elim
  | some (.mark _) | some .blank => trivial

theorem begins_of_blank (apart : Piece.Apart last .blank) : Begins last ' ' := by
  match last with
  | none => exact apart.elim
  | some (.name _) | some (.literal _) =>
    simp only [Begins]
    decide
  | some (.mark _) | some .blank => trivial

/-- Behind what is read so far, one more piece is read to the lexeme that it is. -/
theorem Behind.run_piece {piece : Piece} (behind : Behind last owed read scanner)
    (spelled : piece.Spelled) (apart : Piece.Apart last piece)
    (owes : piece.owedBehind? owed = some next) :
    ∃ reached, scanner.run piece.chars = .ok reached ∧
      Behind (some piece) next (read ++ piece.lexeme?.toList) reached := by
  cases piece with
  | name chars =>
    cases owes
    cases chars with
    | nil => cases spelled
    | cons first rest =>
      obtain ⟨start, continued⟩ := Bool.and_eq_true_iff.mp spelled
      have begun := step_of_begins behind.rests (begins_of_identifierStart apart start)
      rw [between_of_identifierStart _ start] at begun
      have ran : scanner.run (first :: rest) =
          .ok { scanner.settled with mode := .name (first :: rest).reverse } := by
        rw [run_cons_of_step _ begun, run_name _ (List.all_eq_true.mp continued), List.reverse_cons]
      refine ⟨_, ran, behind.emit (.name _) behind.owed ?_ rfl rfl⟩
      simp only [settled, Scanner.emit, List.reverse_reverse]
  | mark char =>
    have owesMark : Piece.owedBehindMark? owed char = some next := owes
    have stepped := step_of_begins behind.rests (begins_of_mark owesMark)
    rw [between_of_mark _ (behind.owed ▸ owesMark)] at stepped
    exact ⟨_, run_cons_of_step [] stepped, behind.emit (.mark char) rfl rfl rfl rfl⟩
  | literal text =>
    cases owes
    obtain ⟨reached, ran, rests, owed, settled⟩ := run_literal text behind.rests
      (begins_of_quote apart (literalQuote_mem text))
    exact ⟨reached, ran, behind.emit rests (by rw [settled]; exact behind.owed) (by rw [settled])
      (by rw [settled]; rfl) (by rw [settled]; rfl)⟩
  | blank =>
    cases owes
    have stepped := step_of_begins behind.rests (begins_of_blank apart)
    rw [Piece.lexeme?, Option.toList_none, List.append_nil]
    exact ⟨_, run_cons_of_step [] stepped, .blank, behind.owed, behind.found, behind.begun,
      behind.textBegun⟩

theorem Behind.run_pieces {pieces : List Piece} (behind : Behind last owed read scanner)
    (follow : Piece.Follow last owed pieces) :
    ∃ reached final, scanner.run (Piece.spell pieces) = .ok reached ∧
      Behind final [] (read ++ Piece.lexemes pieces) reached := by
  induction pieces generalizing last owed read scanner with
  | nil =>
    cases follow
    exact ⟨scanner, last, rfl, by simpa [Piece.lexemes] using behind⟩
  | cons piece pieces ih =>
    obtain ⟨spelled, apart, next, owes, follow⟩ := follow
    obtain ⟨middle, ran, behindPiece⟩ := behind.run_piece spelled apart owes
    obtain ⟨reached, final, ranOthers, behindAll⟩ := ih behindPiece follow
    have lexemes : Piece.lexemes (piece :: pieces) =
        piece.lexeme?.toList ++ Piece.lexemes pieces := by
      rw [Piece.lexemes, List.filterMap_cons, Piece.lexemes]
      cases piece.lexeme? <;> rfl
    refine ⟨reached, final, ?_, ?_⟩
    · rw [Piece.spell, List.flatMap_cons, run_append_of_run _ ran]
      exact ranOthers
    · rw [lexemes, ← List.append_assoc]
      exact behindAll

theorem begins_feed (last : Option Piece) : Begins last '\n' := by
  match last with
  | none | some (.name _) | some (.literal _) =>
    simp only [Begins]
    decide
  | some (.mark _) | some .blank => trivial

/-- Behind a whole line with something on it, a line feed ends the line. -/
theorem Behind.step_feed (behind : Behind last [] read scanner) (notEmpty : read ≠ []) :
    ∃ reached, scanner.step '\n' = .ok reached ∧ reached.mode = .margin false ∧ reached.owed = [] ∧
      reached.lineBegun = false ∧ reached.textBegun ∧
      reached.found.reverse.map Located.lexeme = read ++ [.lineEnd] := by
  have begun : scanner.settled.lineBegun := by
    rw [behind.begun]
    simpa using notEmpty
  refine ⟨scanner.settled.endLine, ?_, ?_⟩
  · rw [step_of_begins behind.rests (begins_feed last)]
    rfl
  · simp only [endLine, behind.owed, begun, List.isEmpty_nil, Bool.not_true, Bool.false_eq_true,
      if_false, if_true, List.reverse_cons, List.map_append, behind.found]
    simpa using behind.textBegun notEmpty

end Pieces

end Scanner

/-! ## The lexemes of a line -/

theorem not_mem_chars {piece : Piece} {owed next : List Char} {char : Char}
    (ending : char ∈ ['\n', '\r']) (spelled : piece.Spelled)
    (owes : piece.owedBehind? owed = some next) : char ∉ piece.chars := by
  cases piece with
  | name chars =>
    have other : ∀ ending ∈ ['\n', '\r'], isIdentifierStart ending = false ∧
        isIdentifierContinue ending = false := by decide
    intro member
    cases chars with
    | nil => cases member
    | cons first rest =>
      obtain ⟨start, continued⟩ := Bool.and_eq_true_iff.mp spelled
      rcases List.mem_cons.mp member with rfl | inRest
      · rw [(other _ ending).1] at start
        cases start
      · have continues := List.all_eq_true.mp continued char inRest
        rw [(other char ending).2] at continues
        cases continues
  | mark mark =>
    have other : ∀ mark ∈ Scanner.markChars, ∀ ending ∈ ['\n', '\r'], ending ≠ mark := by decide
    have owesMark : Piece.owedBehindMark? owed mark = some next := owes
    simpa [Piece.chars] using other mark (Scanner.mem_markChars owesMark) char ending
  | literal text => exact not_mem_literal ending text
  | blank =>
    have other : ∀ ending ∈ ['\n', '\r'], ending ∉ [' '] := by decide
    exact other char ending

theorem not_mem_spell {pieces : List Piece} {last : Option Piece} {owed : List Char} {char : Char}
    (ending : char ∈ ['\n', '\r']) (follow : Piece.Follow last owed pieces) :
    char ∉ Piece.spell pieces := by
  induction pieces generalizing last owed with
  | nil => exact List.not_mem_nil
  | cons piece pieces ih =>
    obtain ⟨spelled, -, next, owes, follow⟩ := follow
    rw [Piece.spell, List.flatMap_cons, List.mem_append, not_or]
    exact ⟨not_mem_chars ending spelled owes, ih follow⟩

theorem foldlM_mapError_of_run {scanner reached : Scanner} {chars : List Char}
    (ran : scanner.run chars = .ok reached) :
    chars.foldlM (fun scanner char =>
      (scanner.step char).mapError fun refusal => (scanner.line, refusal)) scanner = .ok reached := by
  induction chars generalizing scanner with
  | nil =>
    cases ran
    rfl
  | cons char chars ih =>
    rw [Scanner.run_cons] at ran
    rw [List.foldlM_cons]
    cases stepped : scanner.step char with
    | error refusal =>
      rw [stepped] at ran
      cases ran
    | ok next =>
      rw [stepped] at ran
      exact ih ran

/-- The scanner finds in a line exactly the lexemes of the pieces that spell it, and the line's end. -/
theorem lexemes_spell {pieces : List Piece} (follow : Piece.Follow none [] pieces)
    (notEmpty : Piece.lexemes pieces ≠ []) :
    ∃ located, lexemes (Piece.spell pieces) = .ok located ∧
      located.map Located.lexeme = Piece.lexemes pieces ++ [.lineEnd] := by
  obtain ⟨middle, final, ran, behind⟩ := Scanner.behind_start.run_pieces follow
  obtain ⟨reached, stepped, mode, owed, -, -, found⟩ := behind.step_feed notEmpty
  have ranAll : Scanner.start.run (Piece.spell pieces ++ ['\n']) = .ok reached := by
    rw [Scanner.run_append_of_run _ ran, Scanner.run_cons_of_step _ stepped]
    rfl
  refine ⟨reached.found.reverse, ?_, found⟩
  unfold lexemes
  dsimp only
  rw [unifyLineEnds_of_not_mem (not_mem_spell (by decide) follow), foldlM_mapError_of_run ranAll]
  have finished : reached.finish = .ok reached.found.reverse := by simp [Scanner.finish, mode, owed]
  exact congrArg (Except.mapError _) finished

end ProtocolGen.Source
