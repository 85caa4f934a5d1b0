import ProtocolGen.Proofs.Source.LiteralValues

/-!
# Code that quotes texts

Code between literals begins neither a literal nor a comment, and behind most of it a literal can begin.
Then exactly the literals that were written are read, and their texts. A list of literals in brackets is
read as a tuple of their texts, an only one by the comma behind it.
-/

set_option autoImplicit false

namespace ProtocolGen.Source

open ProtocolGen.Text

/-! ## Code around literals -/

/-- Code in which neither a literal nor a comment begins. -/
def IsBare (code : List Char) : Prop := ∀ char ∈ code, char ∉ ['\'', '"', '#']

instance (code : List Char) : Decidable (IsBare code) :=
  inferInstanceAs (Decidable (∀ char ∈ code, char ∉ ['\'', '"', '#']))

/-- Code whose end lets a literal begin. -/
def Leads (code : List Char) : Prop := ∃ char ∈ code.getLast?, ¬ isIdentifierContinue char

theorem Leads.append {code : List Char} (leads : Leads code) (front : List Char) :
    Leads (front ++ code) := by
  obtain ⟨char, last, other⟩ := leads
  refine ⟨char, ?_, other⟩
  rw [Option.mem_def] at last ⊢
  rw [List.getLast?_append, last, Option.some_or]

section Bare

variable {code : List Char} (bare : IsBare code)

include bare

theorem partsFrom_bare (glued : Bool) (rest : List Char) :
    partsFrom (.code glued) (code ++ rest) =
      (partsFrom (.code ((code.getLast?.map isIdentifierContinue).getD glued)) rest).map
        (code.map .char ++ ·) := by
  induction code generalizing glued with
  | nil => exact Option.map_id'.symm
  | cons char code ih =>
    obtain ⟨plain, others⟩ := List.forall_mem_cons.mp bare
    simp only [List.mem_cons, List.not_mem_nil, or_false, not_or] at plain
    have stepped : Spot.step (.code glued) char = some ([.char char], .code (isIdentifierContinue char)) := by
      simp [Spot.step, Spot.inCode, plain]
    have last : (((char :: code).getLast?.map isIdentifierContinue).getD glued) =
        (code.getLast?.map isIdentifierContinue).getD (isIdentifierContinue char) := by
      cases code with
      | nil => rfl
      | cons next code => rw [List.getLast?_cons_cons, List.getLast?_cons]; rfl
    rw [List.cons_append, partsFrom_cons stepped, ih others, last, Option.map_map]
    rfl

/-- Behind code that lets a literal begin the literal of a text is read as that text. -/
theorem partsFrom_code_literal (leads : Leads code) (glued : Bool) (text : Text) (rest : List Char) :
    partsFrom (.code glued) (code ++ (literal text ++ rest)) =
      (partsFrom (.code true) rest).map (code.map .char ++ .text text :: ·) := by
  obtain ⟨char, last, other⟩ := leads
  have notGlued : (code.getLast?.map isIdentifierContinue).getD glued = false := by
    rw [Option.mem_def.mp last]
    simpa using other
  rw [partsFrom_bare bare, notGlued, partsFrom_literal, Option.map_map]
  rfl

end Bare

/-- Code with the literals of some texts in it and no others. -/
inductive Quotes : List Char → List Text → Prop where
  | bare {code : List Char} (bare : IsBare code) : Quotes code []
  | literal {front rest : List Char} {texts : List Text} (bare : IsBare front) (leads : Leads front)
      (text : Text) (others : Quotes rest texts) : Quotes (front ++ (literal text ++ rest)) (text :: texts)

namespace Quotes

variable {code more : List Char} {texts others : List Text}

theorem append_front {front : List Char} (bare : IsBare front) (quotes : Quotes code texts) :
    Quotes (front ++ code) texts := by
  cases quotes with
  | bare behind => exact .bare (List.forall_mem_append.mpr ⟨bare, behind⟩)
  | literal behind leads text others =>
    rw [← List.append_assoc]
    exact .literal (List.forall_mem_append.mpr ⟨bare, behind⟩) (leads.append front) text others

theorem append (first : Quotes code texts) (second : Quotes more others) :
    Quotes (code ++ more) (texts ++ others) := by
  induction first with
  | bare bare => exact second.append_front bare
  | literal bare leads text _ ih =>
    rw [List.append_assoc, List.append_assoc, List.cons_append]
    exact .literal bare leads text ih

theorem append_bare (quotes : Quotes code texts) (bare : IsBare more) : Quotes (code ++ more) texts := by
  have appended := quotes.append (.bare bare)
  rwa [List.append_nil] at appended

theorem filterMap_partsFrom (quotes : Quotes code texts) (glued : Bool) :
    (partsFrom (.code glued) code).map (fun parts => parts.filterMap CodePart.text?) = some texts := by
  have none (front : List Char) : (front.map CodePart.char).filterMap CodePart.text? = [] := by
    rw [List.filterMap_map]
    exact List.filterMap_eq_nil_iff.mpr fun _ _ => rfl
  induction quotes generalizing glued with
  | @bare code bare =>
    have read := partsFrom_bare bare glued []
    rw [List.append_nil] at read
    rw [read, partsFrom]
    simp [Spot.finish, none]
  | @literal front rest texts bare leads text others ih =>
    obtain ⟨parts, read, found⟩ := Option.map_eq_some_iff.mp (ih true)
    rw [partsFrom_code_literal bare leads, read, Option.map_some, Option.map_some, List.filterMap_append,
      none, List.filterMap_cons, found]
    rfl

end Quotes

theorem texts?_of_quotes {code : String} {texts : List Text} (quotes : Quotes code.toList texts) :
    texts? code = some texts :=
  quotes.filterMap_partsFrom false

/-! ## Tuples of literals -/

/-- The texts of the literals before a closing bracket, with a comma between each two and perhaps one more
behind the last. -/
def elements? : List CodePart → Option (List Text)
  | [.char ')'] => some []
  | [.text last, .char ')'] => some [last]
  | .text value :: .char ',' :: rest => (elements? rest).map (value :: ·)
  | _ => none

/-- The texts of the literals that some code has as a tuple. An only literal in brackets is none. -/
def tuple? (code : String) : Option (List Text) :=
  (parts? code.toList).bind fun parts =>
    match parts.filter (· ≠ .char ' ') with
    | [.char '(', .char ')'] => some []
    | .char '(' :: .text first :: .char ',' :: rest => (elements? rest).map (first :: ·)
    | _ => none

example : tuple? "('a', \"\\x62\")" = some [ofString "a", ofString "b"] ∧ tuple? "('a')" = none ∧
    tuple? "('a',) # 'b'" = some [ofString "a"] := by decide +kernel

/-- Literals of texts with a comma and a space before each. -/
def literalsBehind (texts : List Text) : List Char := texts.flatMap fun text => [',', ' '] ++ literal text

theorem partsFrom_literalsBehind (texts : List Text) :
    partsFrom (.code true) (literalsBehind texts ++ [')']) =
      some (texts.flatMap (fun text => [.char ',', .char ' ', .text text]) ++ [.char ')']) := by
  have leads : Leads [',', ' '] := ⟨' ', rfl, by decide⟩
  induction texts with
  | nil => rfl
  | cons text texts ih =>
    rw [literalsBehind, List.flatMap_cons, ← literalsBehind, List.append_assoc, List.append_assoc,
      partsFrom_code_literal (by decide) leads, ih]
    rfl

theorem elements?_texts (first : Text) (others : List Text) :
    elements? (.text first :: (others.flatMap (fun text => [.char ',', .text text]) ++ [.char ')'])) =
      some (first :: others) := by
  induction others generalizing first with
  | nil => rfl
  | cons second others ih =>
    rw [List.flatMap_cons, List.append_assoc, List.cons_append, List.singleton_append, elements?, ih]
    rfl

/-- An only literal in brackets is a tuple by the comma behind it, and several are one without. -/
theorem tuple?_literals {code : String} (first : Text) (others : List Text)
    (written : code.toList = '(' :: (literal first ++
      (literalsBehind others ++ if others.isEmpty then [',', ')'] else [')']))) :
    tuple? code = some (first :: others) := by
  have leads : Leads ['('] := ⟨'(', rfl, by decide⟩
  have opened (rest : List Char) : parts? ('(' :: (literal first ++ rest)) =
      (partsFrom (.code true) rest).map ([.char '('] ++ .text first :: ·) :=
    partsFrom_code_literal (by decide) leads false first rest
  rw [tuple?, written, opened]
  cases others with
  | nil => rfl
  | cons second others =>
    have spaceless (texts : List Text) : (texts.flatMap fun text =>
        [CodePart.char ',', .char ' ', .text text]).filter (· ≠ .char ' ') =
        texts.flatMap fun text => [.char ',', .text text] := by
      rw [List.filter_flatMap]
      rfl
    have filtered : ([CodePart.char '('] ++ CodePart.text first :: ((second :: others).flatMap (fun text =>
        [CodePart.char ',', .char ' ', .text text]) ++ [CodePart.char ')'])).filter (· ≠ .char ' ') =
        .char '(' :: .text first :: .char ',' :: .text second ::
          (others.flatMap (fun text => [.char ',', .text text]) ++ [.char ')']) := by
      rw [List.singleton_append, List.filter_cons_of_pos (by simp), List.filter_cons_of_pos (by simp),
        List.filter_append, spaceless]
      rfl
    rw [List.isEmpty_cons, if_neg Bool.false_ne_true, partsFrom_literalsBehind, Option.map_some,
      Option.bind_some, filtered]
    exact congrArg (Option.map (first :: ·)) (elements?_texts second others)

end ProtocolGen.Source
