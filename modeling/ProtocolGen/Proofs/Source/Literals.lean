import ProtocolGen.Proofs.Source.Scanning

/-!
# String literals in code

The string literals of some code, each with the code that stands between it and the one before. A
literal that denotes a text is found whole, whatever characters the text has.
-/

set_option autoImplicit false

namespace ProtocolGen.Source

open ProtocolGen.Text

/-- Where a reader of code stands: outside of literals, or in one that some quote began, perhaps behind
a backslash. -/
inductive Place where
  | outside
  | inside (quote : Char) (escaped : Bool)

/-- The literals of some code, each with the code before it. What has been read since the last literal
is given, and what has been read of the one that has begun. -/
def literalsFrom (place : Place) (before begun : List Char) :
    List Char → List (List Char × List Char)
  | [] => []
  | char :: rest =>
    match place with
    | .outside =>
      if char = '\'' ∨ char = '"' then literalsFrom (.inside char false) before [char] rest
      else literalsFrom .outside (before ++ [char]) [] rest
    | .inside quote true => literalsFrom (.inside quote false) before (begun ++ [char]) rest
    | .inside quote false =>
      if char = quote then (before, begun ++ [char]) :: literalsFrom .outside [] [] rest
      else literalsFrom (.inside quote (char == '\\')) before (begun ++ [char]) rest

def literalsIn (code : String) : List (List Char × List Char) :=
  literalsFrom .outside [] [] code.toList

/-- Code in which no literal begins. -/
def Unquoted (code : String) : Prop := ∀ char ∈ code.toList, char ∉ ['\'', '"']

instance (code : String) : Decidable (Unquoted code) :=
  inferInstanceAs (Decidable (∀ char ∈ code.toList, char ∉ ['\'', '"']))

theorem Unquoted.append {code more : String} (first : Unquoted code) (second : Unquoted more) :
    Unquoted (code ++ more) := by
  intro char member
  rw [String.toList_append] at member
  exact (List.mem_append.mp member).elim (first char) (second char)

section Reading

variable {before begun : List Char} {quote : Char}

theorem literalsFrom_outside {char : Char} {rest : List Char} :
    literalsFrom .outside before begun (char :: rest) =
      if char = '\'' ∨ char = '"' then literalsFrom (.inside char false) before [char] rest
      else literalsFrom .outside (before ++ [char]) [] rest := rfl

theorem literalsFrom_inside {char : Char} {rest : List Char} :
    literalsFrom (.inside quote false) before begun (char :: rest) =
      if char = quote then (before, begun ++ [char]) :: literalsFrom .outside [] [] rest
      else literalsFrom (.inside quote (char == '\\')) before (begun ++ [char]) rest := rfl

theorem literalsFrom_escaped {char : Char} {rest : List Char} :
    literalsFrom (.inside quote true) before begun (char :: rest) =
      literalsFrom (.inside quote false) before (begun ++ [char]) rest := rfl

theorem literalsFrom_unquoted {chars : List Char} (unquoted : ∀ char ∈ chars, char ∉ ['\'', '"'])
    (rest : List Char) :
    literalsFrom .outside before [] (chars ++ rest) =
      literalsFrom .outside (before ++ chars) [] rest := by
  induction chars generalizing before with
  | nil => rw [List.nil_append, List.append_nil]
  | cons char chars ih =>
    obtain ⟨first, others⟩ := List.forall_mem_cons.mp unquoted
    have plain : ¬ (char = '\'' ∨ char = '"') := by simpa using first
    rw [List.cons_append, literalsFrom_outside, if_neg plain, ih others, List.append_assoc,
      List.singleton_append]

section Inside

theorem literalsFrom_plain {chars : List Char} (plain : ∀ char ∈ chars, char ≠ quote ∧ char ≠ '\\')
    (rest : List Char) :
    literalsFrom (.inside quote false) before begun (chars ++ rest) =
      literalsFrom (.inside quote false) before (begun ++ chars) rest := by
  induction chars generalizing begun with
  | nil => rw [List.nil_append, List.append_nil]
  | cons char chars ih =>
    obtain ⟨⟨notQuote, notBackslash⟩, others⟩ := List.forall_mem_cons.mp plain
    rw [List.cons_append, literalsFrom_inside, if_neg notQuote, beq_false_of_ne notBackslash,
      ih others, List.append_assoc, List.singleton_append]

variable (isQuote : quote ∈ ['\'', '"'])

include isQuote

theorem literalsFrom_escape (char : Char) (rest : List Char) :
    literalsFrom (.inside quote false) before begun ('\\' :: char :: rest) =
      literalsFrom (.inside quote false) before (begun ++ ['\\', char]) rest := by
  have notQuote : '\\' ≠ quote := by
    rintro rfl
    exact absurd isQuote (by decide)
  rw [literalsFrom_inside, if_neg notQuote, beq_self_eq_true, literalsFrom_escaped,
    List.append_assoc, List.singleton_append]

theorem literalsFrom_written {chars : List Char} (written : Written quote chars) (rest : List Char) :
    literalsFrom (.inside quote false) before begun (chars ++ rest) =
      literalsFrom (.inside quote false) before (begun ++ chars) rest := by
  have special : quote ∈ ['\'', '"', '\\', '\n', '\r'] :=
    List.mem_append_left ['\\', '\n', '\r'] isQuote
  cases written with
  | ordinary notQuote notBackslash _ _ =>
    exact literalsFrom_plain (List.forall_mem_singleton.mpr ⟨notQuote, notBackslash⟩) rest
  | @escape char _ _ => exact literalsFrom_escape isQuote char rest
  | @number letter _ _ count code =>
    have digits : ∀ char ∈ hexDigits count code, char ≠ quote ∧ char ≠ '\\' := by
      intro char member
      constructor
      · rintro rfl
        exact not_mem_hexDigits special count code member
      · rintro rfl
        exact not_mem_hexDigits (by decide) count code member
    rw [List.append_assoc, List.cons_append, List.singleton_append, literalsFrom_escape isQuote,
      literalsFrom_plain digits, List.append_assoc]

theorem literalsFrom_text (text : Text) (rest : List Char) :
    literalsFrom (.inside quote false) before begun
        (text.flatMap (literalCodePoint quote) ++ rest) =
      literalsFrom (.inside quote false) before
        (begun ++ text.flatMap (literalCodePoint quote)) rest := by
  induction text generalizing begun with
  | nil => rw [List.flatMap_nil, List.nil_append, List.append_nil]
  | cons codePoint text ih =>
    rw [List.flatMap_cons, List.append_assoc,
      literalsFrom_written isQuote (written_literalCodePoint isQuote codePoint), ih,
      List.append_assoc]

end Inside

/-- The literal that denotes a text is read up to its end and no further. -/
theorem literalsFrom_literal (text : Text) (rest : List Char) :
    literalsFrom .outside before [] (literal text ++ rest) =
      (before, literal text) :: literalsFrom .outside [] [] rest := by
  have isQuote := literalQuote_mem text
  have opens : literalQuote text = '\'' ∨ literalQuote text = '"' := by simpa using isQuote
  rw [literal, List.append_assoc, List.cons_append, literalsFrom_outside, if_pos opens,
    literalsFrom_text isQuote, List.singleton_append, List.singleton_append, literalsFrom_inside,
    if_pos rfl]

end Reading

theorem literalsIn_unquoted {code : String} (unquoted : Unquoted code) : literalsIn code = [] := by
  have read := @literalsFrom_unquoted [] _ unquoted []
  rwa [List.append_nil] at read

/-- Behind code without literals the first one is found that stands there. -/
theorem literalsIn_literal {code : String} (unquoted : Unquoted code) (text more : String) :
    literalsIn (code ++ literalOf text ++ more) =
      (code.toList, (literalOf text).toList) :: literalsIn more := by
  rw [literalsIn, String.toList_append, String.toList_append, literalOf, String.toList_ofList,
    List.append_assoc, literalsFrom_unquoted unquoted, literalsFrom_literal]
  rfl

example : literalsIn "f(\"it's\") or g['\\'']" =
    [("f(".toList, "\"it's\"".toList), (") or g[".toList, "'\\''".toList)] := by decide

end ProtocolGen.Source
