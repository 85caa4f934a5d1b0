import ProtocolGen.Proofs.Text.Splitting
import ProtocolGen.Text.Wrap

/-!
# Words

The words of a text are cut at blanks, so whatever exchanges blanks for blanks keeps them: exchanging
line ends, cutting a text into paragraphs, and setting words on lines.
-/

set_option autoImplicit false

namespace ProtocolGen.Text

/-- A run of characters that is a word by itself. -/
def IsWord (chars : List Char) : Prop := chars ≠ [] ∧ ∀ char ∈ chars, isBlank char = false

instance (chars : List Char) : Decidable (IsWord chars) :=
  inferInstanceAs (Decidable (chars ≠ [] ∧ ∀ char ∈ chars, isBlank char = false))

section Cuts

variable {blank : Char} (dark : isBlank blank)

include dark in
theorem wordsFrom_append_blank (word before after : List Char) :
    wordsFrom word (before ++ blank :: after) = wordsFrom word before ++ words after := by
  fun_induction wordsFrom word before with
  | case1 word empty =>
    rw [List.nil_append, wordsFrom, if_pos dark, if_pos empty, List.nil_append, words]
  | case2 word some =>
    rw [List.nil_append, wordsFrom, if_pos dark, if_neg some, List.singleton_append, words]
  | case3 word char rest other empty ih =>
    rw [List.cons_append, wordsFrom, if_pos other, if_pos empty, ih]
  | case4 word char rest other some ih =>
    rw [List.cons_append, wordsFrom, if_pos other, if_neg some, ih, List.cons_append]
  | case5 word char rest other ih => rw [List.cons_append, wordsFrom, if_neg other, ih]

include dark in
/-- A blank cuts a text into words, and every other fact about them follows. -/
theorem words_append_blank (before after : List Char) :
    words (before ++ blank :: after) = words before ++ words after :=
  wordsFrom_append_blank dark [] before after

include dark in
theorem words_cons_blank (after : List Char) : words (blank :: after) = words after :=
  words_append_blank dark [] after

theorem words_blanks_append {blanks : List Char} (all : ∀ char ∈ blanks, isBlank char)
    (after : List Char) : words (blanks ++ after) = words after := by
  induction blanks with
  | nil => rfl
  | cons blank blanks ih =>
    rw [List.forall_mem_cons] at all
    rw [List.cons_append, words_cons_blank all.1, ih all.2]

theorem words_append_blanks {blanks : List Char} (some : blanks ≠ [])
    (all : ∀ char ∈ blanks, isBlank char) (before after : List Char) :
    words (before ++ (blanks ++ after)) = words before ++ words after := by
  cases blanks with
  | nil => contradiction
  | cons blank blanks =>
    rw [List.forall_mem_cons] at all
    rw [List.cons_append, words_append_blank all.1, words_blanks_append all.2]

end Cuts

theorem wordsFrom_of_solid {word chars : List Char} (solid : ∀ char ∈ chars, isBlank char = false) :
    wordsFrom word chars =
      if word.isEmpty && chars.isEmpty then [] else [word.reverse ++ chars] := by
  induction chars generalizing word with
  | nil => cases word <;> simp [wordsFrom]
  | cons char chars ih =>
    rw [List.forall_mem_cons] at solid
    rw [wordsFrom, solid.1, if_neg Bool.false_ne_true, ih solid.2]
    simp

theorem words_of_isWord {word : List Char} (isWord : IsWord word) : words word = [word] := by
  rw [words, wordsFrom_of_solid isWord.2]
  simp [isWord.1]

theorem isWord_of_mem_wordsFrom {piece chars word : List Char}
    (solid : ∀ char ∈ piece, isBlank char = false) (member : word ∈ wordsFrom piece chars) :
    IsWord word := by
  have finished {piece : List Char} (some : ¬ piece.isEmpty)
      (solid : ∀ char ∈ piece, isBlank char = false) : IsWord piece.reverse := by
    refine ⟨?_, fun char inside => solid char (List.mem_reverse.mp inside)⟩
    rwa [Ne, List.reverse_eq_nil_iff, ← List.isEmpty_iff]
  fun_induction wordsFrom piece chars with
  | case1 => cases member
  | case2 piece some =>
    obtain rfl := List.mem_singleton.mp member
    exact finished some solid
  | case3 piece char rest _ _ ih => exact ih (by simp) member
  | case4 piece char rest _ some ih =>
    rcases List.mem_cons.mp member with rfl | later
    · exact finished some solid
    · exact ih (by simp) later
  | case5 piece char rest other ih =>
    rw [Bool.not_eq_true] at other
    exact ih (List.forall_mem_cons.mpr ⟨other, solid⟩) member

theorem isWord_of_mem_words {chars word : List Char} (member : word ∈ words chars) : IsWord word :=
  isWord_of_mem_wordsFrom (by simp) member

/-! ## Exchanging blanks -/

section Blanks

variable {separator replacement : List Char} (some : separator ≠ [])
  (blanks : ∀ char ∈ separator, isBlank char)

include some blanks in
theorem words_joinWith (pieces : List (List Char)) :
    words (joinWith separator pieces) = pieces.flatMap words := by
  fun_induction joinWith separator pieces with
  | case1 => rfl
  | case2 piece => rw [List.flatMap_singleton]
  | case3 piece pieces others ih =>
    rw [List.append_assoc, words_append_blanks some blanks, ih, List.flatMap_cons]

include some blanks in
theorem flatMap_words_splitFrom (piece : List Char) (skip : Nat) (chars : List Char) :
    (splitFrom separator piece skip chars).flatMap words =
      words (piece.reverse ++ chars.drop skip) := by
  fun_induction splitFrom separator piece skip chars with
  | case1 piece skip => simp
  | case2 piece skip char rest ih => rw [ih, List.drop_succ_cons]
  | case3 piece char rest found ih =>
    obtain ⟨after, found⟩ := Option.isSome_iff_exists.mp found
    have shape := eq_append_of_afterStart? found
    rw [List.flatMap_cons, ih, drop_of_afterStart? some found, List.drop_zero, shape,
      words_append_blanks some blanks]
    rfl
  | case4 piece char rest absent ih => 
    rw [ih, List.reverse_cons, List.append_assoc]
    rfl

include some blanks in
theorem flatMap_words_splitOn (chars : List Char) :
    (splitOn separator chars).flatMap words = words chars :=
  flatMap_words_splitFrom some blanks [] 0 chars

include some blanks in
theorem words_replaceAll (others : replacement ≠ []) (otherBlanks : ∀ char ∈ replacement, isBlank char)
    (chars : List Char) : words (replaceAll separator replacement chars) = words chars := by
  rw [replaceAll, words_joinWith others otherBlanks, flatMap_words_splitOn some blanks]

end Blanks

theorem joinWith_concat (separator : List Char) (pieces : List (List Char)) (last : List Char) :
    joinWith separator (pieces ++ [last]) = pieces.flatMap (fun piece => piece ++ separator) ++ last := by
  induction pieces with
  | nil => rfl
  | cons piece pieces ih =>
    have others : pieces ++ [last] ≠ [] := List.concat_ne_nil last pieces
    rw [List.cons_append, joinWith_cons piece others, ih, List.flatMap_cons]
    simp only [List.append_assoc]

theorem words_joinWith_words {found : List (List Char)} (each : ∀ word ∈ found, IsWord word) :
    words (joinWith [' '] found) = found := by
  rw [words_joinWith (by decide) (by decide)]
  induction found with
  | nil => rfl
  | cons word found ih =>
    rw [List.forall_mem_cons] at each
    rw [List.flatMap_cons, words_of_isWord each.1, ih each.2, List.singleton_append]

/-! ## Paragraphs -/

theorem flatMap_words_paragraphs (texts : List (List Char)) :
    (paragraphs texts).flatMap words = texts.flatMap words := by
  have kept (chunks : List (List Char)) :
      (chunks.filterMap fun chunk =>
        let line := joinWith [' '] (words chunk)
        if line.isEmpty then none else some line).flatMap words = chunks.flatMap words := by
    rw [List.filterMap_eq_flatMap_toList, List.flatMap_assoc]
    apply List.flatMap_congr
    intro chunk member
    have same : words (joinWith [' '] (words chunk)) = words chunk :=
      words_joinWith_words fun word => isWord_of_mem_words
    dsimp only
    split
    · next empty =>
      rw [List.isEmpty_iff.mp empty] at same
      exact same
    · rw [Option.toList_some, List.flatMap_singleton, same]
  rw [paragraphs, List.flatMap_assoc]
  apply List.flatMap_congr
  intro text member
  rw [kept, flatMap_words_splitOn (by decide) (by decide),
    words_replaceAll (by decide) (by decide) (by decide) (by decide)]

/-- A paragraph is its words, with a space between each two, and has some. -/
theorem eq_joinWith_of_mem_paragraphs {texts : List (List Char)} {paragraph : List Char}
    (member : paragraph ∈ paragraphs texts) :
    paragraph = joinWith [' '] (words paragraph) ∧ words paragraph ≠ [] := by
  obtain ⟨text, -, inText⟩ := List.mem_flatMap.mp member
  obtain ⟨chunk, -, found⟩ := List.mem_filterMap.mp inText
  dsimp only at found
  split at found
  · cases found
  · next some =>
    cases found
    rw [words_joinWith_words fun word => isWord_of_mem_words]
    refine ⟨rfl, ?_⟩
    intro none
    rw [none] at some
    contradiction

/-! ## Words on lines -/

/-- A text of words with a run of blanks behind each. -/
inductive Laid : List (List Char) → List Char → Prop where
  | nil : Laid [] []
  | blank {words : List (List Char)} {text : List Char} {blank : Char} (dark : isBlank blank)
      (rest : Laid words text) : Laid words (blank :: text)
  | word {words : List (List Char)} {text : List Char} (word : List Char) {blank : Char}
      (dark : isBlank blank) (rest : Laid words text) : Laid (word :: words) (word ++ blank :: text)

namespace Laid

variable {found others : List (List Char)} {text other : List Char}

theorem append (first : Laid found text) (second : Laid others other) :
    Laid (found ++ others) (text ++ other) := by
  induction first with
  | nil => exact second
  | blank dark rest ih => exact .blank dark ih
  | word word dark rest ih =>
    rw [List.append_assoc]
    exact .word word dark ih

theorem blanks (all : ∀ char ∈ text, isBlank char) : Laid [] text := by
  induction text with
  | nil => exact .nil
  | cons char text ih =>
    rw [List.forall_mem_cons] at all
    exact .blank all.1 (ih all.2)

theorem words_eq (laid : Laid found text) (each : ∀ word ∈ found, IsWord word) :
    words text = found := by
  induction laid with
  | nil => rfl
  | blank dark rest ih => rw [words_cons_blank dark, ih each]
  | word word dark rest ih =>
    rw [List.forall_mem_cons] at each
    rw [words_append_blank dark, words_of_isWord each.1, ih each.2, List.singleton_append]

end Laid

/-- A line of words, whichever blank ends it. -/
def IsLine (words : List (List Char)) (line : List Char) : Prop :=
  ∀ blank, isBlank blank → Laid words (line ++ [blank])

/-- Words with a space between each two are a line of them. -/
theorem isLine_joinWith (row : List (List Char)) : IsLine row (joinWith [' '] row) := by
  intro blank dark
  induction row with
  | nil => exact .blank dark .nil
  | cons word row ih =>
    cases row with
    | nil => exact .word word dark .nil
    | cons next row =>
      rw [joinWith_cons word (List.cons_ne_nil next row), List.append_assoc, List.append_assoc,
        List.singleton_append]
      exact .word word rfl ih

end ProtocolGen.Text
