import Mathlib.Data.List.Forall2
import ProtocolGen.Proofs.Source.KeptCharacters
import ProtocolGen.Proofs.Source.TripleQuotes
import ProtocolGen.Proofs.Text.Filling

/-!
# What a docstring says

The lines of a docstring read as a literal in triple quotes. Its value has the words of the texts,
except where a paragraph ends with triples of quotes: lines are filled with escaped words, and each of
those is read as the word it came from, or as what its paragraph's end is read as.
-/

set_option autoImplicit false

namespace ProtocolGen.Source

open ProtocolGen.Text

/-! ## Words -/

theorem mem_escapedRuns {text : List Char} {char : Char} (member : char ∈ escapedRuns text) :
    char ∈ ['\\', '"'] ∨ char ∈ text := by
  fun_induction escapedRuns text with
  | case1 => cases member
  | case2 rest ih | case3 rest ih | case4 first rest noTriple noSlash ih =>
    simp only [List.mem_cons, List.not_mem_nil, or_false] at member ih ⊢
    tauto

theorem not_isBlank_special : ∀ char ∈ ['\\', '"'], isBlank char = false := by decide

theorem isWord_escapedRuns {word : List Char} (isWord : IsWord word) :
    IsWord (escapedRuns word) := by
  obtain ⟨notEmpty, solid⟩ := isWord
  refine ⟨?_, fun char member => ?_⟩
  · fun_cases escapedRuns word with
    | case1 => contradiction
    | case2 | case3 | case4 => simp [*]
  · rcases mem_escapedRuns member with special | inWord
    · exact not_isBlank_special char special
    · exact solid char inWord

/-- A word stays one when characters other than blanks take the place of its last. -/
theorem isWord_dropLast_append {word : List Char} (isWord : IsWord word) :
    IsWord (word.dropLast ++ ['\\', '"']) := by
  refine ⟨by simp, fun char member => ?_⟩
  rcases List.mem_append.mp member with before | special
  · exact isWord.2 char ((List.dropLast_sublist word).subset before)
  · exact not_isBlank_special char special

theorem isWord_escapeDoc {word : List Char} (isWord : IsWord word) : IsWord (escapeDoc word) := by
  rw [escapeDoc_eq, withLastEscaped]
  split
  · exact isWord_dropLast_append (isWord_escapedRuns isWord)
  · exact isWord_escapedRuns isWord

theorem isWord_readAs {word : List Char} (isWord : IsWord word) : IsWord (readAs word) := by
  rw [readAs]
  split
  · exact isWord_dropLast_append isWord
  · exact isWord

/-- Words with a space behind each. -/
def spaced (words : List (List Char)) : List Char := words.flatMap fun word => word ++ [' ']

theorem words_spaced {init : List (List Char)} {last : List Char}
    (each : ∀ word ∈ init, IsWord word) (isWord : IsWord last) :
    words (spaced init ++ last) = init ++ [last] := by
  rw [spaced, ← joinWith_concat]
  apply words_joinWith_words
  rw [List.forall_mem_append]
  exact ⟨each, List.forall_mem_singleton.mpr isWord⟩

theorem escapedRuns_spaced (init : List (List Char)) (last : List Char) :
    escapedRuns (spaced init ++ last) = spaced (init.map escapedRuns) ++ escapedRuns last := by
  induction init with
  | nil => rfl
  | cons word init ih =>
    have space : escapedRuns ([' '] ++ (spaced init ++ last)) =
        [' '] ++ escapedRuns (spaced init ++ last) := rfl
    rw [spaced, List.flatMap_cons, ← spaced, List.append_assoc, List.append_assoc,
      escapedRuns_append fun _ => by simp, space, ih, List.map_cons, spaced, spaced, List.flatMap_cons]
    simp

theorem endsInTriples_spaced {init : List (List Char)} {last : List Char} :
    EndsInTriples (spaced init ++ last) ↔ EndsInTriples last := by
  have apart : (spaced init).getLast? ≠ some '"' := by
    rcases List.eq_nil_or_concat' init with rfl | ⟨init, word, rfl⟩ <;> simp [spaced]
  rw [EndsInTriples, EndsInTriples, trailingQuotes_append apart]

theorem readAs_spaced (init : List (List Char)) {last : List Char} (notEmpty : last ≠ []) :
    readAs (spaced init ++ last) = spaced init ++ readAs last := by
  rw [readAs, readAs]
  by_cases triples : EndsInTriples last
  · rw [if_pos triples, if_pos (endsInTriples_spaced.mpr triples),
      List.dropLast_append_of_ne_nil notEmpty, List.append_assoc]
  · rw [if_neg triples, if_neg (mt endsInTriples_spaced.mp triples)]

theorem escapeDoc_spaced (init : List (List Char)) {last : List Char} (isWord : IsWord last) :
    escapeDoc (spaced init ++ last) = spaced (init.map escapedRuns) ++ escapeDoc last := by
  rw [escapeDoc_eq, escapedRuns_spaced, withLastEscaped_append (isWord_escapedRuns isWord).1,
    ← escapeDoc_eq]

/-- The words of an escaped paragraph are read as those of what the paragraph is read as. -/
theorem denotes_words_escapeDoc {texts : List (List Char)} {paragraph : List Char}
    (member : paragraph ∈ paragraphs texts) :
    List.Forall₂ Denotes (words (escapeDoc paragraph)) (words (readAs paragraph)) ∧
      (words (readAs paragraph)).length = (words paragraph).length ∧
      (words (readAs paragraph) = words paragraph ↔ ¬ EndsInTriples paragraph) := by
  obtain ⟨shape, notEmpty⟩ := eq_joinWith_of_mem_paragraphs member
  have each : ∀ word ∈ words paragraph, IsWord word := fun _ => isWord_of_mem_words
  obtain ⟨init, last, split⟩ := (List.eq_nil_or_concat' _).resolve_left notEmpty
  rw [split, joinWith_concat, ← spaced] at shape
  rw [split, List.forall_mem_append, List.forall_mem_singleton] at each
  obtain ⟨initWords, lastWord⟩ := each
  have escaped : ∀ word ∈ init.map escapedRuns, IsWord word := by
    rw [List.forall_mem_map]
    exact fun word inInit => isWord_escapedRuns (initWords word inInit)
  subst shape
  rw [split, escapeDoc_spaced init lastWord, readAs_spaced init lastWord.1,
    words_spaced escaped (isWord_escapeDoc lastWord), words_spaced initWords (isWord_readAs lastWord)]
  have denotes : List.Forall₂ Denotes (init.map escapedRuns) init :=
    List.forall₂_map_left_iff.mpr (List.forall₂_same.mpr fun word _ => denotes_escapedRuns word)
  refine ⟨List.rel_append denotes (.cons (denotes_escapeDoc last) .nil), by simp, ?_⟩
  rw [endsInTriples_spaced, ← readAs_eq_iff]
  simp

/-! ## The body of a docstring -/

theorem literalBody_blank {blank : Char} (dark : isBlank blank) (rest : List Char) :
    literalBody (blank :: rest) = continued [blank] (literalBody rest) := by
  apply literalBody_plain
  all_goals
    rintro rfl
    revert dark
    decide

/-- Where words are read as others, so is a text in which they are laid. -/
theorem exists_read_of_laid {written values : List (List Char)} {text : List Char}
    (laid : Laid written text) (read : List.Forall₂ Denotes written values) :
    ∃ value, Laid values value ∧ DenotesAnywhere text value := by
  induction laid generalizing values with
  | nil =>
    cases read
    exact ⟨[], .nil, fun rest => (continued_nil _).symm⟩
  | blank dark rest ih =>
    obtain ⟨value, laid, denotes⟩ := ih read
    refine ⟨_, .blank dark laid, fun rest => ?_⟩
    rw [List.cons_append, literalBody_blank dark, denotes, ← continued_append]
    rfl
  | word word dark rest ih =>
    cases read with
    | cons first read =>
      obtain ⟨value, laid, denotes⟩ := ih read
      refine ⟨_, .word _ dark laid, fun rest => ?_⟩
      rw [List.append_assoc, first, List.cons_append, literalBody_blank dark, denotes,
        ← continued_append, ← continued_append]
      · simp
      · rw [List.cons_append, List.head?_cons]
        rintro ⟨⟩
        revert dark
        decide

/-- The lines of paragraphs hold their escaped words in order. -/
theorem exists_parts_paragraphLines (width : Nat) (paragraphs : List (List Char)) :
    ∃ parts, List.Forall₂ IsLine parts (paragraphLines width paragraphs) ∧
      parts.flatten = paragraphs.flatMap fun paragraph => words (escapeDoc paragraph) := by
  fun_induction paragraphLines width paragraphs with
  | case1 => exact ⟨[], .nil, rfl⟩
  | case2 paragraph =>
    obtain ⟨parts, lines, all⟩ := exists_parts_wrap width (escapeDoc paragraph)
    exact ⟨parts, lines, by rw [all, List.flatMap_singleton]⟩
  | case3 paragraph paragraphs others ih =>
    obtain ⟨parts, lines, all⟩ := exists_parts_wrap width (escapeDoc paragraph)
    obtain ⟨later, laterLines, laterAll⟩ := ih
    have empty : IsLine [] [] := fun blank dark => .blank dark .nil
    refine ⟨parts ++ [] :: later, List.rel_append lines (.cons empty laterLines), ?_⟩
    rw [List.flatten_append, List.flatten_cons, List.nil_append, all, laterAll, List.flatMap_cons]

/-- A line behind a margin, unless it is empty. -/
def setIn (margin line : List Char) : List Char := if line.isEmpty then [] else margin ++ line

theorem laid_lines {margin : List Char} (blanks : ∀ char ∈ margin, isBlank char)
    {parts : List (List (List Char))} {lines : List (List Char)}
    (each : List.Forall₂ IsLine parts lines) :
    Laid parts.flatten (lines.flatMap fun line => setIn margin line ++ ['\n']) := by
  induction each with
  | nil => exact .nil
  | @cons part line parts lines isLine each ih =>
    rw [List.flatten_cons, List.flatMap_cons]
    refine Laid.append ?_ ih
    rw [setIn]
    split
    · next empty =>
      have bare := isLine '\n' rfl
      rwa [List.isEmpty_iff.mp empty] at bare
    · rw [List.append_assoc]
      exact (Laid.blanks blanks).append (isLine '\n' rfl)

theorem mem_indentOf {indent : Nat} {char : Char} (member : char ∈ indentOf indent) : char = ' ' := by
  obtain ⟨unit, inUnits, inUnit⟩ := List.mem_flatten.mp member
  rw [List.eq_of_mem_replicate inUnits] at inUnit
  have unit : ∀ char ∈ indentUnit, char = ' ' := by decide
  exact unit char inUnit

theorem literalValue?_margin {margin : List Char} (spaces : ∀ char ∈ margin, char = ' ')
    (body : List Char) :
    literalValue? (margin ++ (docQuotes ++ body)) =
      match literalBody body with
      | some (value, []) => some value
      | _ => none := by
  have passed : (margin ++ (docQuotes ++ body)).dropWhile (· == ' ') = docQuotes ++ body := by
    rw [List.dropWhile_append_of_pos]
    · rfl
    · exact fun char member => beq_iff_eq.mpr (spaces char member)
  rw [literalValue?, passed]
  rfl

/-- The lines of a docstring that takes more than one, as they stand in a module. -/
theorem joinWith_docstring (margin first : List Char) (rest : List (List Char)) :
    joinWith ['\n'] (((docQuotes ++ first) :: rest ++ [docQuotes]).map (setIn margin)) =
      margin ++ (docQuotes ++ (first ++ ['\n'] ++
        rest.flatMap (fun line => setIn margin line ++ ['\n']) ++ margin ++ docQuotes)) := by
  have full (back : List Char) : setIn margin (docQuotes ++ back) = margin ++ (docQuotes ++ back) := rfl
  have last : setIn margin docQuotes = margin ++ docQuotes := rfl
  rw [List.map_append, List.map_singleton, joinWith_concat, List.map_cons, List.flatMap_cons,
    List.flatMap_map, full, last]
  simp

section Docstrings

variable {texts : List (List Char)}

/-- The escaped words of paragraphs are read as those of what the paragraphs are read as. -/
theorem denotes_words_of_paragraphs {found : List (List Char)}
    (known : ∀ paragraph ∈ found, paragraph ∈ paragraphs texts) :
    List.Forall₂ Denotes (found.flatMap fun paragraph => words (escapeDoc paragraph))
      (found.flatMap fun paragraph => words (readAs paragraph)) := by
  induction found with
  | nil => exact .nil
  | cons paragraph found ih =>
    rw [List.forall_mem_cons] at known
    rw [List.flatMap_cons, List.flatMap_cons]
    exact List.rel_append (denotes_words_escapeDoc known.1).1 (ih known.2)

theorem flatMap_words_readAs_ne_nil (notEmpty : paragraphs texts ≠ []) :
    ((paragraphs texts).flatMap fun paragraph => words (readAs paragraph)) ≠ [] := by
  intro none
  obtain ⟨paragraph, member⟩ := List.exists_mem_of_ne_nil _ notEmpty
  have length := (denotes_words_escapeDoc member).2.1
  rw [List.flatMap_eq_nil_iff.mp none paragraph member] at length
  exact (eq_joinWith_of_mem_paragraphs member).2 (List.eq_nil_of_length_eq_zero length.symm)

/-- In a docstring of several lines each paragraph has the words of what it is read as. -/
theorem exists_value_of_lines (width indent : Nat) (notEmpty : paragraphs texts ≠ []) :
    ∃ first rest value, paragraphLines width (paragraphs texts) = first :: rest ∧
      literalValue? (joinWith ['\n'] (((docQuotes ++ first) :: rest ++ [docQuotes]).map
        (setIn (indentOf indent)))) = some value ∧
      words value = (paragraphs texts).flatMap fun paragraph => words (readAs paragraph) := by
  have blanks : ∀ char ∈ indentOf indent, isBlank char := by
    intro char member
    rw [mem_indentOf member]
    rfl
  obtain ⟨parts, lines, all⟩ := exists_parts_paragraphLines width (paragraphs texts)
  have read := denotes_words_of_paragraphs fun (_ : List Char) (member : _ ∈ paragraphs texts) => member
  rw [← all] at read
  cases shape : paragraphLines width (paragraphs texts) with
  | nil =>
    rw [shape, List.forall₂_nil_right_iff] at lines
    rw [lines, List.flatten_nil, List.forall₂_nil_left_iff] at read
    exact absurd read (flatMap_words_readAs_ne_nil notEmpty)
  | cons first rest =>
    rw [shape] at lines
    cases lines with
    | @cons part line parts _ isLine lines =>
      have laid := ((isLine '\n' rfl).append (laid_lines blanks lines)).append (.blanks blanks)
      rw [List.append_nil, ← List.flatten_cons] at laid
      obtain ⟨value, laidValue, denotes⟩ := exists_read_of_laid laid read
      refine ⟨first, rest, value, rfl, ?_, laidValue.words_eq ?_⟩
      · rw [joinWith_docstring, literalValue?_margin fun _ => mem_indentOf, denotes]
        simp [continued, docQuotes, literalBody]
      · intro word member
        obtain ⟨paragraph, -, inParagraph⟩ := List.mem_flatMap.mp member
        exact isWord_of_mem_words inParagraph

/-- The words that paragraphs are read as are their own when no paragraph is read as another. -/
theorem flatMap_words_readAs_eq_iff {found : List (List Char)}
    (known : ∀ paragraph ∈ found, paragraph ∈ paragraphs texts) :
    (found.flatMap fun paragraph => words (readAs paragraph)) = found.flatMap words ↔
      ∀ paragraph ∈ found, ¬ EndsInTriples paragraph := by
  induction found with
  | nil => simp
  | cons paragraph found ih =>
    rw [List.forall_mem_cons] at known ⊢
    obtain ⟨-, length, same⟩ := denotes_words_escapeDoc known.1
    rw [List.flatMap_cons, List.flatMap_cons, ← ih known.2, ← same]
    constructor
    · exact fun all => List.append_inj all length
    · exact fun ⟨first, rest⟩ => by rw [first, rest]

/-- The text of the lines says a list of words: it is one literal, whose value has those words. -/
def States (lines : List (List Char)) (said : List (List Char)) : Prop :=
  ∃ value, literalValue? (joinWith ['\n'] lines) = some value ∧ words value = said

/-- A docstring on one line is one literal unless the closing quotes take a bare quote for theirs. -/
theorem states_alone_iff {paragraph : List Char} (indent : Nat) :
    States ([docQuotes ++ escapeDoc paragraph ++ docQuotes].map (setIn (indentOf indent)))
      (words paragraph) ↔ ¬ EndsInTriples paragraph := by
  have line : joinWith ['\n'] ([docQuotes ++ escapeDoc paragraph ++ docQuotes].map
      (setIn (indentOf indent))) =
      indentOf indent ++ (docQuotes ++ (escapeDoc paragraph ++ docQuotes)) := rfl
  rw [States, line, literalValue?_margin fun _ => mem_indentOf]
  by_cases triples : EndsInTriples paragraph
  · obtain ⟨value, read⟩ := literalBody_of_endsInTriples triples
    rw [read]
    simp [triples]
  · have read := denotesAnywhere_escapeDoc triples docQuotes
    rw [read]
    simp [triples, continued, docQuotes, literalBody]

theorem states_docstringLines_iff (indent : Nat) (notEmpty : paragraphs texts ≠ []) :
    States ((docstringLines texts indent).map (setIn (indentOf indent)))
        ((paragraphs texts).flatMap words) ↔
      ∀ paragraph ∈ paragraphs texts, ¬ EndsInTriples paragraph := by
  have several := fun width => exists_value_of_lines width indent notEmpty
  have same := flatMap_words_readAs_eq_iff fun (_ : List Char) (member : _ ∈ paragraphs texts) => member
  rw [docstringLines]
  generalize paragraphs texts = found at notEmpty several same
  cases found with
  | nil => contradiction
  | cons paragraph others =>
    dsimp only
    split
    · next alone =>
      rw [Bool.and_eq_true, beq_iff_eq] at alone
      obtain rfl := List.eq_nil_of_length_eq_zero (Nat.succ.inj alone.1)
      rw [List.headD_cons, List.flatMap_singleton, List.forall_mem_singleton]
      exact states_alone_iff indent
    · obtain ⟨first, rest, value, lines, read, shown⟩ := several _
      rw [lines, States]
      dsimp only
      rw [read, ← same, ← shown]
      simp

end Docstrings

/-- A docstring is one literal with the words of its texts, unless a paragraph ends in triples of
quotes. -/
theorem docstring_states_texts_iff (buffer : Buffer) {texts : List String} (indent : Nat)
    (shown : ∃ text ∈ texts, ∃ char ∈ text.toList, ¬ isBlank char) :
    ∃ added : List String,
      (buffer.apply (.docstring texts indent)).lines = buffer.lines ++ added ∧
      ((∃ value, literalValue? ("\n".intercalate added).toList = some value ∧
          words value = texts.flatMap fun text => words text.toList) ↔
        ∀ paragraph ∈ paragraphs (texts.map String.toList), ¬ EndsInTriples paragraph) := by
  obtain ⟨text, inTexts, char, inText, solid⟩ := shown
  obtain ⟨paragraph, member, -⟩ := exists_mem_paragraphs solid (List.mem_map_of_mem inTexts) inText
  have said : (texts.flatMap fun text => words text.toList) =
      (paragraphs (texts.map String.toList)).flatMap words := by
    rw [flatMap_words_paragraphs, List.flatMap_map]
  have setLine (line : List Char) :
      (Buffer.indented (String.ofList line) indent).toList = setIn (indentOf indent) line := by
    rw [Buffer.indented, setIn]
    cases line with
    | nil => rfl
    | cons char line => simp
  have lines : List.map String.toList ((docstringLines (texts.map String.toList) indent).map
      fun line => Buffer.indented (String.ofList line) indent) =
      (docstringLines (texts.map String.toList) indent).map (setIn (indentOf indent)) := by
    rw [List.map_map]
    exact List.map_congr_left fun line _ => setLine line
  refine ⟨_, rfl, ?_⟩
  rw [String.toList_intercalate, ← joinWith_eq_intercalate, said, lines]
  exact states_docstringLines_iff indent (List.ne_nil_of_mem member)

/-- A text that ends with one quote is said, and one that ends with three is not. -/
theorem docstrings_of_quoted_texts :
    (∃ added : List String,
      ((Buffer.new "").apply (.docstring ["Say \"hi\""] 1)).lines = (Buffer.new "").lines ++ added ∧
      ∃ value, literalValue? ("\n".intercalate added).toList = some value ∧
        words value = [['S', 'a', 'y'], ['"', 'h', 'i', '"']]) ∧
    ∃ added : List String,
      ((Buffer.new "").apply (.docstring ["Say \"\"\""] 1)).lines = (Buffer.new "").lines ++ added ∧
      ¬ ∃ value, literalValue? ("\n".intercalate added).toList = some value ∧
        words value = [['S', 'a', 'y'], ['"', '"', '"']] := by
  constructor
  · obtain ⟨added, lines, stated⟩ := @docstring_states_texts_iff (.new "") ["Say \"hi\""] 1
      ⟨_, List.mem_cons_self, 'S', by decide, by decide⟩
    exact ⟨added, lines, stated.mpr (by decide)⟩
  · obtain ⟨added, lines, stated⟩ := @docstring_states_texts_iff (.new "") ["Say \"\"\""] 1
      ⟨_, List.mem_cons_self, 'S', by decide, by decide⟩
    exact ⟨added, lines, mt stated.mp (by decide)⟩

end ProtocolGen.Source
