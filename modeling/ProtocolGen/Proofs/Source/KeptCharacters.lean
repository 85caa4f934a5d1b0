import ProtocolGen.Proofs.Source.Buffers
import ProtocolGen.Proofs.Source.Lines
import ProtocolGen.Proofs.Source.NullCharacters

/-!
# Characters that documentation keeps

A character of a documentation text that is neither a blank nor one of those that are escaped stands in
the lines that the text is written in. No line is lost when a buffer is rendered, so a null character in
a docstring, a comment or a heading is one in the text of the module.
-/

set_option autoImplicit false

namespace ProtocolGen.Source

open ProtocolGen.Text

/-! ## Cutting, joining and replacing -/

section Pieces

variable {char : Char} {separator : List Char}

/-- A piece has each character that is not the separator's. The characters to skip are its rest. -/
theorem exists_mem_splitFrom (notEmpty : separator ≠ []) (other : char ∉ separator)
    {piece chars : List Char} {skip : Nat} (skipped : chars.take skip ⊆ separator)
    (member : char ∈ piece ∨ char ∈ chars) :
    ∃ part ∈ splitFrom separator piece skip chars, char ∈ part := by
  fun_induction splitFrom separator piece skip chars with
  | case1 piece =>
    have inPiece : char ∈ piece := member.resolve_right List.not_mem_nil
    exact ⟨piece.reverse, List.mem_cons_self, List.mem_reverse.mpr inPiece⟩
  | case2 piece skip first rest ih =>
    rw [List.take_succ_cons, List.cons_subset] at skipped
    refine ih skipped.2 (member.imp_right fun inChars => ?_)
    rcases List.mem_cons.mp inChars with rfl | later
    · exact absurd skipped.1 other
    · exact later
  | case3 piece first rest found ih =>
    rcases member with inPiece | inChars
    · exact ⟨piece.reverse, List.mem_cons_self, List.mem_reverse.mpr inPiece⟩
    · obtain ⟨after, start⟩ := Option.isSome_iff_exists.mp found
      obtain ⟨head, tail, rfl⟩ := List.exists_cons_of_ne_nil notEmpty
      obtain ⟨rfl, rfl⟩ := List.cons.inj (eq_append_of_afterStart? start)
      have inRest : char ∈ tail ++ after := by
        rcases List.mem_cons.mp inChars with rfl | later
        · exact absurd List.mem_cons_self other
        · exact later
      obtain ⟨part, inParts, inPart⟩ := ih (by simp) (.inr inRest)
      exact ⟨part, List.mem_cons_of_mem _ inParts, inPart⟩
  | case4 piece first rest absent ih => exact ih (by simp) (mem_begun_or_rest_iff.mpr member)

theorem exists_mem_splitOn (notEmpty : separator ≠ []) (other : char ∉ separator)
    {chars : List Char} (member : char ∈ chars) : ∃ part ∈ splitOn separator chars, char ∈ part :=
  exists_mem_splitFrom notEmpty other (by simp) (.inr member)

theorem mem_joinWith_of_mem {piece : List Char} {pieces : List (List Char)}
    (inPieces : piece ∈ pieces) (inPiece : char ∈ piece) : char ∈ joinWith separator pieces := by
  fun_induction joinWith separator pieces with
  | case1 => cases inPieces
  | case2 only =>
    rw [← List.mem_singleton.mp inPieces]
    exact inPiece
  | case3 first rest _ ih =>
    rcases List.mem_cons.mp inPieces with rfl | later
    · exact List.mem_append_left _ (List.mem_append_left _ inPiece)
    · exact List.mem_append_right _ (ih later)

theorem mem_replaceAll_of_mem {pattern replacement chars : List Char} (notEmpty : pattern ≠ [])
    (other : char ∉ pattern) (member : char ∈ chars) :
    char ∈ replaceAll pattern replacement chars := by
  obtain ⟨part, inParts, inPart⟩ := exists_mem_splitOn notEmpty other member
  exact mem_joinWith_of_mem inParts inPart

theorem mem_trimEnd_of_mem {chars : List Char} (solid : ¬ isBlank char) (member : char ∈ chars) :
    char ∈ trimEnd chars := by
  rw [trimEnd, dropEndWhile_eq_rdropWhile]
  induction chars using List.reverseRecOn with
  | nil => cases member
  | append_singleton chars last ih =>
    by_cases blank : isBlank last
    · rw [List.rdropWhile_concat_pos _ _ _ blank]
      rcases List.mem_append.mp member with before | atEnd
      · exact ih before
      · rw [List.mem_singleton.mp atEnd] at solid
        exact absurd blank solid
    · rwa [List.rdropWhile_concat_neg _ _ _ blank]

theorem mem_trim_of_mem {chars : List Char} (solid : ¬ isBlank char) (member : char ∈ chars) :
    char ∈ trim chars := by
  refine mem_trimEnd_of_mem solid ?_
  rw [← List.takeWhile_append_dropWhile (p := isBlank) (l := chars)] at member
  rcases List.mem_append.mp member with before | after
  · exact absurd (List.mem_takeWhile_imp before) solid
  · exact after

end Pieces

/-! ## Words and lines -/

section Documentation

variable {char : Char}

theorem exists_mem_wordsFrom (solid : ¬ isBlank char) {piece chars : List Char}
    (member : char ∈ piece ∨ char ∈ chars) : ∃ word ∈ wordsFrom piece chars, char ∈ word := by
  fun_induction wordsFrom piece chars with
  | case1 piece empty =>
    rw [List.isEmpty_iff.mp empty] at member
    exact absurd member (by simp)
  | case2 piece _ =>
    have inPiece : char ∈ piece := member.resolve_right List.not_mem_nil
    exact ⟨piece.reverse, List.mem_cons_self, List.mem_reverse.mpr inPiece⟩
  | case3 piece first rest blank empty ih =>
    refine ih (.inr ?_)
    rw [List.isEmpty_iff.mp empty] at member
    rcases List.mem_cons.mp (member.resolve_left List.not_mem_nil) with rfl | later
    · exact absurd blank solid
    · exact later
  | case4 piece first rest blank _ ih =>
    rcases member with inPiece | inChars
    · exact ⟨piece.reverse, List.mem_cons_self, List.mem_reverse.mpr inPiece⟩
    · rcases List.mem_cons.mp inChars with rfl | later
      · exact absurd blank solid
      · obtain ⟨word, inWords, inWord⟩ := ih (.inr later)
        exact ⟨word, List.mem_cons_of_mem _ inWords, inWord⟩
  | case5 piece first rest _ ih => exact ih (mem_begun_or_rest_iff.mpr member)

theorem exists_mem_words (solid : ¬ isBlank char) {chars : List Char} (member : char ∈ chars) :
    ∃ word ∈ words chars, char ∈ word :=
  exists_mem_wordsFrom solid (.inr member)

theorem exists_mem_wrap (solid : ¬ isBlank char) (width : Nat) {chars : List Char}
    (member : char ∈ chars) : ∃ line ∈ wrap width chars, char ∈ line := by
  obtain ⟨word, inWords, inWord⟩ := exists_mem_words solid member
  obtain ⟨lines, filled⟩ := filled_rowsOf width chars
  rw [← filled.all] at inWords
  obtain ⟨row, inRows, inRow⟩ := List.mem_flatten.mp inWords
  rw [lines]
  exact ⟨joinWith [' '] row, List.mem_map_of_mem inRows, mem_joinWith_of_mem inRow inWord⟩

theorem exists_mem_paragraphs (solid : ¬ isBlank char) {texts : List (List Char)} {text : List Char}
    (inTexts : text ∈ texts) (member : char ∈ text) :
    ∃ paragraph ∈ paragraphs texts, char ∈ paragraph := by
  have notFeed : char ≠ '\n' := fun same => solid (same ▸ by decide)
  have notReturn : char ≠ '\r' := fun same => solid (same ▸ by decide)
  have unified : char ∈ replaceAll ['\r', '\n'] ['\n'] text :=
    mem_replaceAll_of_mem (by simp) (by simp [notFeed, notReturn]) member
  have otherThanBreak : char ∉ ['\n', '\n'] := by simp [notFeed]
  obtain ⟨chunk, inChunks, inChunk⟩ := exists_mem_splitOn (by simp) otherThanBreak unified
  obtain ⟨word, inWords, inWord⟩ := exists_mem_words solid inChunk
  have joined : char ∈ joinWith [' '] (words chunk) := mem_joinWith_of_mem inWords inWord
  refine ⟨joinWith [' '] (words chunk), List.mem_flatMap.mpr ⟨text, inTexts, ?_⟩, joined⟩
  refine List.mem_filterMap.mpr ⟨chunk, inChunks, ?_⟩
  dsimp only
  rw [if_neg]
  intro empty
  rw [List.isEmpty_iff.mp empty] at joined
  cases joined

theorem mem_escapeDoc_of_mem (notSlash : char ≠ '\\') (notQuote : char ≠ '"') {text : List Char}
    (member : char ∈ text) : char ∈ escapeDoc text := by
  have escaped : char ∈ replaceAll ['"', '"', '"'] ['\\', '"', '\\', '"', '\\', '"']
      (replaceAll ['\\'] ['\\', '\\'] text) :=
    mem_replaceAll_of_mem (by simp) (by simp [notQuote])
      (mem_replaceAll_of_mem (by simp) (by simp [notSlash]) member)
  unfold escapeDoc
  dsimp only
  split
  · next last =>
    rw [← List.dropLast_append_getLast? _ last] at escaped
    rcases List.mem_append.mp escaped with front | atEnd
    · exact List.mem_append_left _ front
    · exact absurd (List.mem_singleton.mp atEnd) notQuote
  · exact escaped

/-! ## Docstrings and comments -/

variable (solid : ¬ isBlank char) (notSlash : char ≠ '\\') (notQuote : char ≠ '"')

include solid notSlash notQuote

theorem exists_mem_paragraphLines (width : Nat) {paragraphs : List (List Char)}
    {paragraph : List Char} (inParagraphs : paragraph ∈ paragraphs) (member : char ∈ paragraph) :
    ∃ line ∈ paragraphLines width paragraphs, char ∈ line := by
  have wrapped {paragraph : List Char} (member : char ∈ paragraph) :
      ∃ line ∈ wrap width (escapeDoc paragraph), char ∈ line :=
    exists_mem_wrap solid width (mem_escapeDoc_of_mem notSlash notQuote member)
  fun_induction paragraphLines width paragraphs with
  | case1 => cases inParagraphs
  | case2 only =>
    rw [List.mem_singleton.mp inParagraphs] at member
    exact wrapped member
  | case3 first rest _ ih =>
    rcases List.mem_cons.mp inParagraphs with rfl | later
    · obtain ⟨line, inLines, inLine⟩ := wrapped member
      exact ⟨line, List.mem_append_left _ inLines, inLine⟩
    · obtain ⟨line, inLines, inLine⟩ := ih later
      exact ⟨line, List.mem_append_right _ (List.mem_cons_of_mem _ inLines), inLine⟩

theorem exists_mem_docstringLines {texts : List (List Char)} {indent : Nat} {text : List Char}
    (inTexts : text ∈ texts) (member : char ∈ text) :
    ∃ line ∈ docstringLines texts indent, char ∈ line := by
  obtain ⟨paragraph, inParagraphs, inParagraph⟩ := exists_mem_paragraphs solid inTexts member
  unfold docstringLines
  dsimp only
  split
  · next none =>
    rw [none] at inParagraphs
    cases inParagraphs
  · next notEmpty =>
    split
    · next alone =>
      have single : (paragraphs texts).length = 1 := by
        rw [Bool.and_eq_true, beq_iff_eq] at alone
        exact alone.1
      obtain ⟨only, same⟩ := List.length_eq_one_iff.mp single
      rw [same] at inParagraphs ⊢
      rw [List.mem_singleton.mp inParagraphs] at inParagraph
      refine ⟨_, List.mem_cons_self, List.mem_append_left _ (List.mem_append_right _ ?_)⟩
      exact mem_escapeDoc_of_mem notSlash notQuote inParagraph
    · obtain ⟨line, inLines, inLine⟩ := exists_mem_paragraphLines solid notSlash notQuote
        (fillWidth (indentOf indent).length - 3) inParagraphs inParagraph
      split
      · next none =>
        rw [none] at inLines
        cases inLines
      · next first rest found =>
        rw [found] at inLines
        rcases List.mem_cons.mp inLines with rfl | later
        · exact ⟨docQuotes ++ line, List.mem_append_left _ List.mem_cons_self,
            List.mem_append_right _ inLine⟩
        · exact ⟨line, List.mem_append_left _ (List.mem_cons_of_mem _ later), inLine⟩

omit notSlash notQuote in
theorem exists_mem_commentLines {texts : List (List Char)} {indent : Nat} {mark text : List Char}
    (inTexts : text ∈ texts) (member : char ∈ text) :
    ∃ line ∈ commentLines texts indent mark, char ∈ line := by
  obtain ⟨paragraph, inParagraphs, inParagraph⟩ := exists_mem_paragraphs solid inTexts member
  obtain ⟨line, inLines, inLine⟩ := exists_mem_wrap solid
    (fillWidth ((indentOf indent).length + mark.length + 1)) inParagraph
  refine ⟨mark ++ ' ' :: line, List.mem_flatMap.mpr ⟨paragraph, inParagraphs, ?_⟩, ?_⟩
  · exact List.mem_map_of_mem inLines
  · exact List.mem_append_right _ (List.mem_cons_of_mem _ inLine)

end Documentation

/-! ## Buffers -/

namespace Buffer

variable {char : Char} {buffer : Buffer}

theorem exists_mem_addLines {indent : Nat} {lines : List (List Char)} {line : List Char}
    (inLines : line ∈ lines) (member : char ∈ line) :
    ∃ added ∈ (buffer.addLines indent lines).lines, char ∈ added.toList := by
  have notEmpty : String.ofList line ≠ "" := by
    intro empty
    have chars := congrArg String.toList empty
    rw [String.toList_ofList] at chars
    rw [chars] at member
    cases member
  refine ⟨indented (String.ofList line) indent, ?_, ?_⟩
  · rw [← Array.mem_toList_iff, addLines, Array.toList_appendList]
    exact List.mem_append_right _ (List.mem_map_of_mem inLines)
  · rw [toList_indented indent notEmpty, String.toList_ofList]
    exact List.mem_append_right _ member

theorem heading_applyAll (edits : List Edit) (headed : buffer.heading.isSome) :
    (buffer.applyAll edits).heading = buffer.heading := by
  have step {buffer : Buffer} (headed : buffer.heading.isSome) (edit : Edit) :
      (buffer.apply edit).heading = buffer.heading := by
    cases edit with
    | header docstring => rw [apply, if_pos headed]
    | require module names => cases names <;> rfl
    | declare | line | blank | docstring | comment => rfl
  induction edits generalizing buffer with
  | nil => rfl
  | cons edit edits ih => rw [applyAll_cons, ih (by rwa [step headed]), step headed]

theorem mem_render_of_mem (solid : ¬ isBlank char) {line : String}
    (inLines : line ∈ buffer.topLines ++ buffer.bodyLines) (member : char ∈ line.toList) :
    char ∈ buffer.render.toList := by
  rw [render, String.toList_ofList, String.toList_intercalate, ← joinWith_eq_intercalate]
  refine List.mem_append_left _ (mem_trimEnd_of_mem solid ?_)
  exact mem_joinWith_of_mem (List.mem_map_of_mem inLines) member

theorem mem_render_of_line (solid : ¬ isBlank char) {line : String} (inLines : line ∈ buffer.lines)
    (member : char ∈ line.toList) : char ∈ buffer.render.toList := by
  have full : ¬ line.isEmpty := by
    rintro empty
    rw [String.isEmpty_iff.mp empty] at member
    cases member
  exact mem_render_of_mem solid (List.mem_append_right _ (mem_bodyLines inLines full)) member

theorem mem_render_of_heading (solid : ¬ isBlank char) (notSlash : char ≠ '\\')
    (notQuote : char ≠ '"') {docstring : String} (heading : buffer.heading = some (some docstring))
    (member : char ∈ docstring.toList) : char ∈ buffer.render.toList := by
  have full : ¬ docstring.isEmpty := by
    rintro empty
    rw [String.isEmpty_iff.mp empty] at member
    cases member
  have inTop : String.ofList (docQuotes ++ escapeDoc docstring.toList ++ docQuotes) ∈
      buffer.topLines := by
    have lines : buffer.headingLines =
        [String.ofList (docQuotes ++ escapeDoc docstring.toList ++ docQuotes)] := by
      rw [headingLines, heading]
      exact if_neg full
    rw [topLines, lines]
    simp
  refine mem_render_of_mem solid (List.mem_append_left _ inTop) ?_
  rw [String.toList_ofList]
  exact List.mem_append_left _
    (List.mem_append_right _ (mem_escapeDoc_of_mem notSlash notQuote member))

end Buffer

/-! ## Null characters -/

/-- The texts of an edit that document code, apart from headings. -/
def Edit.documentation : Edit → List String
  | .docstring texts _ | .comment texts _ _ => texts
  | _ => []

/-- The texts of an edit that are code, or mark a comment. -/
def Edit.codeTexts : Edit → List String
  | .require module names => module :: names
  | .line text _ => [text]
  | .comment _ _ mark => [mark]
  | _ => []

def CodeIsNullFree (edits : List Edit) : Prop := ∀ edit ∈ edits, ∀ text ∈ edit.codeTexts, NullFree text

def DocumentationIsNullFree (edits : List Edit) : Prop :=
  ∀ edit ∈ edits, ∀ text ∈ edit.documentation, NullFree text

theorem solid_nullCharacter : ¬ isBlank nullCharacter := by decide

theorem exists_null_of_documentation (buffer : Buffer) {edit : Edit} {text : String}
    (inTexts : text ∈ edit.documentation) (null : ¬ NullFree text) :
    ∃ line ∈ (buffer.apply edit).lines, ¬ NullFree line := by
  have member : nullCharacter ∈ text.toList := not_not.mp null
  have kept {lines : List (List Char)} (indent : Nat) (found : ∃ line ∈ lines, nullCharacter ∈ line) :
      ∃ line ∈ (buffer.addLines indent lines).lines, ¬ NullFree line := by
    obtain ⟨line, inLines, inLine⟩ := found
    obtain ⟨added, inAdded, found⟩ := Buffer.exists_mem_addLines inLines inLine
    exact ⟨added, inAdded, not_not.mpr found⟩
  cases edit with
  | docstring texts indent =>
    exact kept indent (exists_mem_docstringLines solid_nullCharacter (by decide) (by decide)
      (List.mem_map_of_mem inTexts) member)
  | comment texts indent mark =>
    exact kept indent (exists_mem_commentLines solid_nullCharacter (List.mem_map_of_mem inTexts)
      member)
  | header | declare | require | line | blank => cases inTexts

/-- Behind a heading, other headings do not count. -/
theorem Buffer.IsNullFree.applyAll_headed {buffer : Buffer} {edits : List Edit}
    (free : buffer.IsNullFree) (headed : buffer.heading.isSome) (code : CodeIsNullFree edits)
    (documentation : DocumentationIsNullFree edits) : (buffer.applyAll edits).IsNullFree := by
  induction edits generalizing buffer with
  | nil => exact free
  | cons edit edits ih =>
    rw [CodeIsNullFree, List.forall_mem_cons] at code
    rw [DocumentationIsNullFree, List.forall_mem_cons] at documentation
    have headedNext : (buffer.apply edit).heading.isSome := by
      rwa [show buffer.apply edit = buffer.applyAll [edit] from rfl, Buffer.heading_applyAll _ headed]
    refine ih ?_ headedNext code.2 documentation.2
    cases edit with
    | header docstring => rwa [Buffer.apply, if_pos headed]
    | declare | blank => exact free.apply (List.forall_mem_nil _)
    | require module names => exact free.apply code.1
    | line text indent => exact free.apply code.1
    | docstring texts indent => exact free.apply documentation.1
    | comment texts indent mark =>
      exact free.apply (List.forall_mem_cons.mpr ⟨code.1 mark List.mem_cons_self, documentation.1⟩)

/-- The text of a module whose code is free of null characters has one just where its heading or its
documentation has. -/
theorem nullFree_render_iff {heading : String} {edits : List Edit} (runtimeModule : String)
    (code : CodeIsNullFree edits) :
    NullFree ((Buffer.new runtimeModule).applyAll (.header (some heading) :: edits)).render ↔
      NullFree heading ∧ DocumentationIsNullFree edits := by
  rw [Buffer.applyAll_cons]
  constructor
  · intro free
    constructor
    · refine fun null => free (Buffer.mem_render_of_heading solid_nullCharacter (by decide)
        (by decide) ?_ null)
      exact Buffer.heading_applyAll edits rfl
    · intro edit inEdits text inTexts
      by_contra null
      obtain ⟨before, after, rfl⟩ := List.append_of_mem inEdits
      obtain ⟨line, inLines, nullLine⟩ := exists_null_of_documentation
        (((Buffer.new runtimeModule).apply (.header (some heading))).applyAll before)
        inTexts null
      rw [Buffer.applyAll, List.foldl_append] at free
      exact free (Buffer.mem_render_of_line solid_nullCharacter
        (Buffer.mem_lines_applyAll after inLines) (not_not.mp nullLine))
  · rintro ⟨headingFree, documentation⟩
    have headed : ((Buffer.new runtimeModule).apply (.header (some heading))).IsNullFree :=
      (Buffer.isNullFree_new runtimeModule).apply (by simpa [Edit.texts] using headingFree)
    exact (headed.applyAll_headed rfl code documentation).render

end ProtocolGen.Source
