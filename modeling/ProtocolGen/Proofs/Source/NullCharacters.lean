import ProtocolGen.Proofs.Text.Filling
import ProtocolGen.Proofs.Text.SortedSets
import ProtocolGen.Proofs.Text.Splitting
import ProtocolGen.Source.Buffer
import ProtocolGen.Source.Formatter

/-!
# Texts without null characters

The standard formatter breaks down on null characters only. What is written of a buffer has the
characters of its lines, imports and heading and a few of its own, and the lines that edits add have
those of the edits. So edits without null characters render to a text that has none.
-/

set_option autoImplicit false

namespace ProtocolGen.Source

open ProtocolGen.Text

def nullCharacter : Char := '\x00'

def NullFree (text : String) : Prop := nullCharacter ∉ text.toList

instance (text : String) : Decidable (NullFree text) :=
  inferInstanceAs (Decidable (nullCharacter ∉ text.toList))

theorem nullFree_append_iff {text other : String} :
    NullFree (text ++ other) ↔ NullFree text ∧ NullFree other := by
  rw [NullFree, String.toList_append, List.mem_append, not_or, NullFree, NullFree]

theorem nullFree_ofList_iff {chars : List Char} :
    NullFree (String.ofList chars) ↔ nullCharacter ∉ chars := by
  rw [NullFree, String.toList_ofList]

/-- A text that is written out. The characters of the literal are at hand, so none has to be read from
the literal's bytes. -/
@[simp] theorem nullFree_literal {chars : List Char} (free : nullCharacter ∉ chars) :
    NullFree (no_index (String.ofList chars)) := nullFree_ofList_iff.mpr free

theorem nullFree_intercalate {separator : String} {texts : List String}
    (free : NullFree separator) (others : ∀ text ∈ texts, NullFree text) :
    NullFree (separator.intercalate texts) := by
  induction texts with
  | nil => simp [NullFree]
  | cons text texts ih =>
    rw [List.forall_mem_cons] at others
    cases texts with
    | nil => simpa using others.1
    | cons second rest =>
      rw [String.intercalate_cons_cons, nullFree_append_iff, nullFree_append_iff]
      exact ⟨⟨others.1, free⟩, ih others.2⟩

/-! ## The characters of pieces of text -/

/-- A reader that takes the first character to what it has begun loses none and brings in none. -/
theorem mem_begun_or_rest_iff {first char : Char} {begun rest : List Char} :
    char ∈ first :: begun ∨ char ∈ rest ↔ char ∈ begun ∨ char ∈ first :: rest := by
  rw [List.mem_cons, List.mem_cons, or_assoc, or_left_comm]

theorem mem_splitFrom_chars {separator piece chars part : List Char} {skip : Nat} {char : Char}
    (member : part ∈ splitFrom separator piece skip chars) (inPart : char ∈ part) :
    char ∈ piece ∨ char ∈ chars := by
  fun_induction splitFrom separator piece skip chars with
  | case1 =>
    rw [List.mem_singleton.mp member, List.mem_reverse] at inPart
    exact .inl inPart
  | case2 piece skip first rest ih => exact (ih member).imp_right (List.mem_cons_of_mem first)
  | case3 piece first rest found ih =>
    rcases List.mem_cons.mp member with rfl | later
    · exact .inl (List.mem_reverse.mp inPart)
    · rcases ih later with none | inRest
      · cases none
      · exact .inr (List.mem_cons_of_mem first inRest)
  | case4 piece first rest absent ih => exact mem_begun_or_rest_iff.mp (ih member)

theorem mem_joinWith {separator : List Char} {pieces : List (List Char)} {char : Char}
    (member : char ∈ joinWith separator pieces) :
    char ∈ separator ∨ ∃ piece ∈ pieces, char ∈ piece := by
  fun_induction joinWith separator pieces with
  | case1 => cases member
  | case2 piece => exact .inr ⟨piece, List.mem_cons_self, member⟩
  | case3 piece pieces _ ih =>
    simp only [List.mem_append] at member
    rcases member with (inPiece | inSeparator) | later
    · exact .inr ⟨piece, List.mem_cons_self, inPiece⟩
    · exact .inl inSeparator
    · rcases ih later with inSeparator | ⟨other, inPieces, inOther⟩
      · exact .inl inSeparator
      · exact .inr ⟨other, List.mem_cons_of_mem _ inPieces, inOther⟩

theorem mem_replaceAll {pattern replacement chars : List Char} {char : Char}
    (member : char ∈ replaceAll pattern replacement chars) : char ∈ replacement ∨ char ∈ chars := by
  rcases mem_joinWith member with inReplacement | ⟨part, inParts, inPart⟩
  · exact .inl inReplacement
  · rcases mem_splitFrom_chars inParts inPart with none | inChars
    · cases none
    · exact .inr inChars

theorem mem_escapeDoc {text : List Char} {char : Char} (member : char ∈ escapeDoc text) :
    char ∈ ['\\', '"'] ∨ char ∈ text := by
  have quotes : ['\\', '"', '\\', '"', '\\', '"'] ⊆ ['\\', '"'] := by simp
  have backslashes : ['\\', '\\'] ⊆ ['\\', '"'] := by simp
  have escaped (inQuotes : char ∈ replaceAll ['"', '"', '"'] ['\\', '"', '\\', '"', '\\', '"']
      (replaceAll ['\\'] ['\\', '\\'] text)) : char ∈ ['\\', '"'] ∨ char ∈ text := by
    rcases mem_replaceAll inQuotes with inReplacement | inBackslashes
    · exact .inl (quotes inReplacement)
    · rcases mem_replaceAll inBackslashes with inReplacement | inText
      · exact .inl (backslashes inReplacement)
      · exact .inr inText
  unfold escapeDoc at member
  dsimp only at member
  split at member
  · rcases List.mem_append.mp member with front | last
    · exact escaped (List.dropLast_subset _ front)
    · exact .inl last
  · exact escaped member

/-! ## The characters of documentation -/

theorem mem_wordsFrom {piece word chars : List Char} {char : Char}
    (member : word ∈ wordsFrom piece chars) (inWord : char ∈ word) : char ∈ piece ∨ char ∈ chars := by
  fun_induction wordsFrom piece chars with
  | case1 => cases member
  | case2 =>
    rw [List.mem_singleton.mp member, List.mem_reverse] at inWord
    exact .inl inWord
  | case3 _ first rest _ _ ih =>
    rcases ih member with none | inRest
    · cases none
    · exact .inr (List.mem_cons_of_mem first inRest)
  | case4 piece first rest _ _ ih =>
    rcases List.mem_cons.mp member with rfl | later
    · exact .inl (List.mem_reverse.mp inWord)
    · rcases ih later with none | inRest
      · cases none
      · exact .inr (List.mem_cons_of_mem first inRest)
  | case5 piece first rest _ ih => exact mem_begun_or_rest_iff.mp (ih member)

theorem mem_words {word chars : List Char} {char : Char} (member : word ∈ words chars)
    (inWord : char ∈ word) : char ∈ chars :=
  (mem_wordsFrom member inWord).resolve_left List.not_mem_nil

theorem mem_wrap {width : Nat} {line chars : List Char} {char : Char}
    (member : line ∈ wrap width chars) (inLine : char ∈ line) : char = ' ' ∨ char ∈ chars := by
  obtain ⟨lines, filled⟩ := filled_rowsOf width chars
  rw [lines] at member
  obtain ⟨row, inRows, rfl⟩ := List.mem_map.mp member
  rcases mem_joinWith inLine with space | ⟨word, inRow, inWord⟩
  · exact .inl (List.mem_singleton.mp space)
  · have known : word ∈ words chars := filled.all ▸ List.mem_flatten.mpr ⟨row, inRows, inRow⟩
    exact .inr (mem_words known inWord)

/-- The characters that documentation is written with beside those of its texts. -/
def documentationChars : List Char := [' ', '\n', '\\', '"']

theorem mem_paragraphs {texts : List (List Char)} {paragraph : List Char} {char : Char}
    (member : paragraph ∈ paragraphs texts) (inParagraph : char ∈ paragraph) :
    char ∈ documentationChars ∨ ∃ text ∈ texts, char ∈ text := by
  have separators : [' '] ⊆ documentationChars ∧ ['\n'] ⊆ documentationChars := by decide
  obtain ⟨text, inTexts, inText⟩ := List.mem_flatMap.mp member
  obtain ⟨chunk, inChunks, kept⟩ := List.mem_filterMap.mp inText
  have joined : joinWith [' '] (words chunk) = paragraph := by simp_all
  rw [← joined] at inParagraph
  rcases mem_joinWith inParagraph with inSeparator | ⟨word, inWords, inWord⟩
  · exact .inl (separators.1 inSeparator)
  · rcases mem_splitFrom_chars inChunks (mem_words inWords inWord) with none | inUnified
    · cases none
    · rcases mem_replaceAll inUnified with inReplacement | inChars
      · exact .inl (separators.2 inReplacement)
      · exact .inr ⟨text, inTexts, inChars⟩

theorem mem_escaped {text : List Char} {char : Char} (member : char ∈ escapeDoc text) :
    char ∈ documentationChars ∨ char ∈ text :=
  (mem_escapeDoc member).imp_left fun special =>
    (by simp [documentationChars] : ['\\', '"'] ⊆ documentationChars) special

theorem mem_wrap_escaped {width : Nat} {paragraph line : List Char} {char : Char}
    (member : line ∈ wrap width (escapeDoc paragraph)) (inLine : char ∈ line) :
    char ∈ documentationChars ∨ char ∈ paragraph := by
  rcases mem_wrap member inLine with rfl | inEscaped
  · exact .inl List.mem_cons_self
  · exact mem_escaped inEscaped

theorem mem_paragraphLines {width : Nat} {paragraphs : List (List Char)} {line : List Char}
    {char : Char} (member : line ∈ paragraphLines width paragraphs) (inLine : char ∈ line) :
    char ∈ documentationChars ∨ ∃ paragraph ∈ paragraphs, char ∈ paragraph := by
  fun_induction paragraphLines width paragraphs with
  | case1 => cases member
  | case2 paragraph =>
    exact (mem_wrap_escaped member inLine).imp_right fun found =>
      ⟨paragraph, List.mem_cons_self, found⟩
  | case3 paragraph paragraphs _ ih =>
    rcases List.mem_append.mp member with inFirst | inRest
    · exact (mem_wrap_escaped inFirst inLine).imp_right fun found =>
        ⟨paragraph, List.mem_cons_self, found⟩
    · rcases List.mem_cons.mp inRest with rfl | later
      · cases inLine
      · exact (ih later).imp_right fun ⟨other, inOthers, found⟩ =>
          ⟨other, List.mem_cons_of_mem paragraph inOthers, found⟩

theorem mem_docstringLines {texts : List (List Char)} {indent : Nat} {line : List Char}
    {char : Char} (member : line ∈ docstringLines texts indent) (inLine : char ∈ line) :
    char ∈ documentationChars ∨ ∃ text ∈ texts, char ∈ text := by
  have quotes : docQuotes ⊆ documentationChars := by decide
  have lift {paragraph : List Char} (known : paragraph ∈ paragraphs texts)
      (found : char ∈ documentationChars ∨ char ∈ paragraph) :
      char ∈ documentationChars ∨ ∃ text ∈ texts, char ∈ text :=
    found.elim .inl (mem_paragraphs known)
  unfold docstringLines at member
  dsimp only at member
  split at member
  · cases member
  · next notEmpty =>
    have first : (paragraphs texts).headD [] ∈ paragraphs texts := by
      obtain ⟨first, rest, cut⟩ := List.exists_cons_of_ne_nil notEmpty
      rw [cut]
      exact List.mem_cons_self
    split at member
    · rw [List.mem_singleton.mp member, List.mem_append, List.mem_append] at inLine
      rcases inLine with (opening | inText) | closing
      · exact .inl (quotes opening)
      · exact lift first (mem_escaped inText)
      · exact .inl (quotes closing)
    · have inside {line : List Char}
          (member : line ∈ paragraphLines (fillWidth (indentOf indent).length - 3) (paragraphs texts))
          (inLine : char ∈ line) : char ∈ documentationChars ∨ ∃ text ∈ texts, char ∈ text := by
        rcases mem_paragraphLines member inLine with fixed | ⟨paragraph, known, found⟩
        · exact .inl fixed
        · exact lift known (.inr found)
      split at member
      · rw [List.mem_singleton.mp member] at inLine
        exact .inl (quotes inLine)
      · next first rest cut =>
        rw [cut] at inside
        rcases List.mem_append.mp member with inBody | closing
        · rcases List.mem_cons.mp inBody with rfl | inRest
          · rcases List.mem_append.mp inLine with opening | inFirst
            · exact .inl (quotes opening)
            · exact inside List.mem_cons_self inFirst
          · exact inside (List.mem_cons_of_mem first inRest) inLine
        · rw [List.mem_singleton.mp closing] at inLine
          exact .inl (quotes inLine)

theorem mem_commentLines {texts : List (List Char)} {indent : Nat} {mark line : List Char}
    {char : Char} (member : line ∈ commentLines texts indent mark) (inLine : char ∈ line) :
    char ∈ documentationChars ∨ char ∈ mark ∨ ∃ text ∈ texts, char ∈ text := by
  obtain ⟨paragraph, known, inParagraph⟩ := List.mem_flatMap.mp member
  obtain ⟨filled, inFilled, rfl⟩ := List.mem_map.mp inParagraph
  rcases List.mem_append.mp inLine with inMark | after
  · exact .inr (.inl inMark)
  · rcases List.mem_cons.mp after with rfl | inText
    · exact .inl List.mem_cons_self
    · rcases mem_wrap inFilled inText with rfl | found
      · exact .inl List.mem_cons_self
      · exact (mem_paragraphs known found).imp_right .inr

/-! ## Edits and buffers -/

/-- The texts that an edit writes. -/
def Edit.texts : Edit → List String
  | .header heading => heading.toList
  | .declare | .blank _ => []
  | .require module names => module :: names
  | .line text _ => [text]
  | .docstring texts _ => texts
  | .comment texts _ mark => mark :: texts

namespace Buffer

/-- A buffer that holds no null character. -/
structure IsNullFree (buffer : Buffer) : Prop where
  heading : ∀ docstring, buffer.heading.join = some docstring → NullFree docstring
  modules : ∀ module ∈ buffer.modules, NullFree module
  names : ∀ entry ∈ buffer.names, NullFree entry.1 ∧ NullFree entry.2
  lines : ∀ line ∈ buffer.lines, NullFree line

variable {buffer : Buffer}

theorem isNullFree_new (runtimeModule : String) : (new runtimeModule).IsNullFree :=
  ⟨by simp [new], by simp [new], by simp [new], by simp [new]⟩

theorem nullFree_indented {text : String} (indent : Nat) (free : NullFree text) :
    NullFree (indented text indent) := by
  rw [indented]
  split
  · decide
  · rw [nullFree_ofList_iff, List.mem_append, not_or]
    refine ⟨fun inIndent => ?_, free⟩
    obtain ⟨unit, inUnits, inUnit⟩ := List.mem_flatten.mp inIndent
    rw [List.eq_of_mem_replicate inUnits] at inUnit
    exact absurd inUnit (by decide)

theorem IsNullFree.addLines (free : buffer.IsNullFree) (indent : Nat) {lines : List (List Char)}
    (added : ∀ line ∈ lines, nullCharacter ∉ line) : (buffer.addLines indent lines).IsNullFree := by
  refine ⟨free.heading, free.modules, free.names, fun line member => ?_⟩
  rw [← Array.mem_toList_iff, Buffer.addLines, Array.toList_appendList, List.mem_append] at member
  rcases member with before | after
  · exact free.lines line (Array.mem_toList_iff.mp before)
  · obtain ⟨chars, inLines, rfl⟩ := List.mem_map.mp after
    exact nullFree_indented indent (nullFree_ofList_iff.mpr (added chars inLines))

theorem IsNullFree.apply (free : buffer.IsNullFree) {edit : Edit}
    (texts : ∀ text ∈ edit.texts, NullFree text) : (buffer.apply edit).IsNullFree := by
  have fixed : nullCharacter ∉ documentationChars := by decide
  have absent {others : List String} (others_free : ∀ text ∈ others, NullFree text) :
      ¬ ∃ text ∈ others.map String.toList, nullCharacter ∈ text := by
    rintro ⟨_, inTexts, found⟩
    obtain ⟨text, member, rfl⟩ := List.mem_map.mp inTexts
    exact others_free text member found
  cases edit with
  | header docstring =>
    rw [Buffer.apply]
    split
    · exact free
    · refine ⟨fun text given => ?_, free.modules, free.names, free.lines⟩
      exact texts text (by simpa [Edit.texts] using given)
  | declare => exact ⟨free.heading, free.modules, free.names, free.lines⟩
  | require module names =>
    rw [Edit.texts, List.forall_mem_cons] at texts
    cases names with
    | nil =>
      refine ⟨free.heading, fun other member => ?_, free.names, free.lines⟩
      rcases List.mem_append.mp member with before | added
      · exact free.modules other before
      · rw [List.mem_singleton.mp added]
        exact texts.1
    | cons first rest =>
      refine ⟨free.heading, free.modules, fun entry member => ?_, free.lines⟩
      rcases List.mem_append.mp member with before | added
      · exact free.names entry before
      · obtain ⟨name, inNames, rfl⟩ := List.mem_map.mp added
        exact ⟨texts.1, texts.2 name inNames⟩
  | line text indent =>
    refine ⟨free.heading, free.modules, free.names, fun line member => ?_⟩
    rcases Array.mem_push.mp member with before | rfl
    · exact free.lines line before
    · exact nullFree_indented indent (texts text (List.mem_singleton_self text))
  | blank count =>
    refine ⟨free.heading, free.modules, free.names, fun line member => ?_⟩
    rw [← Array.mem_toList_iff, Buffer.apply, Array.toList_appendList, List.mem_append] at member
    rcases member with before | added
    · exact free.lines line (Array.mem_toList_iff.mp before)
    · rw [List.eq_of_mem_replicate added]
      decide
  | docstring others indent =>
    rw [Edit.texts] at texts
    refine free.addLines indent fun line member inLine => ?_
    rcases mem_docstringLines member inLine with special | found
    · exact fixed special
    · exact absent texts found
  | comment others indent mark =>
    rw [Edit.texts, List.forall_mem_cons] at texts
    refine free.addLines indent fun line member inLine => ?_
    rcases mem_commentLines member inLine with special | inMark | found
    · exact fixed special
    · exact texts.1 inMark
    · exact absent texts.2 found

theorem IsNullFree.applyAll (free : buffer.IsNullFree) {edits : List Edit}
    (texts : ∀ edit ∈ edits, ∀ text ∈ edit.texts, NullFree text) :
    (buffer.applyAll edits).IsNullFree := by
  induction edits generalizing buffer with
  | nil => exact free
  | cons edit edits ih =>
    rw [List.forall_mem_cons] at texts
    exact ih (free.apply texts.1) texts.2

/-! ## Rendering -/

theorem IsNullFree.moduleImports (free : buffer.IsNullFree) (group : ImportGroup) :
    ∀ line ∈ buffer.moduleImports group, NullFree line := by
  intro line member
  obtain ⟨module, inGroup, rfl⟩ := List.mem_map.mp member
  rw [nullFree_append_iff]
  exact ⟨nullFree_literal (by decide),
    free.modules module (mem_sortedSet_iff.mp (List.mem_filter.mp inGroup).1)⟩

theorem IsNullFree.nameImports (free : buffer.IsNullFree) (group : ImportGroup) :
    ∀ line ∈ buffer.nameImports group, NullFree line := by
  intro line member
  obtain ⟨module, inGroup, rfl⟩ := List.mem_map.mp member
  obtain ⟨entry, inNames, rfl⟩ := List.mem_map.mp (mem_sortedSet_iff.mp (List.mem_filter.mp inGroup).1)
  have names : NullFree (", ".intercalate (buffer.namesFrom entry.1)) := by
    refine nullFree_intercalate (nullFree_literal (by decide)) fun name inSet => ?_
    obtain ⟨other, inFiltered, rfl⟩ := List.mem_map.mp (mem_sortedSet_iff.mp inSet)
    exact (free.names other (List.mem_filter.mp inFiltered).1).2
  simp only [nullFree_append_iff]
  exact ⟨⟨⟨nullFree_literal (by decide), (free.names entry inNames).1⟩,
    nullFree_literal (by decide)⟩, names⟩

theorem nullFree_separated {groups : List (List String)}
    (free : ∀ group ∈ groups, ∀ line ∈ group, NullFree line) :
    ∀ line ∈ separated groups, NullFree line := by
  intro line member
  unfold separated at member
  split at member
  · cases member
  · next first rest filtered =>
    have kept (group : List String) (inKept : group ∈ first :: rest) : group ∈ groups :=
      (List.mem_filter.mp (filtered ▸ inKept)).1
    rcases List.mem_append.mp member with inFirst | inRest
    · exact free first (kept first List.mem_cons_self) line inFirst
    · obtain ⟨group, inGroups, inGroup⟩ := List.mem_flatMap.mp inRest
      rcases List.mem_cons.mp inGroup with rfl | inside
      · decide
      · exact free group (kept group (List.mem_cons_of_mem _ inGroups)) line inside

theorem IsNullFree.importLines (free : buffer.IsNullFree) :
    ∀ line ∈ buffer.importLines, NullFree line := by
  have groups (group : ImportGroup) : ∀ line ∈ buffer.groupImports group, NullFree line := by
    intro line member
    rcases List.mem_append.mp member with inModules | inNames
    · exact free.moduleImports group line inModules
    · exact free.nameImports group line inNames
  refine nullFree_separated ?_
  simp only [List.forall_mem_cons]
  exact ⟨groups _, groups _, groups _, by simp⟩

theorem IsNullFree.headingLines (free : buffer.IsNullFree) :
    ∀ line ∈ buffer.headingLines, NullFree line := by
  intro line member
  unfold Buffer.headingLines at member
  split at member
  · cases member
  · next docstring heading =>
    split at member
    · cases member
    · rw [List.mem_singleton.mp member, nullFree_ofList_iff, List.mem_append, List.mem_append]
      rintro ((opening | escaped) | closing)
      · exact absurd opening (by decide)
      · rcases mem_escaped escaped with special | inDoc
        · exact absurd special (by decide)
        · exact free.heading docstring heading inDoc
      · exact absurd closing (by decide)

/-- A buffer that holds no null character renders to a text without one. -/
theorem IsNullFree.render (free : buffer.IsNullFree) : NullFree buffer.render := by
  have lineFree : ∀ line ∈ buffer.topLines ++ buffer.bodyLines, NullFree line := by
    have fixed : ∀ line ∈ [banner, "", "from __future__ import annotations"],
        NullFree line := by decide
    intro line member
    rcases List.mem_append.mp member with top | body
    · simp only [topLines, List.mem_append] at top
      rcases top with (((inBanner | inHeading) | inFuture) | inImports) | atEnd
      · exact fixed line (List.mem_append_left _ inBanner)
      · exact free.headingLines line inHeading
      · exact fixed line (List.mem_cons_of_mem _ inFuture)
      · split at inImports
        · cases inImports
        · rcases List.mem_cons.mp inImports with rfl | inside
          · decide
          · exact free.importLines line inside
      · simp only [List.mem_cons, List.not_mem_nil, or_false, or_self] at atEnd
        rw [atEnd]
        decide
    · have inLines : line ∈ buffer.lines.toList := (List.dropWhile_suffix _).subset body
      exact free.lines line (Array.mem_toList_iff.mp inLines)
  have text : NullFree ("\n".intercalate (buffer.topLines ++ buffer.bodyLines)) :=
    nullFree_intercalate (nullFree_literal (by decide)) lineFree
  rw [Buffer.render, nullFree_ofList_iff, List.mem_append, not_or]
  refine ⟨fun inTrimmed => text ?_, by decide⟩
  rw [trimEnd, dropEndWhile_eq_rdropWhile] at inTrimmed
  exact (List.rdropWhile_prefix _ _).subset inTrimmed

end Buffer

end ProtocolGen.Source
