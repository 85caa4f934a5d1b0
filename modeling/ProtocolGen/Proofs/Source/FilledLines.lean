import ProtocolGen.Proofs.Source.Docstrings
import ProtocolGen.Proofs.Text.Characters
import ProtocolGen.Source.Buffer

/-!
# Lines of comments and docstrings

A text that is set on lines loses nothing, and its lines are as full as they can be. So a comment adds lines
of an indent, a mark, a space and words, which are together the words of its texts, and no character in them
ends a line. Neither these lines nor those of a docstring of several lines are wider than 72 columns, unless
one holds a single word.
-/

set_option autoImplicit false

namespace ProtocolGen.Source

open ProtocolGen.Text

/-! ## Comments -/

/-- A line of a comment: the indent, the mark, a space, and words with a space between each two. -/
def commentLine (indent : Nat) (mark : String) (row : List (List Char)) : String :=
  String.ofList (indentOf indent ++ (mark.toList ++ ' ' :: joinWith [' '] row))

/-- The rows of words of a comment, one for each line. -/
def commentRows (texts : List String) (indent : Nat) (mark : String) : List (List (List Char)) :=
  (paragraphs (texts.map String.toList)).flatMap
    (rowsOf (fillWidth ((indentOf indent).length + mark.length + 1)))

theorem flatten_commentRows (texts : List String) (indent : Nat) (mark : String) :
    (commentRows texts indent mark).flatten = texts.flatMap fun text => words text.toList := by
  rw [commentRows, ← List.flatMap_id, List.flatMap_assoc]
  have kept (paragraph : List Char) (width : Nat) :
      (rowsOf width paragraph).flatMap id = words paragraph := by
    rw [List.flatMap_id, (filled_rowsOf width paragraph).2.all]
  simp only [kept, flatMap_words_paragraphs, List.flatMap_map]

theorem toList_commentLine (indent : Nat) (mark : String) (row : List (List Char)) :
    (commentLine indent mark row).toList = indentOf indent ++ (mark.toList ++ ' ' :: joinWith [' '] row) :=
  String.toList_ofList

theorem lines_comment (buffer : Buffer) (texts : List String) (indent : Nat) (mark : String) :
    (buffer.apply (.comment texts indent mark)).lines =
      buffer.lines ++ (commentRows texts indent mark).map (commentLine indent mark) := by
  have line (row : List (List Char)) :
      Buffer.indented (String.ofList (mark.toList ++ ' ' :: joinWith [' '] row)) indent =
        commentLine indent mark row := by
    rw [Buffer.indented, if_neg (by simp), String.toList_ofList, commentLine]
  rw [Buffer.apply, Buffer.addLines, commentLines, commentRows]
  simp only [(filled_rowsOf _ _).1, List.map_map, List.map_flatMap, Function.comp_def, line,
    String.length_toList]

/-- What the lines of a comment are like. -/
structure SetsComment (texts : List String) (indent : Nat) (mark : String)
    (rows : List (List (List Char))) : Prop where
  all : rows.flatten = texts.flatMap fun text => words text.toList
  full : [] ∉ rows
  words : ∀ row ∈ rows, ∀ word ∈ row, IsWord word
  single : ∀ row ∈ rows, ∀ char ∈ (commentLine indent mark row).toList, char ∉ lineBreaks
  columns : (indentOf indent).length + mark.length + 1 + 40 ≤ fillColumns → ∀ row ∈ rows,
    (commentLine indent mark row).length ≤ fillColumns ∨ row.length = 1

theorem setsComment (texts : List String) (indent : Nat) {mark : String}
    (plain : ∀ char ∈ mark.toList, char ∉ lineBreaks) :
    SetsComment texts indent mark (commentRows texts indent mark) := by
  have found {row : List (List Char)} (member : row ∈ commentRows texts indent mark) :
      ∃ paragraph, row ∈ rowsOf (fillWidth ((indentOf indent).length + mark.length + 1)) paragraph := by
    obtain ⟨paragraph, -, inRows⟩ := List.mem_flatMap.mp member
    exact ⟨paragraph, inRows⟩
  have isWord : ∀ row ∈ commentRows texts indent mark, ∀ word ∈ row, IsWord word := by
    intro row member
    obtain ⟨paragraph, inRows⟩ := found member
    exact isWord_of_mem_rowsOf inRows
  refine ⟨flatten_commentRows texts indent mark, ?_, isWord, ?_, ?_⟩
  · intro empty
    obtain ⟨paragraph, inRows⟩ := found empty
    exact (filled_rowsOf _ paragraph).2.full inRows
  · intro row member char inLine ends
    rw [toList_commentLine] at inLine
    have space : ' ' ∉ lineBreaks := by decide
    rcases List.mem_append.mp inLine with inIndent | behind
    · exact space (mem_indentOf inIndent ▸ ends)
    · rcases List.mem_append.mp behind with inMark | inText
      · exact plain char inMark ends
      · rcases List.mem_cons.mp inText with rfl | inWords
        · exact space ends
        · rcases mem_joinWith inWords with inSpace | ⟨word, inRow, inWord⟩
          · exact space (List.mem_singleton.mp inSpace ▸ ends)
          · have solid := (isWord row member word inRow).2 char inWord
            rw [isBlank_of_mem_lineBreaks char ends] at solid
            cases solid
  · intro room row member
    obtain ⟨paragraph, inRows⟩ := found member
    refine ((filled_rowsOf _ paragraph).2.fits row inRows).imp_left fun fits => ?_
    rw [← String.length_toList, toList_commentLine, List.length_append, List.length_append,
      List.length_cons, String.length_toList]
    rw [fillWidth] at fits
    omega

/-! ## Docstrings -/

theorem fits_of_mem_paragraphLines {width : Nat} {paragraphs : List (List Char)} {line : List Char}
    (member : line ∈ paragraphLines width paragraphs) :
    line = [] ∨ line.length ≤ width ∨ IsWord line := by
  fun_induction paragraphLines width paragraphs with
  | case1 => cases member
  | case2 paragraph => exact .inr (fits_of_mem_wrap member)
  | case3 paragraph paragraphs others ih =>
    rcases List.mem_append.mp member with inFirst | inRest
    · exact .inr (fits_of_mem_wrap inFirst)
    · rcases List.mem_cons.mp inRest with rfl | later
      · exact .inl rfl
      · exact ih later

theorem isWord_append_docQuotes {line : List Char} (isWord : IsWord line) :
    IsWord (docQuotes ++ line) := by
  refine ⟨by simp [docQuotes], fun char member => ?_⟩
  rcases List.mem_append.mp member with inQuotes | inLine
  · have quotes : ∀ char ∈ docQuotes, isBlank char = false := by decide
    exact quotes char inQuotes
  · exact isWord.2 char inLine

/-- The lines are filled to three columns less, and the first of them has the opening quotes there. -/
theorem fits_of_mem_docstringLines {texts : List (List Char)} {indent : Nat}
    (several : 1 < (docstringLines texts indent).length) :
    ∀ line ∈ docstringLines texts indent,
      line.length ≤ fillWidth (indentOf indent).length ∨ IsWord line := by
  have wide : 40 ≤ fillWidth (indentOf indent).length := Nat.le_max_right _ _
  rw [docstringLines] at several ⊢
  generalize fillWidth (indentOf indent).length = width at several wide ⊢
  generalize paragraphs texts = found at several ⊢
  cases found with
  | nil => exact List.forall_mem_nil _
  | cons paragraph paragraphs =>
    dsimp only at several ⊢
    have fits {line : List Char} (member : line ∈ paragraphLines (width - 3) (paragraph :: paragraphs)) :=
      fits_of_mem_paragraphLines member
    split at several
    · exact absurd several (by simp)
    · next notAlone =>
      rw [if_neg notAlone]
      cases lines : paragraphLines (width - 3) (paragraph :: paragraphs) with
      | nil => simp [lines] at several
      | cons first rest =>
        rw [lines] at fits
        dsimp only
        rw [List.cons_append, List.forall_mem_cons, List.forall_mem_append, List.forall_mem_singleton]
        have three : docQuotes.length = 3 := rfl
        refine ⟨?_, fun line later => ?_, .inl (by omega)⟩
        · rw [List.length_append]
          rcases fits List.mem_cons_self with rfl | short | isWord
          · exact .inl (by rw [List.length_nil]; omega)
          · exact .inl (by omega)
          · exact .inr (isWord_append_docQuotes isWord)
        · rcases fits (List.mem_cons_of_mem first later) with rfl | short | isWord
          · exact .inl (Nat.zero_le _)
          · exact .inl (by omega)
          · exact .inr isWord

theorem length_words_indented {indent : Nat} {line : List Char} (isWord : IsWord line) :
    (words (Buffer.indented (String.ofList line) indent).toList).length = 1 := by
  have blanks : ∀ char ∈ indentOf indent, isBlank char := by
    intro char member
    rw [mem_indentOf member]
    rfl
  rw [Buffer.indented, if_neg (by simpa using isWord.1), String.toList_ofList, String.toList_ofList,
    words_blanks_append blanks, words_of_isWord isWord, List.length_singleton]

theorem fits_of_mem_docstring {texts : List String} {indent : Nat}
    (room : (indentOf indent).length + 40 ≤ fillColumns)
    (several : 1 < (docstringLines (texts.map String.toList) indent).length) :
    ∀ line ∈ docstringLines (texts.map String.toList) indent,
      (Buffer.indented (String.ofList line) indent).length ≤ fillColumns ∨
        (words (Buffer.indented (String.ofList line) indent).toList).length = 1 := by
  intro line member
  refine (fits_of_mem_docstringLines several line member).imp (fun fits => ?_) length_words_indented
  rw [fillWidth] at fits
  rw [Buffer.indented]
  split
  · exact Nat.zero_le _
  · rw [← String.length_toList, String.toList_ofList, String.toList_ofList, List.length_append]
    omega

/-- Texts are set on lines without loss and greedily, in a comment as in a docstring. -/
theorem texts_fill_lines :
    (∀ (width : Nat) (found : List (List Char)), (∀ word ∈ found, IsWord word) →
      FillsGreedily width (joinWith [' '] found) (wrap width (joinWith [' '] found))) ∧
    (∀ (buffer : Buffer) (texts : List String) (indent : Nat) (mark : String),
      (∀ char ∈ mark.toList, char ∉ lineBreaks) →
      ∃ rows : List (List (List Char)), (buffer.apply (.comment texts indent mark)).lines =
          buffer.lines ++ rows.map (commentLine indent mark) ∧
        SetsComment texts indent mark rows) ∧
    ∀ (buffer : Buffer) (texts : List String) (indent : Nat),
      (indentOf indent).length + 40 ≤ fillColumns →
      ∃ added : List String, (buffer.apply (.docstring texts indent)).lines = buffer.lines ++ added ∧
        (1 < added.length → ∀ line ∈ added,
          line.length ≤ fillColumns ∨ (words line.toList).length = 1) := by
  refine ⟨fun width found => fillsGreedily_wrap width, ?_, ?_⟩
  · intro buffer texts indent mark plain
    exact ⟨_, lines_comment buffer texts indent mark, setsComment texts indent plain⟩
  · intro buffer texts indent room
    refine ⟨_, rfl, fun several => ?_⟩
    rw [List.length_map] at several
    rw [List.forall_mem_map]
    exact fits_of_mem_docstring room several

/-- A word goes to the next line when it does not fit, and a line separator is no more than a space. -/
theorem lamp_texts_fill_lines :
    FillsGreedily 8 "The lamp hums".toList ["The lamp".toList, "hums".toList] ∧
    (∃ rows : List (List (List Char)),
      ((Buffer.new "").apply (.comment ["The\u2028lamp"] 1 "#:")).lines =
          (Buffer.new "").lines ++ rows.map (commentLine 1 "#:") ∧
        SetsComment ["The\u2028lamp"] 1 "#:" rows) ∧
    ∃ added : List String, ((Buffer.new "").apply (.docstring ["The lamp", "It hums"] 8)).lines =
        (Buffer.new "").lines ++ added ∧
      (1 < added.length → ∀ line ∈ added,
        line.length ≤ fillColumns ∨ (words line.toList).length = 1) := by
  obtain ⟨fills, comments, docstrings⟩ := texts_fill_lines
  have each : ∀ word ∈ ["The".toList, "lamp".toList, "hums".toList], IsWord word := by decide
  exact ⟨fills 8 _ each, comments _ _ 1 _ (by decide), docstrings _ _ 8 (by decide)⟩

end ProtocolGen.Source
