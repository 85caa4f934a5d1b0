import Mathlib.Data.List.Chain
import Mathlib.Data.List.Forall2
import ProtocolGen.Proofs.Text.Words

/-!
# Filled lines

Words that are set on lines stand there in rows, with a space between each two. The rows are the words in
order, each fits the width or is a single word, and the word that begins the next row would not have fitted
behind it. So the lines joined by spaces are the text again.
-/

set_option autoImplicit false

namespace ProtocolGen.Text

/-! ## Joining at spaces -/

section Joining

variable {separator : List Char} {front back : List (List Char)}

theorem joinWith_append (some : front ≠ []) (more : back ≠ []) :
    joinWith separator (front ++ back) =
      joinWith separator front ++ (separator ++ joinWith separator back) := by
  induction front with
  | nil => contradiction
  | cons piece front ih =>
    cases front with
    | nil => exact joinWith_cons piece more
    | cons next front =>
      rw [List.cons_append, joinWith_cons piece (by simp), ih (List.cons_ne_nil _ _),
        joinWith_cons piece (List.cons_ne_nil _ _), List.append_assoc, List.append_assoc]

theorem joinWith_map_joinWith {rows : List (List (List Char))} (full : [] ∉ rows) :
    joinWith separator (rows.map (joinWith separator)) = joinWith separator rows.flatten := by
  induction rows with
  | nil => rfl
  | cons row rows ih =>
    rw [List.mem_cons, not_or] at full
    rw [List.map_cons, List.flatten_cons]
    cases rows with
    | nil => rw [List.map_nil, List.flatten_nil, List.append_nil, joinWith_singleton]
    | cons next rows =>
      have more : (next :: rows).flatten ≠ [] := by
        rw [List.flatten_ne_nil_iff]
        exact ⟨next, List.mem_cons_self, fun empty => full.2 (empty ▸ List.mem_cons_self)⟩
      rw [joinWith_cons _ (by simp), ih full.2, joinWith_append (Ne.symm full.1) more]

end Joining

/-! ## Rows -/

/-- A row of words that may stand on a line: it fits the width, or it is a single word. -/
def TakesLine (width : Nat) (row : List (List Char)) : Prop :=
  (joinWith [' '] row).length ≤ width ∨ row.length = 1

/-- The first word of a row would not have fitted behind the row before it. -/
def Overflows (width : Nat) (row next : List (List Char)) : Prop :=
  ∀ word ∈ next.head?, width < (joinWith [' '] row).length + 1 + word.length

/-- Words that are set in rows greedily. -/
structure Filled (width : Nat) (words : List (List Char)) (rows : List (List (List Char))) : Prop where
  all : rows.flatten = words
  full : [] ∉ rows
  fits : ∀ row ∈ rows, TakesLine width row
  greedy : rows.IsChain (Overflows width)

/-- A row that is begun grows while the next word fits, so the first row begins as it did. -/
theorem exists_rows_fillFrom (width : Nat) {front : List (List Char)} (begun : front ≠ [])
    (fits : TakesLine width front) (words : List (List Char)) :
    ∃ row rows, fillFrom width (joinWith [' '] front) words = (row :: rows).map (joinWith [' ']) ∧
      row.head? = front.head? ∧ Filled width (front ++ words) (row :: rows) := by
  induction words generalizing front with
  | nil =>
    refine ⟨front, [], rfl, rfl, ?_, ?_, ?_, .singleton front⟩
    · rw [List.flatten_singleton, List.append_nil]
    · simpa using begun.symm
    · exact List.forall_mem_singleton.mpr fits
  | cons word words ih =>
    rw [fillFrom]
    split
    · next room =>
      have longer : joinWith [' '] (front ++ [word]) = joinWith [' '] front ++ ' ' :: word :=
        joinWith_append begun (List.cons_ne_nil _ _)
      have grown : TakesLine width (front ++ [word]) := by
        refine .inl ?_
        rw [longer, List.length_append, List.length_cons]
        omega
      obtain ⟨row, rows, lines, head, filled⟩ := ih (by simp) grown
      refine ⟨row, rows, longer ▸ lines, ?_, ?_⟩
      · rw [head, List.head?_append_of_ne_nil _ begun]
      · rwa [List.append_assoc, List.singleton_append] at filled
    · next wide =>
      obtain ⟨row, rows, lines, head, filled⟩ := ih (List.cons_ne_nil word []) (.inr rfl)
      refine ⟨front, row :: rows, ?_, rfl, ?_, ?_, ?_, .cons_cons ?_ filled.greedy⟩
      · rw [List.map_cons, ← lines]
        rfl
      · rw [List.flatten_cons, filled.all, List.singleton_append]
      · rw [List.mem_cons, not_or]
        exact ⟨begun.symm, filled.full⟩
      · exact List.forall_mem_cons.mpr ⟨fits, filled.fits⟩
      · intro first member
        rw [head] at member
        cases member
        exact Nat.lt_of_not_le wide

/-- The rows of words that a text is set in. -/
def rowsOf (width : Nat) (chars : List Char) : List (List (List Char)) := (wrap width chars).map words

theorem exists_rows_wrap (width : Nat) (chars : List Char) :
    ∃ rows, wrap width chars = rows.map (joinWith [' ']) ∧ Filled width (words chars) rows := by
  rw [wrap]
  cases words chars with
  | nil => exact ⟨[], rfl, rfl, List.not_mem_nil, nofun, .nil⟩
  | cons word words =>
    obtain ⟨row, rows, lines, -, filled⟩ :=
      exists_rows_fillFrom width (List.cons_ne_nil word []) (.inr rfl) words
    exact ⟨row :: rows, lines, filled⟩

theorem filled_rowsOf (width : Nat) (chars : List Char) :
    wrap width chars = (rowsOf width chars).map (joinWith [' ']) ∧
      Filled width (words chars) (rowsOf width chars) := by
  obtain ⟨rows, lines, filled⟩ := exists_rows_wrap width chars
  have read : rowsOf width chars = rows := by
    rw [rowsOf, lines, List.map_map, List.map_congr_left (g := id), List.map_id]
    intro row member
    refine words_joinWith_words fun word inRow => ?_
    have inText : word ∈ words chars := filled.all ▸ List.mem_flatten.mpr ⟨row, member, inRow⟩
    exact isWord_of_mem_words inText
  rw [read]
  exact ⟨lines, filled⟩

theorem isWord_of_mem_rowsOf {width : Nat} {chars : List Char} {row : List (List Char)}
    (inRows : row ∈ rowsOf width chars) : ∀ word ∈ row, IsWord word := by
  obtain ⟨line, -, rfl⟩ := List.mem_map.mp inRows
  exact fun word => isWord_of_mem_words

/-- The lines of a filled text hold its words in order. -/
theorem exists_parts_wrap (width : Nat) (chars : List Char) :
    ∃ parts, List.Forall₂ IsLine parts (wrap width chars) ∧ parts.flatten = words chars := by
  obtain ⟨lines, filled⟩ := filled_rowsOf width chars
  refine ⟨rowsOf width chars, ?_, filled.all⟩
  rw [lines, List.forall₂_map_right_iff, List.forall₂_same]
  exact fun row _ => isLine_joinWith row

/-! ## Lines -/

/-- Lines that are a text once more when they are joined by spaces, and that are filled greedily: each fits
the width or is a single word, and the first word of the next one would not have fitted behind it. -/
structure FillsGreedily (width : Nat) (text : List Char) (lines : List (List Char)) : Prop where
  joined : joinWith [' '] lines = text
  full : [] ∉ lines
  fits : ∀ line ∈ lines, line.length ≤ width ∨ IsWord line
  greedy : lines.IsChain fun line next =>
    ∀ word ∈ (words next).head?, width < line.length + 1 + word.length

theorem TakesLine.fits {width : Nat} {row : List (List Char)} (takes : TakesLine width row)
    (each : ∀ word ∈ row, IsWord word) :
    (joinWith [' '] row).length ≤ width ∨ IsWord (joinWith [' '] row) := by
  refine takes.imp_right fun single => ?_
  obtain ⟨word, rfl⟩ := List.length_eq_one_iff.mp single
  exact each word List.mem_cons_self

theorem fits_of_mem_wrap {width : Nat} {chars line : List Char} (member : line ∈ wrap width chars) :
    line.length ≤ width ∨ IsWord line := by
  obtain ⟨lines, filled⟩ := filled_rowsOf width chars
  rw [lines] at member
  obtain ⟨row, inRows, rfl⟩ := List.mem_map.mp member
  exact (filled.fits row inRows).fits (isWord_of_mem_rowsOf inRows)

/-- Words with a space between each two are set on lines greedily and without loss. -/
theorem fillsGreedily_wrap (width : Nat) {found : List (List Char)}
    (each : ∀ word ∈ found, IsWord word) :
    FillsGreedily width (joinWith [' '] found) (wrap width (joinWith [' '] found)) := by
  obtain ⟨lines, filled⟩ := filled_rowsOf width (joinWith [' '] found)
  rw [words_joinWith_words each] at filled
  have read {row : List (List Char)} (inRows : row ∈ rowsOf width (joinWith [' '] found)) :
      words (joinWith [' '] row) = row :=
    words_joinWith_words (isWord_of_mem_rowsOf inRows)
  refine ⟨?_, ?_, fun line => fits_of_mem_wrap, ?_⟩
  · rw [lines, joinWith_map_joinWith filled.full, filled.all]
  · intro empty
    rw [lines] at empty
    obtain ⟨row, inRows, nothing⟩ := List.mem_map.mp empty
    have none : row = [] := by rw [← read inRows, nothing]; rfl
    exact filled.full (none ▸ inRows)
  · rw [lines, List.isChain_map]
    refine filled.greedy.imp_of_mem_imp fun row next _ inRows fits => ?_
    rwa [read inRows]

end ProtocolGen.Text
