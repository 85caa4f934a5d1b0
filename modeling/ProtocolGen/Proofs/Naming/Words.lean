import ProtocolGen.Proofs.Naming.Attributes

/-!
# The words of a name

A name in small letters is made of words, with one low line between each two. The words are what a text
falls into when it is cut where camel case begins a word and every run of other characters than letters
and digits is taken out.
-/

set_option autoImplicit false

namespace ProtocolGen.Naming

open ProtocolGen.Text

/-! ## Cuts of camel case -/

/-- Where a text is cut between two characters, of which the second has another behind it or none: before
a capital behind a small letter or digit, and between two capitals when a small letter follows. -/
inductive IsCut : Char → Char → Option Char → Prop where
  | camel {left right : Char} {next : Option Char} (ended : left.isLower ∨ left.isDigit)
      (capital : right.isUpper) : IsCut left right next
  | acronym {left right next : Char} (run : left.isUpper) (capital : right.isUpper)
      (small : next.isLower) : IsCut left right (some next)

theorem isBoundary_iff_isCut {left right : Char} {next : Option Char} :
    isBoundary left right next ↔ IsCut left right next := by
  rw [isBoundary, Bool.and_eq_true, Bool.or_eq_true, Bool.or_eq_true, Bool.and_eq_true]
  constructor
  · rintro ⟨capital, ended | ⟨run, small⟩⟩
    · exact .camel ended capital
    · cases next with
      | none => cases small
      | some next => exact .acronym run capital small
  · intro cut
    cases cut with
    | camel ended capital => exact ⟨capital, .inl ended⟩
    | acronym run capital small => exact ⟨capital, .inr ⟨run, small⟩⟩

instance (left right : Char) (next : Option Char) : Decidable (IsCut left right next) :=
  decidable_of_iff _ isBoundary_iff_isCut

/-- The pieces between the cuts of a text. -/
def segments : List Char → List (List Char)
  | left :: right :: rest =>
    if IsCut left right rest.head? then [left] :: segments (right :: rest)
    else (segments (right :: rest)).modifyHead (left :: ·)
  | [char] => [[char]]
  | [] => []

theorem segments_cons_cons (left right : Char) (rest : List Char) :
    segments (left :: right :: rest) =
      if IsCut left right rest.head? then [left] :: segments (right :: rest)
      else (segments (right :: rest)).modifyHead (left :: ·) := rfl

/-- The first of some pieces make up a text. -/
def EndsPiece (pieces : List (List Char)) (text : List Char) : Prop :=
  ∃ front, front <+: pieces ∧ front.flatten = text

/-- A text falls into some pieces, and one ends between two characters exactly where there is a cut. -/
structure IsCutting (text : List Char) (pieces : List (List Char)) : Prop where
  whole : pieces.flatten = text
  filled : [] ∉ pieces
  joints : ∀ before left right after, text = before ++ left :: right :: after →
    (EndsPiece pieces (before ++ [left]) ↔ IsCut left right after.head?)

section Cutting

variable {left right : Char} {rest piece before : List Char} {pieces : List (List Char)}

theorem endsPiece_cons_iff (filled : piece ≠ []) (notEmpty : before ≠ []) :
    EndsPiece (piece :: pieces) before ↔ ∃ more, before = piece ++ more ∧ EndsPiece pieces more := by
  constructor
  · rintro ⟨front, starts, rfl⟩
    cases front with
    | nil => exact absurd rfl notEmpty
    | cons first front =>
      obtain ⟨rfl, others⟩ := List.cons_prefix_cons.mp starts
      exact ⟨front.flatten, List.flatten_cons, front, others, rfl⟩
  · rintro ⟨more, rfl, front, starts, rfl⟩
    exact ⟨piece :: front, List.cons_prefix_cons.mpr ⟨rfl, starts⟩, List.flatten_cons⟩

/-- Where pieces end behind the first character of a text. -/
theorem forall_joints_cons_iff :
    (∀ before first second after, left :: right :: rest = before ++ first :: second :: after →
      (EndsPiece pieces (before ++ [first]) ↔ IsCut first second after.head?)) ↔
    (EndsPiece pieces [left] ↔ IsCut left right rest.head?) ∧
      ∀ before first second after, right :: rest = before ++ first :: second :: after →
        (EndsPiece pieces (left :: before ++ [first]) ↔ IsCut first second after.head?) := by
  constructor
  · intro joints
    exact ⟨joints [] left right rest rfl, fun before first second after shape =>
      joints (left :: before) first second after (by rw [shape, List.cons_append])⟩
  · rintro ⟨first, others⟩ before
    cases before with
    | nil =>
      rintro _ _ _ ⟨⟩
      exact first
    | cons head before =>
      intro first second after shape
      obtain ⟨rfl, tails⟩ := List.cons.inj shape
      exact others before first second after tails

theorem endsPiece_singleton_iff (text : List Char) :
    EndsPiece ([left] :: pieces) (left :: text) ↔ EndsPiece pieces text := by
  rw [endsPiece_cons_iff (List.cons_ne_nil _ _) (List.cons_ne_nil _ _)]
  simp

theorem endsPiece_grown_iff (filled : piece ≠ []) (notEmpty : before ≠ []) :
    EndsPiece ((left :: piece) :: pieces) (left :: before) ↔ EndsPiece (piece :: pieces) before := by
  rw [endsPiece_cons_iff (List.cons_ne_nil _ _) (List.cons_ne_nil _ _),
    endsPiece_cons_iff filled notEmpty]
  simp

theorem not_endsPiece_grown (filled : piece ≠ []) :
    ¬ EndsPiece ((left :: piece) :: pieces) [left] := by
  rw [endsPiece_cons_iff (List.cons_ne_nil _ _) (List.cons_ne_nil _ _)]
  simp [filled]

/-- A text whose first piece is one character is cut behind it. -/
theorem isCutting_singleton_iff :
    IsCutting (left :: right :: rest) ([left] :: pieces) ↔
      IsCut left right rest.head? ∧ IsCutting (right :: rest) pieces := by
  have ends : EndsPiece ([left] :: pieces) [left] :=
    (endsPiece_singleton_iff []).mpr ⟨[], List.nil_prefix, rfl⟩
  constructor
  · rintro ⟨whole, filled, joints⟩
    obtain ⟨first, others⟩ := forall_joints_cons_iff.mp joints
    refine ⟨first.mp ends, ⟨List.cons.inj whole |>.2, fun empty => filled (.tail _ empty), ?_⟩⟩
    intro before first second after shape
    rw [← others before first second after shape, List.cons_append, endsPiece_singleton_iff]
  · rintro ⟨cut, whole, filled, joints⟩
    refine ⟨by rw [List.flatten_cons, whole]; rfl, by simpa using filled, ?_⟩
    refine forall_joints_cons_iff.mpr ⟨iff_of_true ends cut, ?_⟩
    intro before first second after shape
    rw [List.cons_append, endsPiece_singleton_iff]
    exact joints before first second after shape

/-- A text whose first piece is longer is not cut behind its first character. -/
theorem isCutting_grown_iff (filled : piece ≠ []) :
    IsCutting (left :: right :: rest) ((left :: piece) :: pieces) ↔
      ¬ IsCut left right rest.head? ∧ IsCutting (right :: rest) (piece :: pieces) := by
  have inside : ¬ EndsPiece ((left :: piece) :: pieces) [left] := not_endsPiece_grown filled
  have grown (before : List Char) (first : Char) :
      EndsPiece ((left :: piece) :: pieces) (left :: before ++ [first]) ↔
        EndsPiece (piece :: pieces) (before ++ [first]) :=
    endsPiece_grown_iff filled (by simp)
  constructor
  · rintro ⟨whole, notEmpty, joints⟩
    obtain ⟨first, others⟩ := forall_joints_cons_iff.mp joints
    refine ⟨fun cut => inside (first.mpr cut), ⟨List.cons.inj whole |>.2, by simp_all, ?_⟩⟩
    intro before first second after shape
    rw [← others before first second after shape, grown]
  · rintro ⟨uncut, whole, notEmpty, joints⟩
    refine ⟨?_, by simp_all, ?_⟩
    · rw [← whole]
      rfl
    · refine forall_joints_cons_iff.mpr ⟨iff_of_false inside uncut, ?_⟩
      intro before first second after shape
      rw [grown]
      exact joints before first second after shape

/-- The first piece of a text is its first character alone, or goes on. -/
theorem isCutting_cons_cons_iff :
    IsCutting (left :: right :: rest) pieces ↔
      (IsCut left right rest.head? ∧
        ∃ others, IsCutting (right :: rest) others ∧ pieces = [left] :: others) ∨
      (¬ IsCut left right rest.head? ∧
        ∃ piece others, IsCutting (right :: rest) (piece :: others) ∧
          pieces = (left :: piece) :: others) := by
  constructor
  · intro cutting
    match pieces, cutting with
    | [], ⟨whole, _, _⟩ => cases whole
    | [] :: _, ⟨_, filled, _⟩ => exact absurd List.mem_cons_self filled
    | (first :: piece) :: others, cutting =>
      obtain rfl : first = left := (List.cons.inj cutting.whole).1
      by_cases empty : piece = []
      · subst empty
        obtain ⟨cut, cutting⟩ := isCutting_singleton_iff.mp cutting
        exact .inl ⟨cut, others, cutting, rfl⟩
      · obtain ⟨uncut, cutting⟩ := (isCutting_grown_iff empty).mp cutting
        exact .inr ⟨uncut, piece, others, cutting, rfl⟩
  · rintro (⟨cut, others, cutting, rfl⟩ | ⟨uncut, piece, others, cutting, rfl⟩)
    · exact isCutting_singleton_iff.mpr ⟨cut, cutting⟩
    · have filled : piece ≠ [] := fun empty => cutting.filled (empty ▸ List.mem_cons_self)
      exact (isCutting_grown_iff filled).mpr ⟨uncut, cutting⟩

end Cutting

theorem segments_ne_nil (first : Char) (rest : List Char) : segments (first :: rest) ≠ [] := by
  induction rest generalizing first with
  | nil => exact List.cons_ne_nil _ _
  | cons second rest ih =>
    rw [segments_cons_cons]
    split
    · exact List.cons_ne_nil _ _
    · simpa using ih second

theorem eq_nil_of_flatten {pieces : List (List Char)} (filled : [] ∉ pieces)
    (empty : pieces.flatten = []) : pieces = [] := by
  refine List.eq_nil_iff_forall_not_mem.mpr fun piece member => filled ?_
  rwa [← List.flatten_eq_nil_iff.mp empty piece member]

/-- There is one way to cut a text. -/
theorem isCutting_iff {text : List Char} {pieces : List (List Char)} :
    IsCutting text pieces ↔ pieces = segments text := by
  fun_induction segments text generalizing pieces with
  | case1 left right rest cut ih => simp [isCutting_cons_cons_iff, cut, ih]
  | case2 left right rest uncut ih =>
    obtain ⟨piece, others, shape⟩ := List.exists_cons_of_ne_nil (segments_ne_nil right rest)
    simp [isCutting_cons_cons_iff, uncut, ih, shape]
  | case3 char =>
    constructor
    · rintro ⟨whole, filled, -⟩
      match pieces, whole with
      | [] :: _, _ => exact absurd List.mem_cons_self filled
      | (first :: piece) :: others, whole =>
        obtain ⟨rfl, rest⟩ := List.cons.inj whole
        obtain ⟨rfl, empty⟩ := List.append_eq_nil_iff.mp rest
        rw [eq_nil_of_flatten (fun empty => filled (.tail _ empty)) empty]
    · rintro rfl
      refine ⟨rfl, by simp, fun before left right after shape => ?_⟩
      cases before <;> simp at shape
  | case4 =>
    constructor
    · exact fun cutting => eq_nil_of_flatten cutting.filled cutting.whole
    · rintro rfl
      refine ⟨rfl, List.not_mem_nil, fun before left right after shape => ?_⟩
      cases before <;> cases shape

/-! ## Runs of letters and digits -/

/-- The runs of letters and digits of a text. -/
def runs (text : List Char) : List (List Char) :=
  (text.splitOnP fun char => !char.isAlphanum).filter (· ≠ [])

/-- What stands between low lines, where that is anything. -/
def betweenLowLines (text : List Char) : List (List Char) := (text.splitOn '_').filter (· ≠ [])

/-- The words of a text. -/
def nameWords (text : List Char) : List (List Char) := (segments text).flatMap runs

def spaced (text : List Char) : List Char := text.map fun char => if isWordChar char then char else '_'

theorem markBoundaries_eq (text : List Char) :
    markBoundaries text = ['_'].intercalate (segments text) := by
  fun_induction segments text with
  | case1 left right rest cut ih =>
    rw [markBoundaries, if_pos (isBoundary_iff_isCut.mpr cut), ih,
      List.intercalate_cons_of_ne_nil (segments_ne_nil right rest)]
    rfl
  | case2 left right rest uncut ih =>
    obtain ⟨piece, others, shape⟩ := List.exists_cons_of_ne_nil (segments_ne_nil right rest)
    rw [markBoundaries, if_neg (isBoundary_iff_isCut.not.mpr uncut), ih, shape, List.modifyHead_cons,
      List.intercalate_cons_cons_left]
  | case3 => rfl
  | case4 => rfl

theorem runs_append_of_other {char : Char} (other : ¬ char.isAlphanum) (before after : List Char) :
    runs (before ++ char :: after) = runs before ++ runs after := by
  rw [runs, List.splitOnP_append_cons _ _ (by simpa using other), List.filter_append]
  rfl

theorem runs_intercalate (pieces : List (List Char)) :
    runs (['_'].intercalate pieces) = pieces.flatMap runs := by
  induction pieces with
  | nil => rfl
  | cons piece pieces ih =>
    cases pieces with
    | nil => rw [List.intercalate_singleton, List.flatMap_singleton]
    | cons next pieces =>
      rw [List.intercalate_cons_cons, List.append_assoc, List.singleton_append,
        runs_append_of_other (by decide), ih]
      rfl

/-- No letter or digit is lost, and nothing else is kept. -/
theorem flatten_runs (text : List Char) : (runs text).flatten = text.filter Char.isAlphanum := by
  rw [runs, List.flatten_filter_ne_nil]
  induction text with
  | nil => rfl
  | cons char text ih =>
    obtain ⟨piece, others, shape⟩ := List.exists_cons_of_ne_nil
      (List.splitOnP_ne_nil (fun char => !char.isAlphanum) text)
    rw [shape, List.flatten_cons] at ih
    rw [List.splitOnP_cons_eq_if_modifyHead, shape]
    by_cases word : char.isAlphanum
    · simp [word, ih]
    · simp [word, ih]

theorem isAlphanum_of_mem_runs {text word : List Char} (member : word ∈ runs text) :
    ∀ char ∈ word, char.isAlphanum := by
  intro char inWord
  have inRuns := List.mem_flatten.mpr ⟨word, member, inWord⟩
  rw [flatten_runs] at inRuns
  exact (List.mem_filter.mp inRuns).2

theorem flatten_nameWords (text : List Char) :
    (nameWords text).flatten = text.filter Char.isAlphanum := by
  have cutting : IsCutting text (segments text) := by rw [isCutting_iff]
  have runs : List.flatten ∘ runs = List.filter Char.isAlphanum := funext flatten_runs
  rw [nameWords, List.flatMap_def, List.flatten_flatten, List.map_map, runs, ← List.filter_flatten,
    cutting.whole]

/-- Low lines in place of the other characters stand where these did. -/
theorem betweenLowLines_spaced (text : List Char) : betweenLowLines (spaced text) = runs text := by
  have same : (spaced text).splitOn '_' = text.splitOnP fun char => !char.isAlphanum := by
    induction text with
    | nil => rfl
    | cons char text ih =>
      rw [spaced, List.map_cons, ← spaced, List.splitOn_cons_eq_if_modifyHead,
        List.splitOnP_cons_eq_if_modifyHead, ih]
      by_cases word : char.isAlphanum
      · have notLowLine : ¬ char == '_' := by
          rw [beq_iff_eq]
          rintro rfl
          exact absurd word (by decide)
        simp [isWordChar, word, notLowLine]
      · simp [isWordChar, word]
  rw [betweenLowLines, same, runs]

/-! ## Single low lines -/

/-- Words with one low line between each two. -/
structure IsSeparated (text : List Char) : Prop where
  apart : text.IsChain ApartLowLines
  begins : ∀ char ∈ text.head?, char ≠ '_'
  ends : ∀ char ∈ text.getLast?, char ≠ '_'

theorem IsSnake.isSeparated {text : List Char} (snake : IsSnake text) : IsSeparated text :=
  ⟨snake.apart, snake.begins, snake.ends⟩

theorem isSeparated_strip_collapse (text : List Char) :
    IsSeparated (stripLowLines (collapseLowLines text)) where
  apart := List.IsChain.infix (isChain_collapseLowLines text).1 (stripLowLines_isInfix _)
  begins := head?_stripLowLines _
  ends := getLast?_stripLowLines _

theorem betweenLowLines_append (before after : List Char) :
    betweenLowLines (before ++ '_' :: after) = betweenLowLines before ++ betweenLowLines after := by
  rw [betweenLowLines, List.splitOn_append_cons_self, List.filter_append]
  rfl

theorem betweenLowLines_lowLine (text : List Char) :
    betweenLowLines ('_' :: text) = betweenLowLines text :=
  betweenLowLines_append [] text

theorem betweenLowLines_concat_lowLine (text : List Char) :
    betweenLowLines (text ++ ['_']) = betweenLowLines text := by
  rw [betweenLowLines_append]
  exact List.append_nil _

theorem betweenLowLines_append_collapse (before text : List Char) :
    betweenLowLines (before ++ collapseLowLines text) = betweenLowLines (before ++ text) := by
  fun_induction collapseLowLines text generalizing before with
  | case1 rest ih =>
    rw [ih, betweenLowLines_append, betweenLowLines_append, betweenLowLines_lowLine]
  | case2 char rest _ ih =>
    rw [List.append_cons, ih, ← List.append_cons]
  | case3 => rfl

theorem betweenLowLines_strip (text : List Char) :
    betweenLowLines (stripLowLines text) = betweenLowLines text := by
  have front (text : List Char) :
      betweenLowLines (text.dropWhile (· == '_')) = betweenLowLines text := by
    induction text with
    | nil => rfl
    | cons char text ih =>
      rw [List.dropWhile_cons]
      split
      · next lowLine => rw [ih, beq_iff_eq.mp lowLine, betweenLowLines_lowLine]
      · rfl
  have back (text : List Char) :
      betweenLowLines (dropEndWhile (· == '_') text) = betweenLowLines text := by
    rw [dropEndWhile_eq_rdropWhile]
    induction text using List.reverseRecOn with
    | nil => rfl
    | append_singleton text char ih =>
      rw [List.rdropWhile_concat]
      split
      · next lowLine => rw [ih, beq_iff_eq.mp lowLine, betweenLowLines_concat_lowLine]
      · rfl
  rw [stripLowLines, back, front]

namespace IsSeparated

variable {text : List Char}

theorem nil_not_mem_splitOn_of_tail {first : Char} {rest : List Char} (other : first ≠ '_')
    (tail : [] ∉ ((first :: rest).splitOn '_').tail) : [] ∉ (first :: rest).splitOn '_' := by
  obtain ⟨piece, others, shape⟩ := List.exists_cons_of_ne_nil (List.splitOn_ne_nil '_' rest)
  rw [List.splitOn_cons_eq_if_modifyHead, if_neg (by simpa using other), shape,
    List.modifyHead_cons] at tail ⊢
  simpa using tail

/-- Only the first piece can be empty: what follows a low line is another character. -/
theorem nil_not_mem_tail_splitOn (apart : text.IsChain ApartLowLines)
    (ends : ∀ char ∈ text.getLast?, char ≠ '_') : [] ∉ (text.splitOn '_').tail := by
  induction text with
  | nil => exact List.not_mem_nil
  | cons char text ih =>
    cases text with
    | nil =>
      have other : ¬ char == '_' := by simpa using ends char rfl
      rw [List.splitOn_cons_eq_if_modifyHead, if_neg other]
      exact List.not_mem_nil
    | cons next rest =>
      obtain ⟨differ, apart⟩ := List.isChain_cons_cons.mp apart
      have later := ih apart (by simpa using ends)
      rw [List.splitOn_cons_eq_if_modifyHead]
      split
      · next lowLine =>
        have other : next ≠ '_' := fun same => differ ⟨beq_iff_eq.mp lowLine, same⟩
        exact nil_not_mem_splitOn_of_tail other later
      · rwa [List.tail_modifyHead]

theorem intercalate_betweenLowLines (separated : IsSeparated text) :
    ['_'].intercalate (betweenLowLines text) = text := by
  cases text with
  | nil => rfl
  | cons first rest =>
    have filled : [] ∉ (first :: rest).splitOn '_' :=
      nil_not_mem_splitOn_of_tail (separated.begins first rfl)
        (nil_not_mem_tail_splitOn separated.apart separated.ends)
    have whole : betweenLowLines (first :: rest) = (first :: rest).splitOn '_' := by
      refine List.filter_eq_self.mpr fun piece member => decide_eq_true ?_
      rintro rfl
      exact filled member
    rw [whole, List.intercalate_splitOn]

end IsSeparated

/-- Only what stands between low lines is left of a text, with one low line between each two. -/
theorem strip_collapse_eq (text : List Char) :
    stripLowLines (collapseLowLines text) = ['_'].intercalate (betweenLowLines text) := by
  rw [← (isSeparated_strip_collapse text).intercalate_betweenLowLines, betweenLowLines_strip]
  exact congrArg _ (betweenLowLines_append_collapse [] text)

/-! ## Small letters -/

theorem map_intercalate {α β : Type} (change : α → β) (separator : List α) (pieces : List (List α)) :
    (separator.intercalate pieces).map change =
      (separator.map change).intercalate (pieces.map (List.map change)) := by
  induction pieces with
  | nil => rfl
  | cons piece pieces ih =>
    cases pieces with
    | nil => simp
    | cons next pieces =>
      rw [List.intercalate_cons_cons, List.map_append, List.map_append, ih]
      simp only [List.map_cons, List.intercalate_cons_cons]

theorem snakeChars_eq (text : List Char) :
    snakeChars text = ['_'].intercalate ((nameWords text).map (List.map Char.toLower)) := by
  have small : Char.toLower = lowerAscii := funext toLower_eq_lowerAscii
  calc snakeChars text
    _ = (['_'].intercalate (betweenLowLines (spaced (markBoundaries text)))).map lowerAscii := by
      rw [← strip_collapse_eq]
      rfl
    _ = (['_'].intercalate (nameWords text)).map lowerAscii := by
      rw [betweenLowLines_spaced, markBoundaries_eq, runs_intercalate, nameWords]
    _ = _ := by
      rw [map_intercalate, small]
      rfl

theorem filter_intercalate_lowLine {words : List (List Char)} (free : ∀ word ∈ words, '_' ∉ word) :
    (['_'].intercalate words).filter (· ≠ '_') = words.flatten := by
  have kept {word : List Char} (free : '_' ∉ word) : word.filter (· ≠ '_') = word := by
    refine List.filter_eq_self.mpr fun char member => decide_eq_true ?_
    rintro rfl
    exact free member
  induction words with
  | nil => rfl
  | cons word words ih =>
    obtain ⟨first, others⟩ := List.forall_mem_cons.mp free
    cases words with
    | nil => simpa using kept first
    | cons next words =>
      have none : ['_'].filter (· ≠ '_') = [] := by decide
      rw [List.intercalate_cons_cons, List.filter_append, List.filter_append, ih others, kept first,
        none, List.append_nil]
      rfl

theorem lowLine_not_mem_map_toLower {text word : List Char} (member : word ∈ nameWords text) :
    '_' ∉ word.map Char.toLower := by
  intro lowLine
  obtain ⟨char, inWord, small⟩ := List.mem_map.mp lowLine
  obtain ⟨piece, -, inRuns⟩ := List.mem_flatMap.mp member
  have word := isAlphanum_of_mem_runs inRuns char inWord
  rw [toLower_eq_lowerAscii] at small
  rw [lowerAscii_eq_lowLine_iff.mp small] at word
  exact absurd word (by decide)

/-- A text in small letters is the words of the text, with one low line between each two. For there is
one way to cut the text where camel case begins words; of its pieces the runs of letters and digits are
the words. Without the low lines it is the letters and digits of the text in small form. -/
theorem snake_joins_words (text : String) :
    (∀ pieces, IsCutting text.toList pieces ↔ pieces = segments text.toList) ∧
    (snake text).toList = ['_'].intercalate
      (((segments text.toList).flatMap runs).map (List.map Char.toLower)) ∧
    (snake text).toList.filter (· ≠ '_') =
      (text.toList.filter Char.isAlphanum).map Char.toLower := by
  have joined : (snake text).toList =
      ['_'].intercalate ((nameWords text.toList).map (List.map Char.toLower)) := by
    rw [snake, String.toList_ofList, snakeChars_eq]
  refine ⟨fun _ => isCutting_iff, joined, ?_⟩
  rw [joined, filter_intercalate_lowLine, ← List.map_flatten, flatten_nameWords]
  exact List.forall_mem_map.mpr fun _ => lowLine_not_mem_map_toLower

example : nameWords "getHTML2-Élan_IndexedDB".toList =
    ["get".toList, "HTML2".toList, "lan".toList, "Indexed".toList, "DB".toList] := by decide

end ProtocolGen.Naming
