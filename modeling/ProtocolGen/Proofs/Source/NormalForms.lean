import Mathlib.Data.List.Chain
import ProtocolGen.Proofs.Source.Lines

/-!
# Normal forms of source texts

A text is normal when it ends with one line feed, has no space or tab before a line feed and has at most
three line feeds in a row. Normalising gives a normal text with the same lines, but for the spaces and
tabs at their ends and for the empty lines, and it leaves a normal text as it is.
-/

set_option autoImplicit false

namespace ProtocolGen.Source

open ProtocolGen.Text

structure IsNormal (text : List Char) : Prop where
  ends : ∃ front, text = front ++ ['\n'] ∧ ¬ ['\n'] <:+ front
  bare : ∀ margin, isMargin margin → ¬ [margin, '\n'] <:+: text
  spaced : ¬ List.replicate 4 '\n' <:+: text

/-! ## Ends of lines -/

/-- What may follow a character: no line feed follows a space or a tab. -/
def MayFollow (left right : Char) : Prop := ¬ (isMargin left ∧ right = '\n')

theorem mayFollow_feed (right : Char) : MayFollow '\n' right := fun both => absurd both.1 (by decide)

theorem mayFollow_of_ne {left right : Char} (other : right ≠ '\n') : MayFollow left right :=
  fun both => other both.2

theorem isChain_mayFollow_iff {text : List Char} :
    text.IsChain MayFollow ↔ ∀ margin, isMargin margin → ¬ [margin, '\n'] <:+: text := by
  rw [List.isChain_iff_forall_rel_of_append_cons_cons]
  constructor
  · intro follows margin isMargin within
    obtain ⟨before, after, rfl⟩ := within
    have same : before ++ [margin, '\n'] ++ after = before ++ margin :: '\n' :: after := by simp
    exact follows same ⟨isMargin, rfl⟩
  · intro bare left right before after same both
    obtain ⟨isMargin, rfl⟩ := both
    exact bare left isMargin ⟨before, after, by simp [same]⟩

theorem isChain_mayFollow_of_not_mem {text : List Char} (single : '\n' ∉ text) :
    text.IsChain MayFollow := by
  rw [List.isChain_iff_forall_rel_of_append_cons_cons]
  rintro left right before after rfl
  exact mayFollow_of_ne fun same => single (by simp [same])

theorem trimmed_concat {line : List Char} {last : Char} :
    trimmed (line ++ [last]) = line ++ [last] ↔ ¬ isMargin last := by
  rw [trimmed, dropEndWhile_eq_rdropWhile, List.rdropWhile_eq_self_iff]
  simp

/-- A line is trimmed when a line feed may follow it. -/
theorem trimmed_eq_self_iff {line : List Char} (single : '\n' ∉ line) :
    trimmed line = line ↔ (line ++ ['\n']).IsChain MayFollow := by
  rcases List.eq_nil_or_concat' line with rfl | ⟨front, last, rfl⟩
  · exact iff_of_true rfl (List.isChain_singleton _)
  · rw [trimmed_concat, List.append_assoc, List.singleton_append, List.isChain_append_cons_cons]
    have inLine := isChain_mayFollow_of_not_mem single
    simp [inLine, MayFollow]

theorem isChain_mayFollow_append_feed (before after : List Char) :
    (before ++ '\n' :: after).IsChain MayFollow ↔
      (before ++ ['\n']).IsChain MayFollow ∧ after.IsChain MayFollow := by
  rw [List.isChain_split, List.isChain_cons]
  refine and_congr_right' (and_iff_right ?_)
  exact fun next _ => mayFollow_feed next

/-- The lines of a text are trimmed when no line feed in it or right behind it follows a space or a
tab. -/
theorem forall_trimmed_iff {text : List Char} :
    (∀ line ∈ linesOf text, trimmed line = line) ↔ (text ++ ['\n']).IsChain MayFollow := by
  -- The part of a line that has been read is carried along, in reverse.
  have pieces (piece text : List Char) (single : '\n' ∉ piece) :
      (∀ line ∈ splitFrom ['\n'] piece 0 text, trimmed line = line) ↔
        (piece.reverse ++ text ++ ['\n']).IsChain MayFollow := by
    induction text generalizing piece with
    | nil =>
      rw [splitFrom_nil, List.forall_mem_singleton, trimmed_eq_self_iff (by simpa using single),
        List.append_nil]
    | cons char text ih =>
      by_cases feed : char = '\n'
      · subst feed
        rw [splitFrom_separator, List.forall_mem_cons, ih [] List.not_mem_nil,
          trimmed_eq_self_iff (by simpa using single), List.append_assoc piece.reverse,
          List.cons_append, isChain_mayFollow_append_feed _ (text ++ ['\n'])]
        rfl
      · rw [splitFrom_of_ne _ feed, ih (char :: piece) (by simp [Ne.symm feed, single]),
          List.reverse_cons, List.append_assoc piece.reverse, List.singleton_append]
  exact pieces [] text List.not_mem_nil

theorem trimLines_of_trimmed {text : List Char} (lines : ∀ line ∈ linesOf text, trimmed line = line) :
    trimLines text = text := by
  have same : (linesOf text).map trimmed = linesOf text := by
    rw [List.map_congr_left lines, List.map_id']
  change joinWith ['\n'] ((linesOf text).map trimmed) = text
  rw [same, linesOf, joinWith_splitOn]

theorem trimmed_of_mem_linesOf_trimLines {text line : List Char}
    (member : line ∈ linesOf (trimLines text)) : trimmed line = line := by
  rw [linesOf_trimLines] at member
  obtain ⟨untrimmed, -, rfl⟩ := List.mem_map.mp member
  rw [trimmed, trimmed, dropEndWhile_eq_rdropWhile, List.rdropWhile_idempotent]

/-! ## Runs of line feeds -/

theorem head?_limitFeedsFrom {count : Nat} (few : count < 3) (text : List Char) :
    (limitFeedsFrom count text).head? = text.head? := by
  fun_cases limitFeedsFrom count text with
  | case1 | case2 | case4 => rfl
  | case3 count rest many => omega

/-- Leaving line feeds out does not put one behind a space or a tab. -/
theorem isChain_mayFollow_limitFeedsFrom (count : Nat) {text : List Char}
    (follows : (text ++ ['\n']).IsChain MayFollow) :
    (limitFeedsFrom count text ++ ['\n']).IsChain MayFollow := by
  fun_induction limitFeedsFrom count text with
  | case1 => exact follows
  | case2 count rest few ih =>
    rw [List.cons_append, List.isChain_cons] at follows ⊢
    exact ⟨fun next _ => mayFollow_feed next, ih follows.2⟩
  | case3 count rest many ih =>
    rw [List.cons_append, List.isChain_cons] at follows
    exact ih follows.2
  | case4 count char rest other ih =>
    rw [List.cons_append, List.isChain_cons] at follows ⊢
    rw [List.head?_append, head?_limitFeedsFrom (by decide), ← List.head?_append]
    exact ⟨follows.1, ih follows.2⟩

/-- A run of one character stands on one side of any other character. -/
theorem replicate_infix_append_cons {count : Nat} {char other : Char} {before after : List Char}
    (differ : other ≠ char) (run : List.replicate count char <:+: before ++ other :: after) :
    List.replicate count char <:+: before ∨ List.replicate count char <:+: after := by
  have nothing {run : List Char} (within : run <+: other :: after) (alike : ∀ each ∈ run, each = char) :
      run = [] := by
    rcases List.prefix_cons_iff.mp within with rfl | ⟨rest, rfl, -⟩
    · rfl
    · exact absurd (alike other List.mem_cons_self) differ
  have alike : ∀ each ∈ List.replicate count char, each = char := fun _ => List.eq_of_mem_replicate
  rcases List.infix_append_iff.mp run with inBefore | inAfter | ⟨front, back, same, ends, begins⟩
  · exact .inl inBefore
  · rcases List.infix_cons_iff.mp inAfter with begins | later
    · rw [nothing begins alike]
      exact .inl List.nil_infix
    · exact .inr later
  · rw [same] at alike ⊢
    rw [nothing begins fun each member => alike each (List.mem_append_right _ member),
      List.append_nil]
    exact .inl ends.isInfix

theorem replicate_append_feed (count : Nat) (rest : List Char) :
    List.replicate count '\n' ++ '\n' :: rest = List.replicate (count + 1) '\n' ++ rest := by
  rw [List.replicate_succ', List.append_assoc, List.singleton_append]

/-- A run of line feeds that has been begun goes on to three at most. -/
theorem not_run_limitFeedsFrom {count : Nat} (few : count ≤ 3) (text : List Char) :
    ¬ List.replicate 4 '\n' <:+: List.replicate count '\n' ++ limitFeedsFrom count text := by
  fun_induction limitFeedsFrom count text with
  | case1 count =>
    intro run
    have long := run.length_le
    rw [List.append_nil, List.length_replicate, List.length_replicate] at long
    omega
  | case2 count rest few' ih =>
    rw [replicate_append_feed]
    exact ih few'
  | case3 count rest many ih => exact ih few
  | case4 count char rest other ih =>
    intro run
    rcases replicate_infix_append_cons other run with inFront | later
    · have long := inFront.length_le
      rw [List.length_replicate, List.length_replicate] at long
      omega
    · exact ih (by decide) later

/-- Nothing is left out where no run of line feeds is long. -/
theorem limitFeedsFrom_of_not_run (count : Nat) {text : List Char}
    (short : ¬ List.replicate 4 '\n' <:+: List.replicate count '\n' ++ text) :
    limitFeedsFrom count text = text := by
  fun_induction limitFeedsFrom count text with
  | case1 => rfl
  | case2 count rest few ih =>
    rw [replicate_append_feed] at short
    rw [ih short]
  | case3 count rest many ih =>
    rw [replicate_append_feed] at short
    have long : List.replicate 4 '\n' <+: List.replicate (count + 1) '\n' := by
      rw [List.prefix_replicate_iff, List.length_replicate]
      exact ⟨by omega, rfl⟩
    exact absurd (long.trans (List.prefix_append _ _)).isInfix short
  | case4 count char rest other ih =>
    rw [ih]
    intro run
    exact short (run.trans (List.suffix_append_of_suffix (List.suffix_cons _ _)).isInfix)

/-! ## Normal texts -/

theorem trimLines_of_isNormal {text : List Char} (normal : IsNormal text) : trimLines text = text := by
  obtain ⟨front, rfl, -⟩ := normal.ends
  have trimmedFront : ∀ line ∈ linesOf front, trimmed line = line := by
    rw [forall_trimmed_iff]
    exact isChain_mayFollow_iff.mpr normal.bare
  refine trimLines_of_trimmed fun line member => ?_
  rw [linesOf_concat_feed] at member
  rcases List.mem_append.mp member with inFront | atEnd
  · exact trimmedFront line inFront
  · rw [List.mem_singleton.mp atEnd]
    rfl

theorem dropEndWhile_feed_of_not_suffix {front : List Char} (ends : ¬ ['\n'] <:+ front) :
    dropEndWhile (· == '\n') front = front := by
  rw [dropEndWhile_eq_rdropWhile, List.rdropWhile_eq_self_iff]
  intro notEmpty feed
  refine ends ⟨front.dropLast, ?_⟩
  rw [← beq_iff_eq.mp feed, List.dropLast_concat_getLast]

theorem normalise_of_isNormal {text : List Char} (normal : IsNormal text) : normalise text = text := by
  obtain ⟨front, same, ends⟩ := normal.ends
  rw [normalise, trimLines_of_isNormal normal, limitFeeds, limitFeedsFrom_of_not_run 0 normal.spaced,
    same, dropEndWhile_eq_rdropWhile, List.rdropWhile_concat_pos _ _ _ (by decide),
    ← dropEndWhile_eq_rdropWhile, dropEndWhile_feed_of_not_suffix ends]

theorem not_suffix_dropEndWhile_feed (text : List Char) :
    ¬ ['\n'] <:+ dropEndWhile (· == '\n') text := by
  intro ends
  obtain ⟨front, same⟩ := ends
  rw [dropEndWhile_eq_rdropWhile] at same
  have notEmpty : text.rdropWhile (· == '\n') ≠ [] := by
    rw [← same]
    exact List.append_ne_nil_of_right_ne_nil _ (List.cons_ne_nil _ _)
  have last := List.rdropWhile_last_not (· == '\n') text notEmpty
  simp [← same] at last

/-- A text without the line feeds at its end is followed by one in the text, unless it is all of it. -/
theorem isPrefix_dropEndWhile_feed (text : List Char) :
    dropEndWhile (· == '\n') text ++ ['\n'] <+: text ++ ['\n'] := by
  rw [dropEndWhile_eq_rdropWhile]
  induction text using List.reverseRecOn with
  | nil => exact List.prefix_rfl
  | append_singleton text last ih =>
    by_cases feed : last = '\n'
    · rw [List.rdropWhile_concat_pos _ _ _ (by simpa using feed), feed]
      exact ih.trans (List.prefix_append _ _)
    · simp [feed]

theorem isNormal_normalise (text : List Char) : IsNormal (normalise text) := by
  have ends := not_suffix_dropEndWhile_feed (limitFeeds (trimLines text))
  refine ⟨⟨_, rfl, ends⟩, ?_, fun run => ?_⟩
  · have trimmedLines : (trimLines text ++ ['\n']).IsChain MayFollow := by
      rw [← forall_trimmed_iff]
      exact fun line => trimmed_of_mem_linesOf_trimLines
    have limited : (limitFeeds (trimLines text) ++ ['\n']).IsChain MayFollow :=
      isChain_mayFollow_limitFeedsFrom 0 trimmedLines
    have final := List.IsChain.prefix limited (isPrefix_dropEndWhile_feed _)
    exact isChain_mayFollow_iff.mp final
  · rcases List.infix_concat_iff.mp run with atEnd | inFront
    · rw [List.replicate_succ', List.suffix_append_self_iff, List.replicate_succ'] at atEnd
      exact ends ((List.suffix_append _ _).trans atEnd)
    · rw [dropEndWhile_eq_rdropWhile] at inFront
      have inLimited := inFront.trans (List.rdropWhile_prefix _ _).isInfix
      exact not_run_limitFeedsFrom (Nat.zero_le 3) (trimLines text) inLimited

theorem solidLines_normalise (text : List Char) : solidLines (normalise text) = solidLines text := by
  rw [← fullLines_trimLines, trimLines_of_isNormal (isNormal_normalise text), fullLines_normalise]

/-- Normalising gives a normal text, with the lines that are not empty once they are trimmed, and changes
no normal text, so that doing it twice is doing it once. It is what the standard formatter does to a text
that it accepts. -/
theorem normalise_reaches_normal_form (text : List Char) :
    normalise (normalise text) = normalise text ∧
    IsNormal (normalise text) ∧
    solidLines (normalise text) = solidLines text ∧
    ∀ formatted, format (String.ofList text) = .ok formatted → formatted.toList = normalise text := by
  refine ⟨normalise_of_isNormal (isNormal_normalise text), isNormal_normalise text,
    solidLines_normalise text, fun formatted made => ?_⟩
  rw [toList_of_format made, String.toList_ofList]

def looseText : List Char := "one = 1 \t\n \n\n\t\n\n\ntwo = 2\n\n \n".toList

theorem looseText_is_normalised :
    format (String.ofList looseText) = .ok "one = 1\n\n\ntwo = 2\n" ∧
      "one = 1\n\n\ntwo = 2\n".toList = normalise looseText := by
  have made : format (String.ofList looseText) = .ok "one = 1\n\n\ntwo = 2\n" := by decide +kernel
  obtain ⟨-, -, -, formats⟩ := normalise_reaches_normal_form looseText
  exact ⟨made, formats _ made⟩

end ProtocolGen.Source
