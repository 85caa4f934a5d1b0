import Mathlib.Data.List.DropRight
import ProtocolGen.Text.Blank

/-!
# Cutting at a character and trimming

A text that is cut at a character falls into the pieces on both sides of each occurrence. Joining is
the library's intercalation, and trimming the end of a list its `rdropWhile`.
-/

set_option autoImplicit false

namespace ProtocolGen.Text

section Equations

variable {separator piece rest : List Char} {char : Char}

theorem afterStart?_cons {start : List Char} {expected : Char} :
    afterStart? (expected :: start) (char :: rest) =
      if expected = char then afterStart? start rest else none := rfl

theorem splitFrom_nil {skip : Nat} : splitFrom separator piece skip [] = [piece.reverse] := rfl

theorem splitFrom_cons : splitFrom separator piece 0 (char :: rest) =
    if (afterStart? separator (char :: rest)).isSome then
      piece.reverse :: splitFrom separator [] (separator.length - 1) rest
    else
      splitFrom separator (char :: piece) 0 rest := rfl

theorem joinWith_singleton : joinWith separator [piece] = piece := rfl

theorem joinWith_cons {pieces : List (List Char)} (piece : List Char) (others : pieces ≠ []) :
    joinWith separator (piece :: pieces) = piece ++ (separator ++ joinWith separator pieces) := by
  cases pieces with
  | nil => exact absurd rfl others
  | cons second pieces => exact List.append_assoc ..

end Equations

theorem eq_append_of_afterStart? {start list rest : List Char}
    (found : afterStart? start list = some rest) : list = start ++ rest := by
  induction start generalizing list with
  | nil => exact Option.some.inj found
  | cons expected start ih =>
    cases list with
    | nil => cases found
    | cons head list =>
      rw [afterStart?_cons] at found
      split at found
      · next same => rw [ih found, same, List.cons_append]
      · cases found

theorem afterStart?_append (start rest : List Char) : afterStart? start (start ++ rest) = some rest := by
  induction start with
  | nil => rfl
  | cons head start ih => rw [List.cons_append, afterStart?_cons, if_pos rfl, ih]

/-- What stands behind a start is reached by passing over the rest of the start. -/
theorem drop_of_afterStart? {start rest after : List Char} {head : Char} (notEmpty : start ≠ [])
    (found : afterStart? start (head :: rest) = some after) :
    rest.drop (start.length - 1) = after := by
  have shape := eq_append_of_afterStart? found
  obtain ⟨first, start, rfl⟩ := List.exists_cons_of_ne_nil notEmpty
  rw [(List.cons.inj shape).2]
  exact List.drop_left

theorem splitFrom_ne_nil {separator piece chars : List Char} {skip : Nat} :
    splitFrom separator piece skip chars ≠ [] := by
  induction chars generalizing piece skip with
  | nil => exact List.cons_ne_nil _ _
  | cons char chars ih =>
    cases skip with
    | succ skip => exact ih
    | zero =>
      rw [splitFrom_cons]
      split
      · exact List.cons_ne_nil _ _
      · exact ih

/-- A text that holds a pattern falls into more than one piece. -/
theorem one_lt_length_splitFrom {pattern piece chars : List Char} (notEmpty : pattern ≠ [])
    (within : pattern <:+: chars) : 1 < (splitFrom pattern piece 0 chars).length := by
  induction chars generalizing piece with
  | nil => exact absurd (List.infix_nil.mp within) notEmpty
  | cons char chars ih =>
    rw [splitFrom_cons]
    split
    · rw [List.length_cons]
      exact Nat.succ_lt_succ (List.length_pos_iff.mpr splitFrom_ne_nil)
    · next absent =>
      rcases List.infix_cons_iff.mp within with ⟨rest, starts⟩ | later
      · rw [← starts, afterStart?_append] at absent
        exact absurd Option.isSome_some absent
      · exact ih later

section Splitting

variable {separator : Char} {piece : List Char}

theorem splitFrom_separator (rest : List Char) :
    splitFrom [separator] piece 0 (separator :: rest) =
      piece.reverse :: splitFrom [separator] [] 0 rest := by
  have found : (afterStart? [separator] (separator :: rest)).isSome :=
    Option.isSome_of_eq_some (afterStart?_append [separator] rest)
  rw [splitFrom_cons, if_pos found, List.length_singleton]

theorem splitFrom_of_ne {char : Char} (rest : List Char) (other : char ≠ separator) :
    splitFrom [separator] piece 0 (char :: rest) =
      splitFrom [separator] (char :: piece) 0 rest := by
  have absent : afterStart? [separator] (char :: rest) = none := by
    rw [afterStart?_cons, if_neg other.symm]
  rw [splitFrom_cons, absent, Option.isSome_none, if_neg Bool.false_ne_true]

theorem splitFrom_of_not_mem {chars : List Char} (absent : separator ∉ chars) :
    splitFrom [separator] piece 0 chars = [piece.reverse ++ chars] := by
  induction chars generalizing piece with
  | nil => rw [splitFrom_nil, List.append_nil]
  | cons char rest ih =>
    rw [List.mem_cons, not_or] at absent
    rw [splitFrom_of_ne rest (Ne.symm absent.1), ih absent.2, List.reverse_cons, List.append_assoc,
      List.singleton_append]

theorem splitOn_of_not_mem {chars : List Char} (absent : separator ∉ chars) :
    splitOn [separator] chars = [chars] :=
  splitFrom_of_not_mem absent

theorem splitFrom_append_separator (before after : List Char) :
    splitFrom [separator] piece 0 (before ++ separator :: after) =
      splitFrom [separator] piece 0 before ++ splitFrom [separator] [] 0 after := by
  induction before generalizing piece with
  | nil => rw [List.nil_append, splitFrom_separator, splitFrom_nil, List.singleton_append]
  | cons char before ih =>
    rw [List.cons_append]
    by_cases same : char = separator
    · subst same
      rw [splitFrom_separator, splitFrom_separator, ih, List.cons_append]
    · rw [splitFrom_of_ne _ same, splitFrom_of_ne _ same, ih]

theorem splitOn_append_separator (before after : List Char) :
    splitOn [separator] (before ++ separator :: after) =
      splitOn [separator] before ++ splitOn [separator] after :=
  splitFrom_append_separator before after

theorem not_mem_of_mem_splitFrom {chars line : List Char} (free : separator ∉ piece)
    (member : line ∈ splitFrom [separator] piece 0 chars) : separator ∉ line := by
  induction chars generalizing piece with
  | nil =>
    rw [splitFrom_nil, List.mem_singleton] at member
    rwa [member, List.mem_reverse]
  | cons char chars ih =>
    by_cases same : char = separator
    · rw [same, splitFrom_separator] at member
      rcases List.mem_cons.mp member with rfl | later
      · rwa [List.mem_reverse]
      · exact ih List.not_mem_nil later
    · rw [splitFrom_of_ne _ same] at member
      exact ih (by simpa [Ne.symm same] using free) member

/-- Joined pieces fall apart into what each of them falls into. -/
theorem splitOn_joinWith {pieces : List (List Char)} (notEmpty : pieces ≠ []) :
    splitOn [separator] (joinWith [separator] pieces) = pieces.flatMap (splitOn [separator]) := by
  induction pieces with
  | nil => exact absurd rfl notEmpty
  | cons piece pieces ih =>
    rcases eq_or_ne pieces [] with rfl | others
    · rw [joinWith_singleton, List.flatMap_singleton]
    · rw [joinWith_cons piece others, List.singleton_append, splitOn_append_separator, ih others,
        List.flatMap_cons]

/-- A piece before one more character either is a piece already or ends with the character. -/
theorem mem_splitFrom_concat {char : Char} {chars line : List Char} (other : char ≠ separator)
    (member : line ∈ splitFrom [separator] piece 0 (chars ++ [char])) :
    line ∈ splitFrom [separator] piece 0 chars ∨ ∃ front, line = front ++ [char] := by
  induction chars generalizing piece with
  | nil =>
    rw [List.nil_append, splitFrom_of_ne _ other, splitFrom_nil, List.mem_singleton,
      List.reverse_cons] at member
    exact .inr ⟨piece.reverse, member⟩
  | cons first chars ih =>
    rw [List.cons_append] at member
    by_cases same : first = separator
    · subst same
      rw [splitFrom_separator] at member ⊢
      rcases List.mem_cons.mp member with rfl | later
      · exact .inl List.mem_cons_self
      · exact (ih later).imp_left (List.mem_cons_of_mem _)
    · rw [splitFrom_of_ne _ same] at member ⊢
      exact ih member

end Splitting

theorem joinWith_eq_intercalate (separator : List Char) (pieces : List (List Char)) :
    joinWith separator pieces = separator.intercalate pieces := by
  induction pieces with
  | nil => rw [List.intercalate_nil]; rfl
  | cons piece pieces ih =>
    cases pieces with
    | nil => rw [joinWith_singleton, List.intercalate_singleton]
    | cons second pieces =>
      rw [joinWith_cons piece (List.cons_ne_nil second pieces), ih, List.intercalate_cons_cons,
        List.append_assoc]

/-! ## Replacing -/

section Replacing

variable {pattern replacement : List Char}

theorem joinWith_splitFrom (piece : List Char) (skip : Nat) (chars : List Char) :
    joinWith replacement (splitFrom pattern piece skip chars) =
      piece.reverse ++ joinWith replacement (splitFrom pattern [] skip chars) := by
  induction chars generalizing piece skip with
  | nil => exact (List.append_nil _).symm
  | cons char chars ih =>
    cases skip with
    | succ skip => exact ih piece skip
    | zero =>
      rw [splitFrom_cons, splitFrom_cons]
      split
      · rw [joinWith_cons _ splitFrom_ne_nil, joinWith_cons _ splitFrom_ne_nil]
        rfl
      · rw [ih (char :: piece), ih [char], List.reverse_cons, List.append_assoc]
        rfl

theorem replaceAll_cons_of_none {char : Char} {rest : List Char}
    (other : afterStart? pattern (char :: rest) = none) :
    replaceAll pattern replacement (char :: rest) = char :: replaceAll pattern replacement rest := by
  rw [replaceAll, splitOn, splitFrom_cons, other, if_neg (by simp), joinWith_splitFrom]
  rfl

theorem splitFrom_drop (skip : Nat) (chars : List Char) :
    splitFrom pattern [] skip chars = splitFrom pattern [] 0 (chars.drop skip) := by
  induction skip generalizing chars with
  | zero => rfl
  | succ skip ih =>
    cases chars with
    | nil => rfl
    | cons char chars => exact ih chars

theorem replaceAll_cons_of_some {char : Char} {rest after : List Char} (notEmpty : pattern ≠ [])
    (found : afterStart? pattern (char :: rest) = some after) :
    replaceAll pattern replacement (char :: rest) =
      replacement ++ replaceAll pattern replacement after := by
  rw [replaceAll, splitOn, splitFrom_cons, found, if_pos Option.isSome_some,
    joinWith_cons _ splitFrom_ne_nil, splitFrom_drop, drop_of_afterStart? notEmpty found]
  rfl

end Replacing

/-- A text is what its pieces are joined to. -/
theorem joinWith_splitOn (separator : Char) (chars : List Char) :
    joinWith [separator] (splitOn [separator] chars) = chars := by
  induction chars with
  | nil => rfl
  | cons char chars ih =>
    by_cases same : char = separator
    · subst same
      rw [splitOn, splitFrom_separator, joinWith_cons _ splitFrom_ne_nil, ← splitOn, ih]
      rfl
    · rw [splitOn, splitFrom_of_ne _ same, joinWith_splitFrom, ← splitOn, ih]
      rfl

/-- Trimming the end of a list is the library's, so its lemmas apply. -/
theorem dropEndWhile_eq_rdropWhile {α : Type} (inClass : α → Bool) :
    dropEndWhile inClass = List.rdropWhile inClass := rfl

end ProtocolGen.Text
