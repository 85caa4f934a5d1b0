import Mathlib.Data.List.Induction
import ProtocolGen.Proofs.Source.Buffers
import ProtocolGen.Proofs.Text.Splitting
import ProtocolGen.Source.Formatter

/-!
# Lines of written texts

The normal form of a text has the same lines in the same order, but for the spaces and tabs at their
ends and for the empty lines. So a line that a buffer holds is a line of the text that is written of
it, unless it ends with a blank.
-/

set_option autoImplicit false

namespace ProtocolGen.Source

open ProtocolGen.Text

theorem linesOf_of_not_mem {line : List Char} (single : '\n' ∉ line) : linesOf line = [line] :=
  splitOn_of_not_mem single

theorem linesOf_append_feed (before after : List Char) :
    linesOf (before ++ '\n' :: after) = linesOf before ++ linesOf after :=
  splitOn_append_separator before after

theorem linesOf_concat_feed (text : List Char) : linesOf (text ++ ['\n']) = linesOf text ++ [[]] :=
  linesOf_append_feed text []

theorem linesOf_joinWith {lines : List (List Char)} (notEmpty : lines ≠ []) :
    linesOf (joinWith ['\n'] lines) = lines.flatMap linesOf :=
  splitOn_joinWith notEmpty

theorem linesOf_ne_nil (text : List Char) : linesOf text ≠ [] := splitFrom_ne_nil

theorem not_mem_of_mem_linesOf {text line : List Char} (member : line ∈ linesOf text) :
    '\n' ∉ line :=
  not_mem_of_mem_splitFrom List.not_mem_nil member

/-! ## The lines of a normal form -/

/-- A line without the spaces and tabs at its end. -/
def trimmed (line : List Char) : List Char := dropEndWhile isMargin line

def notEmpty (line : List Char) : Bool := !line.isEmpty

/-- The lines of a text that are not empty. -/
def fullLines (text : List Char) : List (List Char) := (linesOf text).filter notEmpty

/-- The lines of a text, trimmed, that are not empty then. -/
def solidLines (text : List Char) : List (List Char) := ((linesOf text).map trimmed).filter notEmpty

theorem linesOf_trimLines (text : List Char) : linesOf (trimLines text) = (linesOf text).map trimmed := by
  have single : ∀ line ∈ linesOf text, linesOf (trimmed line) = [trimmed line] := by
    intro line member
    refine linesOf_of_not_mem fun feed => not_mem_of_mem_linesOf member ?_
    rw [trimmed, dropEndWhile_eq_rdropWhile] at feed
    exact (List.rdropWhile_prefix _ _).subset feed
  rw [trimLines, linesOf_joinWith (by simpa using linesOf_ne_nil text), List.flatMap_map]
  change (linesOf text).flatMap (fun line => linesOf (trimmed line)) = _
  rw [List.flatMap_congr single, List.map_eq_flatMap]

theorem fullLines_trimLines (text : List Char) : fullLines (trimLines text) = solidLines text := by
  rw [fullLines, linesOf_trimLines, solidLines]

theorem fullLines_concat_feed (text : List Char) : fullLines (text ++ ['\n']) = fullLines text := by
  rw [fullLines, linesOf_concat_feed, List.filter_append, fullLines]
  exact List.append_nil _

/-- Behind a line feed the line that has begun is empty, so leaving out one more leaves out an empty
line. -/
theorem filter_splitFrom_limitFeedsFrom {count : Nat} {piece : List Char} (text : List Char)
    (behindFeed : 0 < count → piece = []) :
    (splitFrom ['\n'] piece 0 (limitFeedsFrom count text)).filter notEmpty =
      (splitFrom ['\n'] piece 0 text).filter notEmpty := by
  fun_induction limitFeedsFrom count text generalizing piece with
  | case1 => rfl
  | case2 count rest few ih =>
    rw [splitFrom_separator, splitFrom_separator, List.filter_cons, List.filter_cons,
      ih fun _ => rfl]
  | case3 count rest many ih =>
    have begun : piece = [] := behindFeed (by omega)
    subst begun
    rw [ih fun _ => rfl, splitFrom_separator, List.filter_cons]
    rfl
  | case4 count char rest other ih =>
    have plain : char ≠ '\n' := other
    rw [splitFrom_of_ne _ plain, splitFrom_of_ne _ plain, ih fun first => absurd first (lt_irrefl 0)]

theorem fullLines_limitFeeds (text : List Char) : fullLines (limitFeeds text) = fullLines text :=
  filter_splitFrom_limitFeedsFrom text fun first => absurd first (lt_irrefl 0)

theorem fullLines_dropEndFeeds (text : List Char) :
    fullLines (dropEndWhile (· == '\n') text) = fullLines text := by
  rw [dropEndWhile_eq_rdropWhile]
  induction text using List.reverseRecOn with
  | nil => rfl
  | append_singleton text last ih =>
    by_cases feed : last = '\n'
    · rw [List.rdropWhile_concat_pos _ _ _ (by simpa using feed), ih, feed, fullLines_concat_feed]
    · rw [List.rdropWhile_concat_neg _ _ _ (by simpa using feed)]

theorem fullLines_normalise (text : List Char) : fullLines (normalise text) = solidLines text := by
  rw [normalise, fullLines_concat_feed, fullLines_dropEndFeeds, fullLines_limitFeeds,
    fullLines_trimLines]

theorem toList_of_format {text formatted : String} (made : format text = .ok formatted) :
    formatted.toList = normalise text.toList := by
  rw [format] at made
  split at made
  · simp at made
  · split at made
    · simp at made
    · rw [← Except.ok.inj made, String.toList_ofList]

/-! ## Lines that are kept as they are -/

/-- One line that does not end with a blank. -/
structure IsSolid (line : List Char) : Prop where
  single : '\n' ∉ line
  ends : ∃ front last, line = front ++ [last] ∧ ¬ isBlank last

theorem isSolid_iff {line : List Char} :
    IsSolid line ↔ '\n' ∉ line ∧ line.getLast?.any fun last => !isBlank last := by
  rw [Option.any_eq_true]
  constructor
  · rintro ⟨single, front, last, rfl, notBlank⟩
    exact ⟨single, last, List.getLast?_concat, by simpa using notBlank⟩
  · rintro ⟨single, last, ends, notBlank⟩
    obtain ⟨front, rfl⟩ := List.getLast?_eq_some_iff.mp ends
    exact ⟨single, front, last, rfl, by simpa using notBlank⟩

theorem isSolid_append {front back : String} (single : '\n' ∉ front.toList)
    (solid : IsSolid back.toList) : IsSolid (front ++ back).toList := by
  obtain ⟨backSingle, before, last, same, notBlank⟩ := solid
  rw [String.toList_append]
  refine ⟨by simp [single, backSingle], front.toList ++ before, last, ?_, notBlank⟩
  rw [same, List.append_assoc]

namespace IsSolid

variable {line : List Char} (solid : IsSolid line)

include solid

theorem notEmpty : notEmpty line := by
  obtain ⟨front, last, rfl, -⟩ := solid.ends
  simp [Source.notEmpty]

theorem trimmed_eq : trimmed line = line := by
  obtain ⟨front, last, rfl, notBlank⟩ := solid.ends
  rw [trimmed, dropEndWhile_eq_rdropWhile, List.rdropWhile_concat_neg]
  intro margin
  rw [isMargin, Bool.or_eq_true, beq_iff_eq, beq_iff_eq] at margin
  rcases margin with rfl | rfl
  · exact notBlank (by decide)
  · exact notBlank (by decide)

theorem mem_linesOf_normalise {text : List Char} (member : line ∈ linesOf text) :
    line ∈ linesOf (normalise text) := by
  have kept : line ∈ solidLines text := by
    refine List.mem_filter.mpr ⟨?_, solid.notEmpty⟩
    exact List.mem_map.mpr ⟨line, member, solid.trimmed_eq⟩
  rw [← fullLines_normalise] at kept
  exact (List.mem_filter.mp kept).1

theorem mem_linesOf_trimEnd {text : List Char} (member : line ∈ linesOf text) :
    line ∈ linesOf (trimEnd text) := by
  rw [trimEnd, dropEndWhile_eq_rdropWhile]
  -- On the text from its end: a blank that goes is behind the line or makes an end it cannot have.
  induction text using List.reverseRecOn with
  | nil => exact member
  | append_singleton text last ih =>
    by_cases blank : isBlank last
    · rw [List.rdropWhile_concat_pos _ _ _ blank]
      refine ih ?_
      by_cases feed : last = '\n'
      · rw [feed, linesOf_concat_feed] at member
        rcases List.mem_append.mp member with before | atEnd
        · exact before
        · rw [List.mem_singleton.mp atEnd] at solid
          exact absurd solid.notEmpty (by decide)
      · rcases mem_splitFrom_concat feed member with before | ⟨front, rfl⟩
        · exact before
        · obtain ⟨other, char, same, notBlank⟩ := solid.ends
          have lasts : last = char := by simpa using congrArg List.getLast? same
          exact absurd (lasts ▸ blank) notBlank
    · rwa [List.rdropWhile_concat_neg _ _ _ blank]

end IsSolid

theorem Buffer.mem_bodyLines {buffer : Buffer} {line : String} (member : line ∈ buffer.lines)
    (full : ¬ line.isEmpty) : line ∈ buffer.bodyLines := by
  have parts : line ∈ buffer.lines.toList.takeWhile String.isEmpty ++ buffer.bodyLines := by
    rw [bodyLines, List.takeWhile_append_dropWhile]
    exact Array.mem_toList_iff.mpr member
  rcases List.mem_append.mp parts with leading | body
  · exact absurd (List.mem_takeWhile_imp leading) full
  · exact body

/-- A line above or in the body of a buffer is one of the text that is written of it. -/
theorem Buffer.mem_linesOf_render {buffer : Buffer} {line : String} (solid : IsSolid line.toList)
    (member : line ∈ buffer.topLines ++ buffer.bodyLines) :
    line.toList ∈ linesOf buffer.render.toList := by
  have inText : line.toList ∈
      linesOf (joinWith ['\n'] ((buffer.topLines ++ buffer.bodyLines).map String.toList)) := by
    rw [linesOf_joinWith (by simp [topLines])]
    refine List.mem_flatMap.mpr ⟨line.toList, List.mem_map_of_mem member, ?_⟩
    rw [linesOf_of_not_mem solid.single]
    exact List.mem_singleton_self _
  have feed : "\n".toList = ['\n'] := rfl
  rw [render, String.toList_ofList, String.toList_intercalate, feed, ← joinWith_eq_intercalate,
    linesOf_concat_feed]
  exact List.mem_append_left _ (solid.mem_linesOf_trimEnd inText)

theorem Buffer.mem_linesOf_render_of_mem_lines {buffer : Buffer} {line : String}
    (solid : IsSolid line.toList) (member : line ∈ buffer.lines) :
    line.toList ∈ linesOf buffer.render.toList := by
  have full : ¬ line.isEmpty := by simpa [Source.notEmpty] using solid.notEmpty
  exact mem_linesOf_render solid (List.mem_append_right _ (mem_bodyLines member full))

end ProtocolGen.Source
