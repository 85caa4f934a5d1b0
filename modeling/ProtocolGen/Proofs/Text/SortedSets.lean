import Mathlib.Data.List.Sort
import ProtocolGen.Text.Sorted

/-!
# Sorted sets of names

A sorted set has the names of a list, and has them in strictly increasing order, so lists with the same
names have the same sorted set.
-/

set_option autoImplicit false

namespace ProtocolGen.Text

variable {names : List String} {name : String}

theorem mem_dropRepeats_iff : name ∈ dropRepeats names ↔ name ∈ names := by
  fun_induction dropRepeats names with
  | case1 first rest ih =>
    rw [ih, List.mem_cons (l := first :: rest)]
    exact (or_iff_right_of_imp fun same => same ▸ List.mem_cons_self).symm
  | case2 first second rest _ ih => rw [List.mem_cons, ih, List.mem_cons (l := second :: rest)]
  | case3 => rfl

/-- In a sorted list equal names stand side by side. -/
theorem pairwise_dropRepeats (sorted : names.Pairwise (· ≤ ·)) :
    (dropRepeats names).Pairwise (· < ·) := by
  fun_induction dropRepeats names with
  | case1 first rest ih => exact ih sorted.of_cons
  | case2 first second rest differ ih =>
    refine List.pairwise_cons.mpr ⟨fun name member => ?_, ih sorted.of_cons⟩
    have before := (List.pairwise_cons.mp sorted).1 second List.mem_cons_self
    have next : first < second := Std.lt_of_le_of_ne before differ
    rcases List.mem_cons.mp (mem_dropRepeats_iff.mp member) with rfl | later
    · exact next
    · exact Std.lt_of_lt_of_le next ((List.pairwise_cons.mp sorted.of_cons).1 name later)
  | case3 names short =>
    match names, short with
    | [], _ => exact .nil
    | [name], _ => exact List.pairwise_singleton _ name
    | first :: second :: rest, short => exact (short first second rest rfl).elim

theorem mem_sortedSet_iff : name ∈ sortedSet names ↔ name ∈ names := by
  rw [sortedSet, mem_dropRepeats_iff, List.mem_mergeSort]

theorem pairwise_sortedSet : (sortedSet names).Pairwise (· < ·) := by
  have sorted : (names.mergeSort fun left right => decide (left ≤ right)).Pairwise
      fun left right => decide (left ≤ right) :=
    List.pairwise_mergeSort (by simpa using fun _ _ _ => String.le_trans)
      (by simpa using String.le_total) names
  exact pairwise_dropRepeats (by simpa using sorted)

/-- A list in strictly increasing order is known by its members. -/
theorem eq_of_mem_iff_of_pairwise {others : List String} (sorted : names.Pairwise (· < ·))
    (othersSorted : others.Pairwise (· < ·)) (same : ∀ name, name ∈ names ↔ name ∈ others) :
    names = others := by
  have distinct {listed : List String} (sorted : listed.Pairwise (· < ·)) : listed.Nodup :=
    List.Pairwise.imp String.ne_of_lt sorted
  refine List.Perm.eq_of_pairwise ?_ sorted othersSorted ?_
  · intro left right _ _ before after
    exact absurd (String.lt_trans before after) (String.lt_irrefl _)
  · exact (List.perm_ext_iff_of_nodup (distinct sorted) (distinct othersSorted)).mpr fun name => same name

theorem sortedSet_congr {others : List String} (same : ∀ name, name ∈ names ↔ name ∈ others) :
    sortedSet names = sortedSet others := by
  refine eq_of_mem_iff_of_pairwise pairwise_sortedSet pairwise_sortedSet fun name => ?_
  rw [mem_sortedSet_iff, mem_sortedSet_iff, same]

end ProtocolGen.Text
