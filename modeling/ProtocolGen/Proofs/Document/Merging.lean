import Mathlib.Data.List.Perm.Basic
import ProtocolGen.Package.Generate
import ProtocolGen.Proofs.Document.Unreported
import ProtocolGen.Proofs.Sequencing
import ProtocolGen.Proofs.Text.Characters
import ProtocolGen.Proofs.Text.SortedSets
import ProtocolGen.Proofs.Types.Extension

/-!
# Putting documents together

What the domains of several documents are put together to depends on the domains alone: they are sorted
by name, or refused with the names that come more than once. So neither the order of the documents nor
the way the domains are spread over them changes what a run does.
-/

set_option autoImplicit false

namespace ProtocolGen.Document

open ProtocolGen.Types (Sorted)

/-! ## Repeated names -/

section Repeated

variable {names : List String} {name : String}

theorem mem_repeatedFrom_iff {seen : List String} :
    name ∈ repeatedFrom seen names ↔ name ∈ seen ∧ name ∈ names ∨ 2 ≤ names.count name := by
  fun_induction repeatedFrom seen names with
  | case1 => simp
  | case2 seen first names known ih =>
    rw [List.contains_iff_mem] at known
    by_cases same : name = first
    · subst same
      simp [known]
    · simp [same, ih, Ne.symm same]
  | case3 seen first names new ih =>
    rw [List.contains_iff_mem] at new
    by_cases same : name = first
    · subst same
      have once : name ∈ names ↔ 2 ≤ names.count name + 1 := by
        rw [← List.one_le_count_iff]
        omega
      have twice (more : 2 ≤ names.count name) : name ∈ names := once.mpr (by omega)
      rw [ih, List.count_cons_self, ← once]
      simpa [new] using twice
    · simp [same, ih, Ne.symm same]

theorem mem_repeated_iff : name ∈ repeatedFrom [] names ↔ 2 ≤ names.count name := by
  rw [mem_repeatedFrom_iff]
  exact or_iff_right fun ⟨seen, _⟩ => List.not_mem_nil seen

theorem repeated_eq_nil_iff : repeatedFrom [] names = [] ↔ names.Nodup := by
  rw [List.eq_nil_iff_forall_not_mem, List.nodup_iff_count_le_one]
  refine forall_congr' fun name => ?_
  rw [mem_repeated_iff]
  omega

end Repeated

/-! ## What domains are put together to -/

def namesOf (domains : List Domain) : List String := domains.map Domain.name

/-- The outcome for domains, given as a collection: all of them by name, or their repeated names. -/
inductive Merges (domains : List Domain) : Except DocumentRefusal (List Domain) → Prop where
  | sorted {merged : List Domain} (increasing : Sorted merged) (same : merged.Perm domains) :
      Merges domains (.ok merged)
  | refused {repeated : List String} (some : repeated ≠ []) (increasing : repeated.Pairwise (· < ·))
      (same : ∀ name, name ∈ repeated ↔ 2 ≤ (namesOf domains).count name) :
      Merges domains (.error ⟨mergedSource, .duplicateDomains repeated⟩)

theorem sorted_mergeSort {domains : List Domain} (distinct : (namesOf domains).Nodup) :
    Sorted (domains.mergeSort fun left right => decide (left.name ≤ right.name)) := by
  have ordered : (domains.mergeSort fun left right => decide (left.name ≤ right.name)).Pairwise
      fun left right => decide (left.name ≤ right.name) :=
    List.pairwise_mergeSort (by simpa using fun _ _ _ => String.le_trans)
      (by simpa using fun _ _ => String.le_total _ _) domains
  have distinctSorted := ((List.mergeSort_perm domains
    fun left right => decide (left.name ≤ right.name)).map Domain.name).nodup_iff.mpr distinct
  rw [List.nodup_iff_pairwise_ne, List.pairwise_map] at distinctSorted
  refine ordered.imp₂ (fun left right before differ => ?_) distinctSorted
  exact Std.lt_of_le_of_ne (of_decide_eq_true before) differ

theorem merges_mergeDomains (domains : List Domain) : Merges domains (mergeDomains domains) := by
  rw [mergeDomains]
  split
  · next none =>
    exact .sorted (sorted_mergeSort (repeated_eq_nil_iff.mp none)) (List.mergeSort_perm _ _)
  · next repeated =>
    refine .refused (fun empty => repeated ?_) Text.pairwise_sortedSet fun name => ?_
    · rw [List.eq_nil_iff_forall_not_mem] at empty ⊢
      exact fun name => mt Text.mem_sortedSet_iff.mpr (empty name)
    · rw [Text.mem_sortedSet_iff, mem_repeated_iff]
      rfl

namespace Merges

variable {domains others : List Domain} {outcome other : Except DocumentRefusal (List Domain)}

/-- Domains are put together to a list exactly when no two have the same name. -/
theorem isOk_iff (merges : Merges domains outcome) : outcome.isOk ↔ (namesOf domains).Nodup := by
  cases merges with
  | sorted increasing same =>
    have distinct : (namesOf domains).Nodup := by
      rw [namesOf, ← (same.map Domain.name).nodup_iff, List.nodup_iff_pairwise_ne, List.pairwise_map]
      exact List.Pairwise.imp String.ne_of_lt increasing
    exact iff_of_true rfl distinct
  | refused some _ same =>
    refine iff_of_false (fun ends => nomatch ends) fun distinct => ?_
    obtain ⟨name, member⟩ := List.exists_mem_of_ne_nil _ some
    have atMostOnce := List.nodup_iff_count_le_one.mp distinct name
    have twice := (same name).mp member
    omega

/-- The same domains in another order have the same outcome. -/
theorem unique (merges : Merges domains outcome) (otherMerges : Merges others other)
    (same : others.Perm domains) : other = outcome := by
  have names : (namesOf others).Perm (namesOf domains) := same.map Domain.name
  have ends : other.isOk = outcome.isOk := by
    rw [Bool.eq_iff_iff, merges.isOk_iff, otherMerges.isOk_iff, names.nodup_iff]
  cases merges with
  | sorted increasing perm =>
    cases otherMerges with
    | sorted otherIncreasing otherPerm =>
      congr 1
      refine List.Perm.eq_of_pairwise ?_ otherIncreasing increasing
        (otherPerm.trans (same.trans perm.symm))
      intro left right _ _ before after
      exact absurd (String.lt_trans before after) (String.lt_irrefl _)
    | refused => cases ends
  | refused _ increasing counted =>
    cases otherMerges with
    | sorted => cases ends
    | refused _ otherIncreasing otherCounted =>
      congr 3
      refine Text.eq_of_mem_iff_of_pairwise otherIncreasing increasing fun name => ?_
      rw [counted, otherCounted, names.count_eq]

end Merges

theorem merges_merge (protocols : List Protocol) :
    Merges (protocols.flatMap Protocol.domains) (merge protocols) :=
  merges_mergeDomains _

/-! ## Whole runs -/

section Runs

variable {tree : FileTree} {paths otherPaths : List Path}

/-- Documents in another order are loaded to the same protocols in another order. -/
theorem exists_mapM_load_of_perm {protocols : List Protocol} (same : otherPaths.Perm paths)
    (loaded : paths.mapM (load tree) = .ok protocols) :
    ∃ others, otherPaths.mapM (load tree) = .ok others ∧ others.Perm protocols := by
  obtain ⟨others, each, perm⟩ := List.perm_comp_forall₂ same (mapM_eq_ok_iff.mp loaded)
  exact ⟨others, mapM_eq_ok_iff.mpr each, perm⟩

theorem loadDomains_of_mapM {protocols : List Protocol}
    (loaded : paths.mapM (load tree) = .ok protocols) :
    loadDomains tree paths = (merge protocols).mapError .document := by
  rw [loadDomains, loaded]
  rfl

theorem loadDomains_of_perm (same : otherPaths.Perm paths)
    (loads : ∀ path ∈ paths, ∃ protocol, load tree path = .ok protocol) :
    loadDomains tree otherPaths = loadDomains tree paths := by
  obtain ⟨protocols, loaded⟩ := exists_mapM_eq_ok_iff.mpr loads
  obtain ⟨others, otherLoaded, perm⟩ := exists_mapM_load_of_perm same loaded
  rw [loadDomains_of_mapM loaded, loadDomains_of_mapM otherLoaded,
    (merges_merge protocols).unique (merges_merge others) (perm.flatMap_right Protocol.domains)]

end Runs

/-- The domains of documents are put together to all of them in the order of their names, when these
differ, and are otherwise refused with each repeated name once. The outcome is that of any documents
with the same domains; and documents that can all be loaded give the same run in any order. -/
theorem merge_depends_only_on_domains (protocols : List Protocol) :
    ((namesOf (protocols.flatMap Protocol.domains)).Nodup →
      ∃ merged, merge protocols = .ok merged ∧ Sorted merged ∧
        merged.Perm (protocols.flatMap Protocol.domains)) ∧
    (¬ (namesOf (protocols.flatMap Protocol.domains)).Nodup →
      ∃ repeated, merge protocols = .error ⟨mergedSource, .duplicateDomains repeated⟩ ∧
        repeated.Pairwise (· < ·) ∧
        ∀ name, name ∈ repeated ↔
          2 ≤ (namesOf (protocols.flatMap Protocol.domains)).count name) ∧
    (∀ others : List Protocol,
      (others.flatMap Protocol.domains).Perm (protocols.flatMap Protocol.domains) →
      merge others = merge protocols) ∧
    ∀ (State : Type) (formatter : Source.Formatter) (persister : Package.Persister State)
      (settings : Settings) (tree : FileTree) (state : State) (paths otherPaths : List Path),
      otherPaths.Perm paths → (∀ path ∈ paths, ∃ protocol, load tree path = .ok protocol) →
      Package.generateFrom formatter persister settings tree otherPaths state =
        Package.generateFrom formatter persister settings tree paths state := by
  have merges := merges_merge protocols
  refine ⟨fun distinct => ?_, fun repeats => ?_, fun others same => ?_, ?_⟩
  · have ends := merges.isOk_iff.mpr distinct
    cases outcome : merge protocols with
    | ok merged =>
      cases outcome ▸ merges with
      | sorted increasing same => exact ⟨merged, rfl, increasing, same⟩
    | error refusal => rw [outcome] at ends; cases ends
  · have stops := mt merges.isOk_iff.mp repeats
    cases outcome : merge protocols with
    | ok merged => exact absurd (outcome ▸ rfl) stops
    | error refusal =>
      cases outcome ▸ merges with
      | refused _ increasing same => exact ⟨_, rfl, increasing, same⟩
  · exact merges.unique (merges_merge others) same
  · intro State formatter persister settings tree state paths otherPaths same loads
    rw [Package.generateFrom, Package.generateFrom, loadDomains_of_perm same loads]

def wind (name : String) : Domain := ⟨name, none, false, false, [], [], []⟩

def windDocument (name : String) : String :=
  "\x7b\"domains\": [\x7b\"domain\": \"" ++ name ++ "\"\x7d]\x7d"

def windTree : FileTree :=
  ⟨[], [(["east.json"], .file (windDocument "East").toUTF8),
    (["west.json"], .file (windDocument "West").toUTF8)]⟩

def windData (name : String) : Data :=
  .table [entry "domains" (.list [.table [textEntry "domain" name]])]

theorem readsJson_east : ReadsJson windTree ⟨"", ["east.json"]⟩ (.ok (windData "East")) := by
  have text : windDocument "East" = "\x7b\"domains\": [\x7b\"domain\": \"East\"\x7d]\x7d" := rfl
  have data : Json.read (Text.ofChars (Text.unifyLineEnds (windDocument "East").toList)) =
      .ok (windData "East") := by
    rw [text, Text.toList_literal]
    rfl
  exact data ▸ .of_text rfl rfl

theorem readsJson_west : ReadsJson windTree ⟨"", ["west.json"]⟩ (.ok (windData "West")) := by
  have text : windDocument "West" = "\x7b\"domains\": [\x7b\"domain\": \"West\"\x7d]\x7d" := rfl
  have data : Json.read (Text.ofChars (Text.unifyLineEnds (windDocument "West").toList)) =
      .ok (windData "West") := by
    rw [text, Text.toList_literal]
    rfl
  exact data ▸ .of_text rfl rfl

/-- Two documents in either order, and two that have a domain in common. -/
theorem winds_merge :
    (∃ merged, merge [⟨none, [wind "West"]⟩, ⟨none, [wind "East"]⟩] = .ok merged ∧ Sorted merged ∧
      merged.Perm [wind "West", wind "East"]) ∧
    merge [⟨none, [wind "East", wind "West"]⟩] =
      merge [⟨none, [wind "West"]⟩, ⟨none, [wind "East"]⟩] ∧
    (∃ repeated, merge [⟨none, [wind "West"]⟩, ⟨none, [wind "East", wind "West"]⟩] =
      .error ⟨mergedSource, .duplicateDomains repeated⟩ ∧ "West" ∈ repeated ∧ "East" ∉ repeated) ∧
    Package.generateFrom Source.format .memory Settings.default windTree
        [⟨"", ["west.json"]⟩, ⟨"", ["east.json"]⟩] [] =
      Package.generateFrom Source.format .memory Settings.default windTree
        [⟨"", ["east.json"]⟩, ⟨"", ["west.json"]⟩] [] := by
  obtain ⟨sorted, -, shared, run⟩ :=
    merge_depends_only_on_domains [⟨none, [wind "West"]⟩, ⟨none, [wind "East"]⟩]
  obtain ⟨-, refused, -⟩ :=
    merge_depends_only_on_domains [⟨none, [wind "West"]⟩, ⟨none, [wind "East", wind "West"]⟩]
  obtain ⟨repeated, stopped, -, counted⟩ := refused (by decide)
  have loads : ∀ path ∈ [(⟨"", ["east.json"]⟩ : Path), ⟨"", ["west.json"]⟩],
      (load windTree path).isOk := by
    rw [List.forall_mem_cons, List.forall_mem_singleton, ReadsJson.load_eq readsJson_east,
      ReadsJson.load_eq readsJson_west]
    decide +kernel
  refine ⟨sorted (by decide), shared [⟨none, [wind "East", wind "West"]⟩] (.swap _ _ _),
    ⟨repeated, stopped, ?_, ?_⟩, ?_⟩
  · exact (counted "West").mpr (by decide)
  · exact mt (counted "East").mp (by decide)
  · exact run _ _ _ _ _ _ _ _ (.swap _ _ _) fun path member =>
      exists_eq_ok_of_isOk (loads path member)

end ProtocolGen.Document
