import ProtocolGen.Proofs.FileTree.Entries

/-!
# Making directories and writing files

Making directories adds directories where nothing was, whether it ends well or not. A file that is
persisted is there afterwards, and persisting what a file holds already changes nothing. A file that
cannot be persisted changes a tree just where a directory for it is missing.
-/

set_option autoImplicit false

namespace ProtocolGen.FileTree

variable {tree later : FileTree} {path : Path} {bytes : ByteArray}

/-! ## Directories -/

theorem not_isPrefixOf_of_at? {location : List String}
    (other : tree.at? location ≠ some .directory) : ¬ location.isPrefixOf tree.working :=
  fun above => other (at?_of_isPrefixOf above)

theorem working_put (location : List String) (entry : FileEntry) :
    (tree.put location entry).working = tree.working := by
  unfold put
  split <;> rfl

theorem written_put_directory {location : List String} (free : tree.at? location = none) :
    Written tree [] (tree.put location .directory) := by
  have notAbove : ¬ location.isPrefixOf tree.working := not_isPrefixOf_of_at? (by simp [free])
  refine ⟨working_put _ _, fun other _ => ?_, by simp⟩
  rw [at?_put _ notAbove]
  by_cases same : other = location
  · subst same
    exact .inr ⟨free, if_pos rfl⟩
  · exact .inl (if_neg same)

theorem written_makeDirectory (made : tree.makeDirectory path = .ok later) :
    Written tree [] later := by
  unfold makeDirectory at made
  split at made
  · cases made
  · next location _ =>
    split at made
    · cases made
    · next free =>
      cases made
      exact written_put_directory (by simpa using free)

/-- Whatever becomes of making directories, nothing but directories is new. -/
theorem written_makeDirectoriesReversed (tree : FileTree) (root : String) (names : List String) :
    Written tree [] (tree.makeDirectoriesReversed root names).1 := by
  have unchanged (tree : FileTree) : Written tree [] tree := (Same.refl tree).written
  induction names generalizing tree with
  | nil => exact unchanged tree
  | cons name above ih =>
    unfold makeDirectoriesReversed
    dsimp only
    split
    · next later made => exact written_makeDirectory made
    · have before := ih tree
      split
      · next mid made =>
        rw [made] at before
        refine before.trans ?_
        split
        · next later again => exact written_makeDirectory again
        · exact unchanged mid
      · exact before
    · split
      · next later made => exact written_makeDirectory made
      · exact unchanged tree

theorem makeDirectories_of_isDirectory (stands : tree.isDirectory path) :
    tree.makeDirectories path = (tree, none) := by
  have refused : tree.makeDirectory path = .error ⟨.exists, path⟩ := by
    obtain ⟨location, leads, found⟩ := isDirectory_iff.mp stands
    rw [makeDirectory, leads]
    dsimp only
    rw [found]
    rfl
  rw [makeDirectories]
  cases reversed : path.parts.reverse with
  | nil => rfl
  | cons name above =>
    have same : (⟨path.root, (name :: above).reverse⟩ : Path) = path := by
      rw [← reversed, List.reverse_reverse]
    rw [makeDirectoriesReversed]
    dsimp only
    rw [same, refused]
    dsimp only
    rw [stands]
    rfl

/-! ## Files -/

theorem writeFile_ok (wrote : tree.writeFile path bytes = .ok later) :
    ∃ location, tree.resolve path = .ok location ∧ Written tree [location] later ∧
      later.at? location = some (.file bytes) := by
  unfold writeFile at wrote
  split at wrote
  · cases wrote
  · next location leads =>
    split at wrote
    · cases wrote
    · next free =>
      cases wrote
      have put (other : List String) : (tree.put location (.file bytes)).at? other =
          if other = location then some (.file bytes) else tree.at? other :=
        at?_put _ (not_isPrefixOf_of_at? free) other
      have held : (tree.put location (.file bytes)).at? location = some (.file bytes) := by
        rw [put, if_pos rfl]
      refine ⟨location, leads, ⟨working_put _ _, fun other elsewhere => ?_, fun other here => ?_⟩, held⟩
      · rw [List.mem_singleton] at elsewhere
        exact .inl (by rw [put, if_neg elsewhere])
      · rw [List.mem_singleton.mp here]
        exact ⟨free, bytes, held⟩

/-- A file that is persisted is at the location that its path leads to afterwards. -/
theorem persist_ok (persisted : tree.persist path bytes = (later, none)) :
    ∃ location, later.resolve path = .ok location ∧ Written tree [location] later ∧
      later.at? location = some (.file bytes) := by
  have directories := written_makeDirectoriesReversed tree path.parent.root path.parent.parts.reverse
  unfold persist makeDirectories at persisted
  split at persisted
  · next mid made =>
    rw [made] at directories
    split at persisted
    · next after wrote =>
      cases persisted
      obtain ⟨location, leads, written, held⟩ := writeFile_ok wrote
      exact ⟨location, written.resolve_ok leads, directories.trans written, held⟩
    · cases persisted
  · next stopped =>
    cases stopped _ persisted

/-! ## Files that are there -/

theorem utf8ByteSize_intercalate_le (separator last : String) (front : List String) :
    (separator.intercalate front).utf8ByteSize ≤
      (separator.intercalate (front ++ [last])).utf8ByteSize := by
  induction front with
  | nil => simp
  | cons first rest ih =>
    cases rest with
    | nil => simp [String.intercalate_cons_cons, String.utf8ByteSize_append]; omega
    | cons second rest =>
      simp only [List.cons_append, String.intercalate_cons_cons, String.utf8ByteSize_append] at ih ⊢
      omega

/-- A path is short when one that continues it is. -/
theorem not_tooLong_parent (short : ¬ longestPath < path.toString.utf8ByteSize) :
    ¬ longestPath < path.parent.toString.utf8ByteSize := by
  by_cases alone : path.root.isEmpty && path.parent.parts.isEmpty
  · have here : path.parent.toString = "." := by rw [Path.toString, if_pos (by exact alone)]
    rw [here]
    decide
  · have parent : path.parent.toString = path.root ++ "/".intercalate path.parts.dropLast := by
      rw [Path.toString, if_neg (by exact alone)]
      rfl
    cases empty : path.parts.isEmpty with
    | true =>
      have same : path.parent = path := by
        rw [Path.parent, List.isEmpty_iff.mp empty]
        cases path
        simp_all
      rwa [same]
    | false =>
      have notEmpty : path.parts ≠ [] := by simpa using empty
      have whole : path.toString = path.root ++ "/".intercalate path.parts := by
        rw [Path.toString, if_neg (by simp [empty])]
      have shorter := utf8ByteSize_intercalate_le "/" (path.parts.getLast notEmpty) path.parts.dropLast
      rw [List.dropLast_append_getLast] at shorter
      rw [whole, String.utf8ByteSize_append] at short
      rw [parent, String.utf8ByteSize_append]
      omega

theorem isDirectory_parent {location : List String} (leads : tree.resolve path = .ok location)
    (other : tree.at? location ≠ some .directory) : tree.isDirectory path.parent := by
  obtain ⟨plain, short, steps⟩ := resolve_eq_ok_iff.mp leads
  have notEmpty : path.parts ≠ [] := by
    intro empty
    have above : location.isPrefixOf tree.working := by
      rw [empty] at steps
      rw [← Except.ok.inj steps]
      split <;> simp
    exact other (at?_of_isPrefixOf above)
  obtain ⟨front, last, parts⟩ : ∃ front last, path.parts = front ++ [last] :=
    ⟨_, _, (List.dropLast_append_getLast notEmpty).symm⟩
  have above : path.parent = ⟨path.root, front⟩ := by rw [Path.parent, parts, List.dropLast_concat]
  rw [parts, List.foldlM_append] at steps
  obtain ⟨base, found, lastStep⟩ := bind_eq_ok_iff.mp steps
  refine isDirectory_iff.mpr ⟨base, resolve_eq_ok_iff.mpr ⟨fun null => plain ?_, ?_, ?_⟩, ?_⟩
  · rw [above] at null
    rw [parts, List.any_append, null]
    rfl
  · exact not_tooLong_parent short
  · rw [above]
    exact found
  · obtain ⟨next, stepped, -⟩ := bind_eq_ok_iff.mp lastStep
    unfold step at stepped
    split at stepped
    · cases stepped
    · cases stepped
    · assumption

/-- Where a path leads to no directory, a file can be persisted, and nothing else changes. -/
theorem persist_of_resolve {location : List String} (leads : tree.resolve path = .ok location)
    (other : tree.at? location ≠ some .directory) (bytes : ByteArray) :
    tree.persist path bytes = (tree.put location (.file bytes), none) := by
  have wrote : tree.writeFile path bytes = .ok (tree.put location (.file bytes)) := by
    rw [writeFile, leads]
    dsimp only
    split
    · next directory => exact absurd directory other
    · rfl
  rw [persist, makeDirectories_of_isDirectory (isDirectory_parent leads other)]
  dsimp only
  rw [wrote]

/-- Where a directory stands no file can be persisted. -/
theorem persist_of_isDirectory (above : tree.isDirectory path.parent)
    (stands : tree.isDirectory path) (bytes : ByteArray) :
    tree.persist path bytes = (tree, some ⟨.isADirectory, path⟩) := by
  obtain ⟨location, leads, directory⟩ := isDirectory_iff.mp stands
  have refused : tree.writeFile path bytes = .error ⟨.isADirectory, path⟩ := by
    rw [writeFile, leads]
    dsimp only
    rw [directory]
  rw [persist, makeDirectories_of_isDirectory above]
  dsimp only
  rw [refused]

theorem Written.isDirectory {locations : List (List String)} (written : Written tree locations later)
    (stands : tree.isDirectory path) : later.isDirectory path := by
  obtain ⟨location, leads, directory⟩ := isDirectory_iff.mp stands
  exact isDirectory_iff.mpr ⟨location, written.resolve_ok leads, written.directory directory⟩

theorem persist_of_read (held : tree.read path = .ok bytes) :
    ∃ later, tree.persist path bytes = (later, none) ∧ Same tree later := by
  obtain ⟨location, leads, stands⟩ := read_eq_ok_iff.mp held
  have other : tree.at? location ≠ some .directory := by simp [stands]
  refine ⟨tree.put location (.file bytes), persist_of_resolve leads other bytes, working_put _ _,
    fun place => ?_⟩
  rw [at?_put _ (not_isPrefixOf_of_at? other)]
  split
  · next same => rw [same, stands]
  · rfl

/-! ## Directories that are missing -/

/-- Nothing stands where a path leads, or the path leads through a place where nothing stands. -/
def Missing (tree : FileTree) (path : Path) : Prop := tree.read path = .error ⟨.notFound, path⟩

instance (tree : FileTree) (path : Path) : Decidable (tree.Missing path) :=
  inferInstanceAs (Decidable (tree.read path = .error ⟨.notFound, path⟩))

theorem missing_iff : tree.Missing path ↔ tree.resolve path = .error .notFound ∨
    ∃ location, tree.resolve path = .ok location ∧ tree.at? location = none := by
  unfold Missing read find?
  cases tree.resolve path with
  | error kind => simp [Except.map]
  | ok location =>
    cases stands : tree.at? location with
    | none => simp [Except.map, stands]
    | some entry => cases entry <;> simp [Except.map, stands]

theorem Same.missing_iff {other : FileTree} (same : Same tree other) :
    other.Missing path ↔ tree.Missing path := by
  rw [Missing, Missing, same.read_eq]

theorem resolve_eq_notFound_iff : tree.resolve path = .error .notFound ↔
    ¬ (path.parts.any fun name => name.toList.contains '\x00') ∧
    ¬ longestPath < path.toString.utf8ByteSize ∧
    path.parts.foldlM tree.step (if path.root.isEmpty then tree.working else []) =
      .error .notFound := by
  unfold resolve
  split
  · next null => exact ⟨fun nowhere => (nomatch nowhere), fun ⟨plain, _⟩ => absurd null plain⟩
  · next plain =>
    split
    · next long => exact ⟨fun nowhere => (nomatch nowhere), fun ⟨_, short, _⟩ => absurd long short⟩
    · next short => exact ⟨fun nowhere => ⟨plain, short, nowhere⟩, fun ⟨_, _, nowhere⟩ => nowhere⟩

theorem not_missing_root (root : String) : ¬ tree.Missing ⟨root, []⟩ := by
  intro missing
  rw [missing_iff] at missing
  rcases missing with nowhere | ⟨location, leads, nothing⟩
  · rw [resolve_eq_notFound_iff] at nowhere
    cases nowhere.2.2
  · obtain ⟨-, -, steps⟩ := resolve_eq_ok_iff.mp leads
    have above : location.isPrefixOf tree.working := by
      rw [← Except.ok.inj steps]
      split <;> simp
    rw [at?_of_isPrefixOf above] at nothing
    cases nothing

theorem step_eq_notFound_iff {location : List String} {name : String} :
    tree.step location name = .error .notFound ↔ tree.at? location = none := by
  unfold step
  split
  · next nothing => exact iff_of_true rfl nothing
  · next stands => simp [stands]
  · next stands =>
    rw [stands]
    split
    · simp
    · split <;> simp

/-- A path leads nowhere only where the path above it leads nowhere or to nothing. -/
theorem missing_parent (nowhere : tree.resolve path = .error .notFound) :
    tree.Missing path.parent := by
  rw [resolve_eq_notFound_iff] at nowhere
  obtain ⟨plain, short, steps⟩ := nowhere
  have notEmpty : path.parts ≠ [] := by
    intro empty
    rw [empty] at steps
    cases steps
  obtain ⟨front, last, parts⟩ : ∃ front last, path.parts = front ++ [last] :=
    ⟨_, _, (List.dropLast_append_getLast notEmpty).symm⟩
  have above : path.parent = ⟨path.root, front⟩ := by rw [Path.parent, parts, List.dropLast_concat]
  have resolved : tree.resolve path.parent =
      front.foldlM tree.step (if path.root.isEmpty then tree.working else []) := by
    rw [resolve, if_neg, if_neg (not_tooLong_parent short), above]
    intro null
    rw [above] at null
    exact plain (by rw [parts, List.any_append, null]; rfl)
  rw [parts, List.foldlM_append] at steps
  rw [missing_iff, resolved]
  cases reached : front.foldlM tree.step (if path.root.isEmpty then tree.working else []) with
  | error kind =>
    rw [reached] at steps
    cases steps
    exact .inl rfl
  | ok base =>
    have lastStep : (tree.step base last >>= pure) = .error .notFound := by
      rw [reached] at steps
      exact steps
    rw [bind_pure] at lastStep
    exact .inr ⟨base, rfl, step_eq_notFound_iff.mp lastStep⟩

theorem makeDirectory_of_not_missing (there : ¬ tree.Missing path) :
    ∃ kind, tree.makeDirectory path = .error ⟨kind, path⟩ ∧ kind ≠ .notFound := by
  rw [missing_iff, not_or] at there
  unfold makeDirectory
  cases leads : tree.resolve path with
  | error kind => exact ⟨kind, rfl, fun same => there.1 (same ▸ leads)⟩
  | ok location =>
    have stands : (tree.at? location).isSome := by
      rw [Option.isSome_iff_ne_none]
      exact fun nothing => there.2 ⟨location, leads, nothing⟩
    exact ⟨.exists, by dsimp only; rw [if_pos stands], by decide⟩

theorem makeDirectoriesReversed_of_not_missing {root : String} {names : List String}
    (there : ¬ tree.Missing ⟨root, names.reverse⟩) :
    (tree.makeDirectoriesReversed root names).1 = tree := by
  cases names with
  | nil => rfl
  | cons name above =>
    obtain ⟨kind, refused, other⟩ := makeDirectory_of_not_missing there
    rw [makeDirectoriesReversed]
    dsimp only
    rw [refused]
    cases kind with
    | notFound => exact absurd rfl other
    | _ => rfl

/-- Where something is missing, a directory is made, whether the others can be made or not. -/
theorem exists_made_of_missing {root : String} {names : List String}
    (missing : tree.Missing ⟨root, names.reverse⟩) :
    ∃ location, tree.at? location = none ∧
      (tree.makeDirectoriesReversed root names).1.at? location = some .directory := by
  induction names with
  | nil => exact absurd missing (not_missing_root root)
  | cons name above ih =>
    rw [makeDirectoriesReversed]
    dsimp only
    rcases missing_iff.mp missing with nowhere | ⟨location, leads, nothing⟩
    · have parent : (⟨root, (name :: above).reverse⟩ : Path).parent = ⟨root, above.reverse⟩ := by
        rw [Path.parent, List.reverse_cons, List.dropLast_concat]
      obtain ⟨location, nothing, made⟩ := ih (parent ▸ missing_parent nowhere)
      refine ⟨location, nothing, ?_⟩
      rw [makeDirectory, nowhere]
      dsimp only
      split
      · next mid before =>
        rw [before] at made
        split
        · next again => exact (written_makeDirectory again).directory made
        · exact made
      · exact made
    · refine ⟨location, nothing, ?_⟩
      rw [makeDirectory, leads]
      dsimp only
      rw [nothing]
      exact (at?_put _ (not_isPrefixOf_of_at? (by simp [nothing])) location).trans (if_pos rfl)

/-- Making directories leaves a tree as it is just where nothing is missing. -/
theorem same_makeDirectories_iff : tree.Same (tree.makeDirectories path).1 ↔ ¬ tree.Missing path := by
  have whole : (⟨path.root, path.parts.reverse.reverse⟩ : Path) = path := by
    rw [List.reverse_reverse]
  constructor
  · intro same missing
    obtain ⟨location, nothing, made⟩ := exists_made_of_missing (whole.symm ▸ missing)
    have still := same.entries location
    rw [makeDirectories, made, nothing] at still
    cases still
  · intro there
    rw [makeDirectories, makeDirectoriesReversed_of_not_missing (whole.symm ▸ there)]
    exact .refl tree

/-- A file that cannot be written leaves behind the directories that were made for it. -/
theorem persist_error {fault : FileFault} (failed : tree.persist path bytes = (later, some fault)) :
    later = (tree.makeDirectories path.parent).1 := by
  unfold persist at failed
  split at failed
  · next made =>
    split at failed
    · cases failed
    · cases failed
      rw [made]
  · exact (congrArg Prod.fst failed).symm

end ProtocolGen.FileTree
