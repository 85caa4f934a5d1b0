import ProtocolGen.FileTree
import ProtocolGen.Proofs.Sequencing

/-!
# Trees before and after writes

Trees with the same entry at each location cannot be told apart by a path. A tree to which files are
written keeps its directories and its files, up to what the files hold, so a path that leads somewhere
leads to the same location afterwards.
-/

set_option autoImplicit false

namespace ProtocolGen.FileTree

/-! ## Putting an entry -/

theorem at?_of_isPrefixOf {tree : FileTree} {location : List String}
    (above : location.isPrefixOf tree.working) : tree.at? location = some .directory := by
  rw [at?, if_pos above]

theorem find?_exchange (entries : List (List String × FileEntry)) (location other : List String)
    (entry : FileEntry) :
    (entries.map fun known => if known.1 == location then (location, entry) else known).find?
        (fun known => known.1 == other) =
      (entries.find? fun known => known.1 == other).map fun known =>
        if known.1 == location then (location, entry) else known := by
  rw [List.find?_map]
  congr 2
  funext known
  by_cases here : known.1 = location <;> simp [here]

/-- An entry that is put is found, unless its location is the working directory or above it. -/
theorem at?_put {tree : FileTree} {location : List String} (entry : FileEntry)
    (notAbove : ¬ location.isPrefixOf tree.working) (other : List String) :
    (tree.put location entry).at? other = if other = location then some entry else tree.at? other := by
  have working : (tree.put location entry).working = tree.working := by
    unfold put
    split <;> rfl
  unfold at?
  rw [working]
  by_cases above : other.isPrefixOf tree.working
  · have elsewhere : other ≠ location := fun same => notAbove (same ▸ above)
    rw [if_pos above, if_neg elsewhere, if_pos above]
  rw [if_neg above, if_neg above]
  unfold put
  split
  · next known =>
    rw [find?_exchange]
    cases found : tree.entries.find? fun known => known.1 == other with
    | none =>
      have elsewhere : other ≠ location := by
        rintro rfl
        obtain ⟨old, member, here⟩ := List.any_eq_true.mp known
        exact absurd here (List.find?_eq_none.mp found old member)
      rw [if_neg elsewhere]
      rfl
    | some old =>
      have place : old.1 = other := by simpa using List.find?_some found
      by_cases same : other = location <;> simp [place, same]
  · next unknown =>
    rw [List.find?_append]
    by_cases same : other = location
    · have absent : tree.entries.find? (fun known => known.1 == other) = none := by
        rw [List.find?_eq_none]
        intro known member
        simp only [Bool.not_eq_true, List.any_eq_false] at unknown
        simpa [same] using unknown known member
      rw [absent, if_pos same]
      simp [same]
    · rw [if_neg same]
      simp [Ne.symm same]

/-! ## Trees that are the same -/

/-- Trees that cannot be told apart: the same entry stands at each location. -/
structure Same (tree other : FileTree) : Prop where
  working : other.working = tree.working
  entries : ∀ location, other.at? location = tree.at? location

theorem Same.refl (tree : FileTree) : Same tree tree := ⟨rfl, fun _ => rfl⟩

theorem Same.symm {tree other : FileTree} (same : Same tree other) : Same other tree :=
  ⟨same.working.symm, fun location => (same.entries location).symm⟩

theorem Same.trans {tree other third : FileTree} (first : Same tree other)
    (second : Same other third) : Same tree third :=
  ⟨second.working.trans first.working,
    fun location => (second.entries location).trans (first.entries location)⟩

/-! ## Trees that files are written to -/

/-- A tree after files were written at some locations, where files were before or nothing. Anywhere
else there may be directories where nothing was. -/
structure Written (tree : FileTree) (locations : List (List String)) (later : FileTree) : Prop where
  working : later.working = tree.working
  kept : ∀ location ∉ locations, later.at? location = tree.at? location ∨
    (tree.at? location = none ∧ later.at? location = some .directory)
  files : ∀ location ∈ locations, tree.at? location ≠ some .directory ∧
    ∃ bytes, later.at? location = some (.file bytes)

theorem Same.written {tree other : FileTree} (same : Same tree other) : Written tree [] other :=
  ⟨same.working, fun location _ => .inl (same.entries location), by simp⟩

namespace Written

variable {tree later last : FileTree} {locations more : List (List String)}
  (written : Written tree locations later)

include written

theorem directory {location : List String} (stands : tree.at? location = some .directory) :
    later.at? location = some .directory := by
  by_cases member : location ∈ locations
  · exact absurd stands (written.files location member).1
  · rcases written.kept location member with same | ⟨nothing, -⟩
    · rw [same, stands]
    · rw [nothing] at stands
      cases stands

theorem file {location : List String} {bytes : ByteArray}
    (stands : tree.at? location = some (.file bytes)) :
    ∃ others, later.at? location = some (.file others) := by
  by_cases member : location ∈ locations
  · exact (written.files location member).2
  · rcases written.kept location member with same | ⟨nothing, -⟩
    · exact ⟨bytes, same.trans stands⟩
    · rw [nothing] at stands
      cases stands

theorem file_of_not_mem {location : List String} {bytes : ByteArray} (other : location ∉ locations)
    (stands : tree.at? location = some (.file bytes)) : later.at? location = some (.file bytes) := by
  rcases written.kept location other with same | ⟨nothing, -⟩
  · rw [same, stands]
  · rw [nothing] at stands
    cases stands

theorem trans (next : Written later more last) : Written tree (locations ++ more) last := by
  refine ⟨next.working.trans written.working, fun location other => ?_, fun location member => ?_⟩
  · rw [List.mem_append, not_or] at other
    rcases written.kept location other.1 with same | ⟨nothing, stands⟩
    · rcases next.kept location other.2 with kept | ⟨nothing, stands⟩
      · exact .inl (kept.trans same)
      · exact .inr ⟨same ▸ nothing, stands⟩
    · exact .inr ⟨nothing, next.directory stands⟩
  · rcases List.mem_append.mp member with before | after
    · obtain ⟨free, bytes, stands⟩ := written.files location before
      exact ⟨free, next.file stands⟩
    · obtain ⟨free, held⟩ := next.files location after
      exact ⟨fun stands => free (written.directory stands), held⟩

/-! ## Paths -/

theorem step_eq (location : List String) (name : String) :
    tree.step location name = .error .notFound ∨
      later.step location name = tree.step location name := by
  cases stands : tree.at? location with
  | none => exact .inl (by rw [step, stands])
  | some entry =>
    cases entry with
    | file bytes =>
      obtain ⟨others, still⟩ := written.file stands
      exact .inr (by rw [step, step, stands, still])
    | directory =>
      have still := written.directory stands
      exact .inr (by rw [step, step, stands, still])

theorem steps_eq (names : List String) (location : List String) :
    names.foldlM tree.step location = .error .notFound ∨
      names.foldlM later.step location = names.foldlM tree.step location := by
  induction names generalizing location with
  | nil => exact .inr rfl
  | cons name names ih =>
    rw [List.foldlM_cons, List.foldlM_cons]
    rcases written.step_eq location name with missing | same
    · exact .inl (by rw [missing]; rfl)
    · rw [same]
      cases tree.step location name with
      | error kind => exact .inr rfl
      | ok next => exact ih next

/-- Only a path that leads nowhere can lead elsewhere later. -/
theorem resolve_eq (path : Path) :
    tree.resolve path = .error .notFound ∨ later.resolve path = tree.resolve path := by
  rw [resolve, resolve, written.working]
  split
  · exact .inr rfl
  · split
    · exact .inr rfl
    · exact written.steps_eq path.parts _

theorem resolve_ok {path : Path} {location : List String}
    (leads : tree.resolve path = .ok location) : later.resolve path = .ok location := by
  rcases written.resolve_eq path with missing | same
  · rw [missing] at leads
    cases leads
  · rw [same, leads]

end Written

theorem Same.resolve_eq {tree other : FileTree} (same : Same tree other) (path : Path) :
    other.resolve path = tree.resolve path := by
  rcases same.written.resolve_eq path with missing | equal
  · rcases same.symm.written.resolve_eq path with alsoMissing | equal
    · rw [missing, alsoMissing]
    · exact equal.symm
  · exact equal

theorem Same.read_eq {tree other : FileTree} (same : Same tree other) (path : Path) :
    other.read path = tree.read path := by
  have entries : other.at? = tree.at? := funext same.entries
  rw [read, read, find?, find?, same.resolve_eq, entries]

/-! ## Where paths lead -/

theorem resolve_eq_ok_iff {tree : FileTree} {path : Path} {location : List String} :
    tree.resolve path = .ok location ↔
      ¬ (path.parts.any fun name => name.toList.contains '\x00') ∧
      ¬ longestPath < path.toString.utf8ByteSize ∧
      path.parts.foldlM tree.step (if path.root.isEmpty then tree.working else []) = .ok location := by
  unfold resolve
  split
  · next null => exact ⟨fun leads => (nomatch leads), fun ⟨plain, _⟩ => absurd null plain⟩
  · next plain =>
    split
    · next long => exact ⟨fun leads => (nomatch leads), fun ⟨_, short, _⟩ => absurd long short⟩
    · next short => exact ⟨fun leads => ⟨plain, short, leads⟩, fun ⟨_, _, leads⟩ => leads⟩

theorem read_eq_ok_iff {tree : FileTree} {path : Path} {bytes : ByteArray} :
    tree.read path = .ok bytes ↔
      ∃ location, tree.resolve path = .ok location ∧ tree.at? location = some (.file bytes) := by
  unfold read find?
  cases tree.resolve path with
  | error kind => simp [Except.map]
  | ok location =>
    cases stands : tree.at? location with
    | none => simp [Except.map, stands]
    | some entry => cases entry <;> simp [Except.map, stands]

theorem isDirectory_iff {tree : FileTree} {path : Path} :
    tree.isDirectory path ↔
      ∃ location, tree.resolve path = .ok location ∧ tree.at? location = some .directory := by
  unfold isDirectory find?
  cases tree.resolve path with
  | error kind => simp [Except.map]
  | ok location =>
    cases stands : tree.at? location with
    | none => simp [Except.map, stands]
    | some entry => cases entry <;> simp [Except.map, stands]

theorem path_of_read_error {tree : FileTree} {path : Path} {fault : FileFault}
    (failed : tree.read path = .error fault) : fault.path = path := by
  unfold read at failed
  split at failed <;> cases failed <;> rfl

/-- What is wrong where a path leads is that nothing stands there, or a directory. All else is wrong
with the path. -/
theorem resolve_of_read_error {tree : FileTree} {path : Path} {fault : FileFault}
    (failed : tree.read path = .error fault) (standing : fault.kind ≠ .notFound)
    (file : fault.kind ≠ .isADirectory) : tree.resolve path = .error fault.kind := by
  unfold read find? at failed
  cases resolved : tree.resolve path with
  | error kind =>
    rw [resolved] at failed
    cases failed
    rfl
  | ok location =>
    rw [resolved, Except.map] at failed
    cases stands : tree.at? location with
    | none =>
      rw [stands] at failed
      cases failed
      exact absurd rfl standing
    | some entry =>
      rw [stands] at failed
      cases entry with
      | file bytes => cases failed
      | directory =>
        cases failed
        exact absurd rfl file

/-- Only a path can be too long, not what stands where it leads. -/
theorem resolve_of_tooLong {tree : FileTree} {path : Path} {fault : FileFault}
    (failed : tree.read path = .error fault) (kind : fault.kind = .nameTooLong) :
    tree.resolve path = .error .nameTooLong := by
  rw [← kind]
  exact resolve_of_read_error failed (by simp [kind]) (by simp [kind])

/-! ## Paths that cannot be asked for -/

/-- Whether a null character stands in a path. -/
def HasNull (path : Path) : Prop := ∃ name ∈ path.parts, '\x00' ∈ name.toList

theorem hasNull_iff {path : Path} :
    HasNull path ↔ path.parts.any fun name => name.toList.contains '\x00' := by
  simp [HasNull]

instance (path : Path) : Decidable (HasNull path) := decidable_of_iff _ hasNull_iff.symm

theorem step_ne_nullInPath (tree : FileTree) (location : List String) (name : String) :
    tree.step location name ≠ .error .nullInPath := by
  unfold step
  split
  · simp
  · simp
  · split
    · simp
    · split <;> simp

theorem resolve_eq_nullInPath_iff {tree : FileTree} {path : Path} :
    tree.resolve path = .error .nullInPath ↔ HasNull path := by
  have walk (names : List String) (location : List String) :
      names.foldlM tree.step location ≠ .error .nullInPath := by
    induction names generalizing location with
    | nil => exact fun wrong => nomatch wrong
    | cons name names ih =>
      rw [List.foldlM_cons]
      cases stepped : tree.step location name with
      | error kind => exact fun wrong => step_ne_nullInPath tree location name (stepped.trans wrong)
      | ok next => exact ih next
  rw [resolve, hasNull_iff]
  split
  · next null => exact iff_of_true rfl null
  · next plain =>
    split
    · exact iff_of_false (by simp) plain
    · exact iff_of_false (walk _ _) plain

/-- The system is not asked for a file just when the path has a null character. -/
theorem read_eq_nullInPath_iff {tree : FileTree} {path : Path} :
    tree.read path = .error ⟨.nullInPath, path⟩ ↔ HasNull path := by
  constructor
  · intro failed
    have refused := resolve_of_read_error failed (by simp) (by simp)
    rwa [resolve_eq_nullInPath_iff] at refused
  · intro null
    have refused : tree.resolve path = .error .nullInPath := by rwa [resolve_eq_nullInPath_iff]
    rw [read, find?, refused]
    rfl

theorem hasNull_of_read_error {tree : FileTree} {path : Path} {fault : FileFault}
    (failed : tree.read path = .error fault) (notAsked : ¬ fault.kind.isSystems) :
    fault = ⟨.nullInPath, path⟩ ∧ HasNull path := by
  have kind : fault.kind = .nullInPath := by simpa [FileFaultKind.isSystems] using notAsked
  have same : fault = ⟨.nullInPath, path⟩ := by rw [← kind, ← path_of_read_error failed]
  rw [same, read_eq_nullInPath_iff] at failed
  exact ⟨same, failed⟩

end ProtocolGen.FileTree
