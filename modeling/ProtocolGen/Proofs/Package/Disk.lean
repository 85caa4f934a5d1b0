import ProtocolGen.Proofs.FileTree.Persist
import ProtocolGen.Proofs.Package.Layout
import ProtocolGen.Proofs.Package.ModulePaths

/-!
# Packages in file trees

The modules of a package never lead to one location, so after all of them are written each file holds
its own text. Comparing a stage with a tree finds the files that writing it would change, and writing
changes nothing just when there are none.
-/

set_option autoImplicit false

namespace ProtocolGen

open ProtocolGen.Source

/-! ## Paths below a directory -/

namespace Path

/-- A path below a directory by names that are steps down. -/
def Below (directory path : Path) : Prop :=
  ∃ names, (∀ name ∈ names, name ≠ "..") ∧ path = ⟨directory.root, directory.parts ++ names⟩

/-- Paths that lead to one location in no tree. -/
def Apart (path other : Path) : Prop :=
  ∀ (tree : FileTree) location, tree.resolve path = .ok location → tree.resolve other ≠ .ok location

theorem location_of_steps_down {tree : FileTree} {names base location : List String}
    (down : ∀ name ∈ names, name ≠ "..") (steps : names.foldlM tree.step base = .ok location) :
    location = base ++ names := by
  induction names generalizing base with
  | nil =>
    cases steps
    rw [List.append_nil]
  | cons name names ih =>
    rw [List.forall_mem_cons] at down
    obtain ⟨next, stepped, rest⟩ := bind_eq_ok_iff.mp steps
    have here : next = base ++ [name] := by
      unfold FileTree.step at stepped
      split at stepped
      · cases stepped
      · cases stepped
      · rw [if_neg (by simpa using down.1)] at stepped
        split at stepped
        · cases stepped
        · exact (Except.ok.inj stepped).symm
    rw [ih down.2 rest, here, List.append_assoc, List.singleton_append]

theorem Below.apart {directory path other : Path} (below : Below directory path)
    (otherBelow : Below directory other) (different : path ≠ other) : Apart path other := by
  intro tree location leads otherLeads
  obtain ⟨names, down, rfl⟩ := below
  obtain ⟨otherNames, otherDown, rfl⟩ := otherBelow
  obtain ⟨-, -, steps⟩ := FileTree.resolve_eq_ok_iff.mp leads
  obtain ⟨-, -, otherSteps⟩ := FileTree.resolve_eq_ok_iff.mp otherLeads
  rw [List.foldlM_append] at steps otherSteps
  obtain ⟨base, found, rest⟩ := bind_eq_ok_iff.mp steps
  obtain ⟨otherBase, otherFound, otherRest⟩ := bind_eq_ok_iff.mp otherSteps
  cases found.symm.trans otherFound
  have same : base ++ names = base ++ otherNames :=
    (location_of_steps_down down rest).symm.trans (location_of_steps_down otherDown otherRest)
  exact different (by rw [List.append_cancel_left same])

theorem ne_dots_of_isIdentifier {text : String} (identifier : Text.isIdentifier text.toList) :
    text ≠ ".." := by
  rintro rfl
  exact absurd identifier (by decide)

theorem ne_dots_of_file (module : String) : module ++ ".py" ≠ ".." := by
  intro same
  have chars := congrArg (fun text => text.toList.getLast?) same
  rw [String.toList_append, show ".py".toList = ['.', 'p'] ++ ['y'] from rfl, ← List.append_assoc,
    List.getLast?_concat] at chars
  exact absurd chars (by decide)

end Path

namespace Package

section Plan

variable {draft : Draft} {settings : Settings} {domains : List Domain} {index : Types.TypeIndex}

theorem isIdentifier_of_validate (valid : draft.validate = .ok settings) :
    Text.isIdentifier settings.package.toList ∧ Text.isIdentifier settings.typesPackage.toList := by
  obtain ⟨package, packageChecked, rest⟩ := bind_eq_ok_iff.mp valid
  obtain ⟨typesPackage, typesChecked, rest⟩ := bind_eq_ok_iff.mp rest
  obtain ⟨_, -, finished⟩ := bind_eq_ok_iff.mp rest
  cases finished
  exact ⟨isIdentifier_of_identifier packageChecked, isIdentifier_of_identifier typesChecked⟩

/-- All modules of a package lie below its destination. -/
theorem below_of_mem_layout (valid : draft.validate = .ok settings) :
    ∀ path ∈ layout settings domains, Path.Below settings.destination path := by
  obtain ⟨package, types⟩ := isIdentifier_of_validate valid
  have packagePart := Path.isPart_of_isIdentifier package
  have typesPart := Path.isPart_of_isIdentifier types
  have beside (name : String) (part : Path.IsPart (name ++ ".py")) :
      Path.Below settings.destination (moduleFile settings.packageDirectory name) := by
    refine ⟨[settings.package, name ++ ".py"], ?_, ?_⟩
    · simp [Path.ne_dots_of_isIdentifier package, Path.ne_dots_of_file]
    · rw [moduleFile, Settings.packageDirectory, Path.join_of_isPart _ packagePart,
        Path.join_of_isPart _ part, List.append_assoc, List.singleton_append]
  have inside (name : String) (part : Path.IsPart (name ++ ".py")) :
      Path.Below settings.destination (moduleFile settings.typesDirectory name) := by
    refine ⟨[settings.package, settings.typesPackage, name ++ ".py"], ?_, ?_⟩
    · simp [Path.ne_dots_of_isIdentifier package, Path.ne_dots_of_isIdentifier types,
        Path.ne_dots_of_file]
    · simp only [moduleFile, Settings.typesDirectory, Settings.packageDirectory,
        Path.join_of_isPart _ packagePart, Path.join_of_isPart _ typesPart,
        Path.join_of_isPart _ part, List.append_assoc, List.cons_append, List.nil_append]
  have fixed (name : String) (member : name ∈ fixedModules) : Path.IsPart (name ++ ".py") :=
    isPart_fixedModule member
  intro path member
  simp only [layout, List.mem_append, List.mem_cons, List.mem_map, List.not_mem_nil, or_false]
    at member
  rcases member with (((rfl | rfl) | ⟨domain, -, rfl⟩) | own) | (rfl | rfl)
  · exact beside packageModule (fixed packageModule (by decide))
  · exact beside "client" (fixed "client" (by decide))
  · exact inside _ (Path.isPart_moduleName domain.name)
  · split at own
    · cases own
    · rw [List.mem_singleton.mp own]
      exact inside packageModule (fixed packageModule (by decide))
  · exact beside "commands" (fixed "commands" (by decide))
  · exact beside "events" (fixed "events" (by decide))

variable {formatter : Formatter} {reached : Stage}

/-- No two files of a stage can lead to one location. -/
theorem apart_writes (valid : draft.validate = .ok settings)
    (staged : (stage formatter settings domains).result = .ok (index, reached)) :
    reached.writes.Pairwise fun file other => file.1.Apart other.1 := by
  obtain ⟨⟨paths, -⟩, -⟩ := writesLayout_of_stage staged
  have unique := nodup_paths_writes staged
  have below : ∀ file ∈ reached.writes, Path.Below settings.destination file.1 := by
    intro file member
    have inLayout : file.1 ∈ (layout settings domains).eraseDups :=
      paths ▸ List.mem_map_of_mem member
    exact below_of_mem_layout valid file.1 (List.mem_eraseDups.mp inLayout)
  refine List.Pairwise.imp_of_mem ?_ (List.pairwise_map.mp unique)
  intro file other inFiles otherInFiles different
  exact (below file inFiles).apart (below other otherInFiles) different

end Plan

/-! ## Writing all files -/

/-- Whether a tree holds a file with its contents. -/
def Holds (tree : FileTree) (file : Path × ByteArray) : Prop := tree.read file.1 = .ok file.2

instance (tree : FileTree) : DecidablePred (Holds tree) :=
  fun file => inferInstanceAs (Decidable (tree.read file.1 = .ok file.2))

/-- The locations that some paths lead to. -/
def locations (tree : FileTree) (files : List (Path × ByteArray)) : List (List String) :=
  files.filterMap fun file => (tree.resolve file.1).toOption

section Writing

variable {tree later : FileTree} {files : List (Path × ByteArray)}

theorem mem_locations_iff {location : List String} : location ∈ locations tree files ↔
    ∃ file ∈ files, tree.resolve file.1 = .ok location := by
  have toOption (path : Path) :
      (tree.resolve path).toOption = some location ↔ tree.resolve path = .ok location := by
    cases tree.resolve path <;> simp [Except.toOption]
  simp only [locations, List.mem_filterMap, toOption]

theorem persistAll_cons_ok {file : Path × ByteArray}
    (persisted : persistAll .fileTree tree (file :: files) = (later, none)) :
    ∃ mid, tree.persist file.1 file.2 = (mid, none) ∧
      persistAll .fileTree mid files = (later, none) := by
  obtain ⟨path, bytes⟩ := file
  rw [persistAll] at persisted
  cases wrote : tree.persist path bytes with
  | mk mid fault =>
    rw [show Persister.fileTree.write tree path bytes = _ from wrote] at persisted
    cases fault with
    | none => exact ⟨mid, rfl, persisted⟩
    | some fault => cases persisted

/-- Only the files are new or have other contents, and directories that were missing. -/
theorem written_of_persistAll (persisted : persistAll .fileTree tree files = (later, none)) :
    tree.Written (locations later files) later := by
  induction files generalizing tree with
  | nil =>
    cases persisted
    exact (FileTree.Same.refl later).written
  | cons file files ih =>
    obtain ⟨mid, wrote, rest⟩ := persistAll_cons_ok persisted
    obtain ⟨location, leads, written, -⟩ := FileTree.persist_ok wrote
    have others := ih rest
    have front : locations later (file :: files) = [location] ++ locations later files := by
      rw [locations, List.filterMap_cons, others.resolve_ok leads]
      rfl
    rw [front]
    exact written.trans others

theorem exists_resolve_of_persistAll
    (persisted : persistAll .fileTree tree files = (later, none)) :
    ∀ file ∈ files, ∃ location, later.resolve file.1 = .ok location := by
  induction files generalizing tree with
  | nil => exact fun _ member => nomatch member
  | cons file files ih =>
    obtain ⟨mid, wrote, rest⟩ := persistAll_cons_ok persisted
    obtain ⟨location, leads, -, -⟩ := FileTree.persist_ok wrote
    rw [List.forall_mem_cons]
    exact ⟨⟨location, (written_of_persistAll rest).resolve_ok leads⟩, ih rest⟩

theorem holds_of_persistAll (apart : files.Pairwise fun file other => file.1.Apart other.1)
    (persisted : persistAll .fileTree tree files = (later, none)) :
    ∀ file ∈ files, Holds later file := by
  induction files generalizing tree with
  | nil => exact fun _ member => nomatch member
  | cons file files ih =>
    obtain ⟨alone, apart⟩ := List.pairwise_cons.mp apart
    obtain ⟨mid, wrote, rest⟩ := persistAll_cons_ok persisted
    obtain ⟨location, leads, -, stands⟩ := FileTree.persist_ok wrote
    have others := written_of_persistAll rest
    have still : later.resolve file.1 = .ok location := others.resolve_ok leads
    have elsewhere : location ∉ locations later files := by
      intro member
      obtain ⟨other, inFiles, otherLeads⟩ := mem_locations_iff.mp member
      exact alone other inFiles later location still otherLeads
    rw [List.forall_mem_cons]
    exact ⟨FileTree.read_eq_ok_iff.mpr ⟨location, still, others.file_of_not_mem elsewhere stands⟩,
      ih apart rest⟩

/-- Writing files that are there with their contents changes nothing. -/
theorem persistAll_of_holds (holds : ∀ file ∈ files, Holds tree file) :
    ∃ later, persistAll .fileTree tree files = (later, none) ∧ tree.Same later := by
  induction files generalizing tree with
  | nil => exact ⟨tree, rfl, .refl tree⟩
  | cons file files ih =>
    rw [List.forall_mem_cons] at holds
    obtain ⟨mid, wrote, same⟩ := FileTree.persist_of_read holds.1
    obtain ⟨later, rest, alsoSame⟩ := ih fun other member =>
      (same.read_eq other.1).trans (holds.2 other member)
    refine ⟨later, ?_, same.trans alsoSame⟩
    rw [persistAll, show Persister.fileTree.write tree file.1 file.2 = _ from wrote]
    exact rest

/-- Where each path leads to something but a directory, all files can be written. -/
theorem exists_persistAll
    (ready : ∀ file ∈ files, (tree.resolve file.1).isOk ∧ ¬ tree.isDirectory file.1) :
    ∃ later, persistAll .fileTree tree files = (later, none) := by
  induction files generalizing tree with
  | nil => exact ⟨tree, rfl⟩
  | cons file files ih =>
    rw [List.forall_mem_cons] at ready
    obtain ⟨⟨ok, notDirectory⟩, others⟩ := ready
    obtain ⟨location, leads⟩ := exists_eq_ok_of_isOk ok
    have free : tree.at? location ≠ some .directory := fun stands =>
      notDirectory (FileTree.isDirectory_iff.mpr ⟨location, leads, stands⟩)
    have wrote := FileTree.persist_of_resolve leads free file.2
    obtain ⟨_, -, written, -⟩ := FileTree.persist_ok wrote
    rw [persistAll, show Persister.fileTree.write tree file.1 file.2 = _ from wrote]
    refine ih fun other member => ?_
    obtain ⟨ok, notDirectory⟩ := others other member
    obtain ⟨place, leads⟩ := exists_eq_ok_of_isOk ok
    have stillLeads := written.resolve_ok leads
    refine ⟨by rw [stillLeads]; rfl, fun directory => ?_⟩
    obtain ⟨_, alsoLeads, stands⟩ := FileTree.isDirectory_iff.mp directory
    cases stillLeads.symm.trans alsoLeads
    rw [FileTree.at?_put _ (FileTree.not_isPrefixOf_of_at? free)] at stands
    split at stands
    · cases stands
    · exact notDirectory (FileTree.isDirectory_iff.mpr ⟨place, leads, stands⟩)

theorem same_iff_holds (apart : files.Pairwise fun file other => file.1.Apart other.1)
    (persisted : persistAll .fileTree tree files = (later, none)) :
    tree.Same later ↔ ∀ file ∈ files, Holds tree file := by
  constructor
  · intro same file member
    exact (same.read_eq file.1).symm.trans (holds_of_persistAll apart persisted file member)
  · intro holds
    obtain ⟨other, again, same⟩ := persistAll_of_holds holds
    cases persisted.symm.trans again
    exact same

end Writing

/-! ## Comparing -/

section Comparing

variable {tree later : FileTree} {stage : Stage}

/-- The files of a stage that a tree does not hold, in the order in which they would be written. -/
def missing (tree : FileTree) (files : List (Path × ByteArray)) : List Path :=
  (files.filter fun file => !decide (Holds tree file)).map Prod.fst

theorem missing_eq_nil_iff {files : List (Path × ByteArray)} :
    missing tree files = [] ↔ ∀ file ∈ files, Holds tree file := by
  simp [missing]

theorem missing_cons (file : Path × ByteArray) (files : List (Path × ByteArray)) :
    missing tree (file :: files) =
      if Holds tree file then missing tree files else file.1 :: missing tree files := by
  by_cases held : Holds tree file <;> simp [missing, held]

theorem beq_bytes_iff (bytes others : ByteArray) : bytes == others ↔ bytes = others := by
  have data : (bytes == others) = (bytes.data == others.data) := rfl
  rw [data, beq_iff_eq, ByteArray.ext_iff]

theorem isCurrent_eq {path : Path} {text : String}
    (short : tree.resolve path ≠ .error .nameTooLong) :
    isCurrent tree path text = .ok (decide (Holds tree (path, text.toUTF8))) := by
  rw [isCurrent]
  cases found : tree.read path with
  | ok bytes =>
    refine congrArg Except.ok (Bool.eq_iff_iff.mpr ?_)
    rw [beq_bytes_iff, decide_eq_true_eq, Holds, found, Except.ok.injEq]
  | error fault =>
    have other : fault.kind ≠ .nameTooLong := fun kind =>
      short (FileTree.resolve_of_tooLong found kind)
    simp [Holds, found, other]

theorem stalePaths_eq {files : List (Path × String)}
    (short : ∀ file ∈ files, tree.resolve file.1 ≠ .error .nameTooLong) :
    stalePaths tree files =
      .ok (missing tree (files.map fun (path, text) => (path, text.toUTF8))) := by
  induction files with
  | nil => rfl
  | cons file files ih =>
    rw [List.forall_mem_cons] at short
    rw [stalePaths, isCurrent_eq short.1, ih short.2, List.map_cons, missing_cons]
    by_cases held : Holds tree (file.1, file.2.toUTF8)
    · rw [decide_eq_true held, if_pos held]
      rfl
    · rw [decide_eq_false held, if_neg held]
      rfl

/-- Where a stage can be written, comparing it finds the files that are not there. -/
theorem staleFiles_of_persistAll
    (persisted : persistAll .fileTree tree stage.writes = (later, none)) :
    staleFiles tree stage = .ok (missing tree stage.writes) := by
  have written := written_of_persistAll persisted
  refine stalePaths_eq fun file member long => ?_
  obtain ⟨location, leads⟩ := exists_resolve_of_persistAll persisted _ (List.mem_map_of_mem member)
  rcases written.resolve_eq file.1 with missing | same
  · rw [long] at missing
    cases missing
  · rw [long] at same
    cases same.symm.trans leads

end Comparing

/-! ## Stages in memory -/

theorem result_generateStage (formatter : Formatter) (settings : Settings) (domains : List Domain) :
    (generateStage formatter settings domains).result =
      (stage formatter settings domains).result.map Prod.snd := by
  have taken (files written : List (Path × ByteArray)) :
      (persistAll .memory written files).2 = none := by
    induction files generalizing written with
    | nil => rfl
    | cons file files ih => exact ih _
  unfold generateStage
  cases staged : (stage formatter settings domains).result with
  | error failure => rw [generate_of_stage_error staged]; rfl
  | ok found =>
    obtain ⟨index, reached⟩ := found
    rw [(generate_of_stage_ok staged).2, taken]
    rfl

end Package

end ProtocolGen
