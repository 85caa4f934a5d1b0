import ProtocolGen.Proofs.Package.FormatFaults

/-!
# Writes that fail

A run whose package cannot be staged leaves the tree as it was. A run that cannot write one of its
files stops there: the files before it stay written, with the directories that were made for them and
for it, and nothing else has changed. The tree is as it was only where the files before held their
contents already and the directory of the one that failed was not missing.
-/

set_option autoImplicit false

namespace ProtocolGen.Package

open ProtocolGen.Source

/-! ## Stopping at a file -/

/-- A sequence of writes that fails has a first file that cannot be written. -/
theorem persistAll_error {State : Type} {persister : Persister State} {state later : State}
    {files : List (Path × ByteArray)} {fault : FileFault}
    (failed : persistAll persister state files = (later, some fault)) :
    ∃ before stopped after mid, files = before ++ stopped :: after ∧
      persistAll persister state before = (mid, none) ∧
      persister.write mid stopped.1 stopped.2 = (later, some fault) := by
  induction files generalizing state with
  | nil => cases failed
  | cons file files ih =>
    obtain ⟨path, bytes⟩ := file
    rw [persistAll] at failed
    cases wrote : persister.write state path bytes with
    | mk next fault =>
      cases fault with
      | some other =>
        rw [wrote] at failed
        cases failed
        exact ⟨[], (path, bytes), files, state, rfl, rfl, wrote⟩
      | none =>
        rw [wrote] at failed
        obtain ⟨before, stopped, after, mid, rfl, persisted, refused⟩ := ih failed
        refine ⟨(path, bytes) :: before, stopped, after, mid, rfl, ?_, refused⟩
        rw [persistAll, wrote]
        exact persisted

/-- What a tree has become when some files were written and the next one could not be. -/
structure Stopped (tree : FileTree) (before : List (Path × ByteArray)) (next : Path)
    (later : FileTree) : Prop where
  held : ∀ file ∈ before, Holds later file
  others : tree.Written (locations later before) later
  unchanged : tree.Same later ↔ (∀ file ∈ before, Holds tree file) ∧ ¬ tree.Missing next.parent

section Stopping

variable {tree mid later : FileTree} {before : List (Path × ByteArray)}

theorem locations_of_written (persisted : persistAll .fileTree tree before = (mid, none))
    (directories : mid.Written [] later) : locations later before = locations mid before := by
  refine List.filterMap_congr fun file member => ?_
  obtain ⟨location, leads⟩ := exists_resolve_of_persistAll persisted file member
  rw [leads, directories.resolve_ok leads]

theorem Holds.of_written {file : Path × ByteArray} (held : Holds mid file)
    (directories : mid.Written [] later) : Holds later file := by
  obtain ⟨location, leads, stands⟩ := FileTree.read_eq_ok_iff.mp held
  exact FileTree.read_eq_ok_iff.mpr
    ⟨location, directories.resolve_ok leads, directories.file_of_not_mem (by simp) stands⟩

theorem stopped_of_persist_error {next : Path × ByteArray} {fault : FileFault}
    (apart : before.Pairwise fun file other => file.1.Apart other.1)
    (persisted : persistAll .fileTree tree before = (mid, none))
    (refused : mid.persist next.1 next.2 = (later, some fault)) :
    Stopped tree before next.1 later := by
  have made : later = (mid.makeDirectories next.1.parent).1 := FileTree.persist_error refused
  have directories : mid.Written [] later :=
    made ▸ FileTree.written_makeDirectoriesReversed mid _ _
  have held : ∀ file ∈ before, Holds later file := fun file member =>
    (holds_of_persistAll apart persisted file member).of_written directories
  have last : mid.Same later ↔ ¬ mid.Missing next.1.parent :=
    made ▸ FileTree.same_makeDirectories_iff
  refine ⟨held, ?_, ?_, ?_⟩
  · have written := (written_of_persistAll persisted).trans directories
    rwa [List.append_nil, ← locations_of_written persisted directories] at written
  · intro same
    have already : ∀ file ∈ before, Holds tree file := fun file member =>
      (same.read_eq file.1).symm.trans (held file member)
    have first : tree.Same mid := (same_iff_holds apart persisted).mpr already
    exact ⟨already, first.missing_iff.not.mp (last.mp (first.symm.trans same))⟩
  · intro ⟨already, there⟩
    have first : tree.Same mid := (same_iff_holds apart persisted).mpr already
    exact first.trans (last.mpr (first.missing_iff.not.mpr there))

end Stopping

/-! ## Runs that fail -/

theorem stagePlanned_ne_file {formatter : Formatter} {buffer : Buffer} {stage : Stage}
    {plan : List PlannedModule} {failure : Failure}
    (failed : (stagePlanned formatter buffer stage plan).result = .error failure)
    (fault : FileFault) : failure ≠ .file fault := by
  induction plan generalizing buffer stage with
  | nil => cases failed
  | cons planned rest ih =>
    rw [stagePlanned] at failed
    split at failed
    · next reason _ =>
      cases failed
      cases reason <;> intro same <;> cases same
    · split at failed
      · cases failed
        intro same
        cases same
      · exact ih failed

theorem stage_ne_file {formatter : Formatter} {settings : Settings} {domains : List Domain}
    {failure : Failure} (failed : (stage formatter settings domains).result = .error failure)
    (fault : FileFault) : failure ≠ .file fault := by
  unfold stage at failed
  split at failed
  · cases failed
    intro same
    cases same
  · dsimp only at failed
    cases staged : (stagePlanned formatter (Buffer.new settings.runtimeModule) Stage.empty
      (plan _ settings domains)).result with
    | error reason =>
      rw [staged] at failed
      cases failed
      exact stagePlanned_ne_file staged fault
    | ok reached =>
      rw [staged] at failed
      cases failed

section Runs

variable {formatter : Formatter} {draft : Draft} {settings : Settings} {domains : List Domain}
  {tree later : FileTree} {events : List Log.Event} {failure : Failure}

/-- A run that fails before its writes leaves the tree alone. One that fails in a write leaves the
files before that one, in the order of the layout. -/
theorem failed_run_keeps_earlier_files (valid : draft.validate = .ok settings)
    (failed : generate formatter .fileTree settings domains tree =
      (later, ⟨events, .error failure⟩)) :
    (¬ Generatable formatter settings domains ∧ (∀ fault, failure ≠ .file fault) ∧ later = tree) ∨
    ∃ fault index written before next after, failure = .file fault ∧
      Types.classify domains = .ok index ∧
      WritesLayout formatter index settings domains written ∧
      written = before ++ next :: after ∧ Stopped tree before next.1 later := by
  cases staged : (stage formatter settings domains).result with
  | error reason =>
    have ended := failed.symm.trans (generate_of_stage_error staged)
    cases ended
    exact .inl ⟨exists_stage_eq_error_iff.mp ⟨_, staged⟩, stage_ne_file staged, rfl⟩
  | ok found =>
    obtain ⟨index, reached⟩ := found
    obtain ⟨state, result⟩ : (generate formatter .fileTree settings domains tree).1 =
        (persistAll .fileTree tree reached.writes).1 ∧ _ := generate_of_stage_ok staged
    rw [failed] at state result
    dsimp only at state result
    cases persisted : persistAll .fileTree tree reached.writes with
    | mk after refusal =>
      rw [persisted] at state result
      cases refusal with
      | none => cases result
      | some fault =>
        cases state
        obtain ⟨before, next, rest, mid, files, persisted, refused⟩ := persistAll_error persisted
        have apart := apart_writes valid staged
        rw [files] at apart
        refine .inr ⟨fault, index, _, before, next, rest, Except.error.inj result,
          (stage_eq_ok_iff.mp staged).1, (writesLayout_of_stage staged).1, files, ?_⟩
        exact stopped_of_persist_error (List.pairwise_append.mp apart).1 persisted refused

end Runs

section Reed

def reed : Domain := ⟨"Reed", none, false, false, [], [], []⟩

/-- A package with a directory where the clients' module goes. -/
def blockedTree : FileTree :=
  ⟨["work"], [(["work", "cdp"], .directory), (["work", "cdp", "client.py"], .directory)]⟩

def reedPackage : Path := moduleFile Settings.default.packageDirectory packageModule

def reedClient : Path := moduleFile Settings.default.packageDirectory "client"

theorem exists_stage_reed : ∃ reached first second rest,
    (stage format Settings.default [reed]).result = .ok (⟨[]⟩, reached) ∧
      reached.writes = (reedPackage, first) :: (reedClient, second) :: rest := by
  obtain ⟨reached, staged⟩ := exists_stage_of_shown hasPlainNames_default
    (show Types.classify [reed] = .ok ⟨[]⟩ by decide) rfl (by decide)
  obtain ⟨⟨paths, -⟩, -⟩ := writesLayout_of_stage staged
  have order : (layout Settings.default [reed]).eraseDups = reedPackage :: reedClient ::
      ((layout Settings.default [reed]).eraseDups.drop 2) := rfl
  rw [order, List.map_eq_cons_iff] at paths
  obtain ⟨⟨_, first⟩, others, writes, rfl, paths⟩ := paths
  obtain ⟨⟨_, second⟩, rest, rfl, rfl, -⟩ := List.map_eq_cons_iff.mp paths
  exact ⟨reached, first, second, rest, staged, writes⟩

theorem generate_blockedTree : ∃ later events,
    generate format .fileTree Settings.default [reed] blockedTree =
      (later, ⟨events, .error (.file ⟨.isADirectory, reedClient⟩)⟩) ∧
    (later.read reedPackage).isOk := by
  obtain ⟨reached, first, second, rest, staged, writes⟩ := exists_stage_reed
  obtain ⟨mid, wrote⟩ : ∃ mid, blockedTree.persist reedPackage first = (mid, none) := by
    have leads : blockedTree.resolve reedPackage = .ok ["work", "cdp", "__init__.py"] := rfl
    have free : blockedTree.at? ["work", "cdp", "__init__.py"] = none := rfl
    exact ⟨_, FileTree.persist_of_resolve leads (by simp [free]) first⟩
  obtain ⟨location, leads, written, stands⟩ := FileTree.persist_ok wrote
  have refused : mid.persist reedClient second = (mid, some ⟨.isADirectory, reedClient⟩) :=
    FileTree.persist_of_isDirectory
      (written.isDirectory (show blockedTree.isDirectory reedClient.parent from rfl))
      (written.isDirectory (show blockedTree.isDirectory reedClient from rfl)) second
  have stops : persistAll .fileTree blockedTree reached.writes =
      (mid, some ⟨.isADirectory, reedClient⟩) := by
    rw [writes, persistAll, show Persister.fileTree.write blockedTree reedPackage first = _ from wrote]
    dsimp only
    rw [persistAll, show Persister.fileTree.write mid reedClient second = _ from refused]
  obtain ⟨state, result⟩ : (generate format .fileTree Settings.default [reed] blockedTree).1 =
      (persistAll .fileTree blockedTree reached.writes).1 ∧ _ := generate_of_stage_ok staged
  rw [stops] at state result
  rcases run : generate format .fileTree Settings.default [reed] blockedTree with
    ⟨later, events, ended⟩
  rw [run] at state result
  cases state
  cases result
  refine ⟨mid, events, rfl, ?_⟩
  rw [FileTree.read_eq_ok_iff.mpr ⟨location, leads, stands⟩]
  rfl

theorem missing_reedPackage : ¬ (blockedTree.read reedPackage).isOk := by decide

/-- A run that cannot write its second file has written its first. -/
theorem blocked_run_leaves_package_file :
    Draft.default.validate = .ok Settings.default ∧
    ∃ later events,
      generate format .fileTree Settings.default [reed] blockedTree =
        (later, ⟨events, .error (.file ⟨.isADirectory, reedClient⟩)⟩) ∧
      ¬ blockedTree.Same later := by
  obtain ⟨later, events, failed, written⟩ := generate_blockedTree
  refine ⟨validate_default, later, events, failed, fun same => ?_⟩
  exact missing_reedPackage (same.read_eq reedPackage ▸ written)

theorem blocked_run_keeps_earlier_files :
    ∃ later events written before next after,
      generate format .fileTree Settings.default [reed] blockedTree =
        (later, ⟨events, .error (.file ⟨.isADirectory, reedClient⟩)⟩) ∧
      WritesLayout format ⟨[]⟩ Settings.default [reed] written ∧
      written = before ++ next :: after ∧ Stopped blockedTree before next.1 later ∧
      ¬ ∀ file ∈ before, Holds blockedTree file := by
  obtain ⟨later, events, failed, packageWritten⟩ := generate_blockedTree
  rcases failed_run_keeps_earlier_files validate_default failed with
    ⟨-, other, -⟩ | ⟨_, index, written, before, next, after, -, accepted, inOrder, writes, stopped⟩
  · exact absurd rfl (other _)
  cases accepted
  refine ⟨later, events, written, before, next, after, failed, inOrder, writes, stopped, ?_⟩
  intro already
  have place : ∀ path ∈ layout Settings.default [reed], ¬ blockedTree.Missing path.parent := by
    decide
  have inLayout : next.1 ∈ layout Settings.default [reed] := by
    rw [← List.mem_eraseDups, ← inOrder.paths, writes]
    simp
  have same := stopped.unchanged.mpr ⟨already, place next.1 inLayout⟩
  exact missing_reedPackage (same.read_eq reedPackage ▸ packageWritten)

end Reed

end ProtocolGen.Package
