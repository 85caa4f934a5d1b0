import ProtocolGen.Proofs.FileTree.Entries
import ProtocolGen.Proofs.Sequencing
import ProtocolGen.Proofs.Text.Decoding
import ProtocolGen.Settings.File

/-!
# Settings files that are not reported

A settings file that cannot be read is refused in words, with few exceptions: a path that is not asked
for, bytes that are no text, integers that are too long to be read or written, and something other than
a table where the settings' table is looked up.
-/

set_option autoImplicit false

namespace ProtocolGen.Settings

variable {tree : FileTree} {path : Path} {failure : Failure}

/-- A file of text that is read as TOML with a result. -/
def ReadsToml (tree : FileTree) (path : Path) (result : Except Toml.Fault Data) : Prop :=
  ∃ chars, tree.read path = .ok chars.utf8Encode ∧ Toml.read chars = result

/-- The failures of reading a settings file that are not reported, each with what brings it about. -/
inductive IsUnreported (tree : FileTree) (path : Path) : Failure → Prop where
  | nullInPath (null : FileTree.HasNull path) : IsUnreported tree path (.file ⟨.nullInPath, path⟩)
  /-- Bytes that are no text. -/
  | notText {bytes : ByteArray} {fault : Text.DecodeFault} (found : tree.read path = .ok bytes)
      (malformed : ¬ bytes.IsValidUTF8) (refused : Text.decodeChars bytes.toList = .error fault) :
      IsUnreported tree path (.bytes fault)
  /-- An integer that is too long to be read. -/
  | longInteger {count : Nat} (refused : ReadsToml tree path (.error (.tooManyDigits count))) :
      IsUnreported tree path (.meaningless (Json.tooManyDigitsMessage count))
  /-- Something else stands where the outer table is looked up. -/
  | noTables {content value : Data} (held : ReadsToml tree path (.ok content))
      (standing : content.member? outerTable = some value) (other : ∀ tools, value ≠ .table tools) :
      IsUnreported tree path (.noTables value.kindName)
  /-- The destination is or has an integer that is too long to be written. -/
  | longDestination {content value : Data} {entries : List (Text × Data)}
      (held : ReadsToml tree path (.ok content)) (tables : tableEntries path content = .ok entries)
      (known : unknownNames entries = [])
      (standing : Data.lookupEntry (Text.ofString "dest") entries = some value)
      (long : value.isUnwritable) : IsUnreported tree path (.meaningless Data.unwritableMessage)

/-- The failure of a settings file with a fault in its TOML. -/
def tomlFailure (path : Path) : Toml.Fault → Failure
  | .malformed => .settings (.malformed path)
  | .tooManyDigits count => .meaningless (Json.tooManyDigitsMessage count)

/-- What is made of the content of a settings file. -/
def draftContent (path : Path) (content : Data) : Except Failure Draft := do
  let entries ← tableEntries path content
  match unknownNames entries with
  | [] =>
    if hasUnwritableDestination entries then .error (.meaningless Data.unwritableMessage)
    else .ok (Draft.default.merge (tableOverrides path entries))
  | names => .error (.settings (.unknownKeys path names))

theorem loadDraft_eq {bytes : ByteArray} (found : tree.read path = .ok bytes) :
    loadDraft tree (some path) = readContent path bytes.toList >>= draftContent path := by
  rw [loadDraft, found]
  rfl

theorem ReadsToml.loadDraft_eq {result : Except Toml.Fault Data} (reads : ReadsToml tree path result) :
    loadDraft tree (some path) = result.mapError (tomlFailure path) >>= draftContent path := by
  obtain ⟨chars, found, rfl⟩ := reads
  rw [Settings.loadDraft_eq found, readContent, Text.decodeChars_toList_eq_ok_iff.mpr rfl]
  dsimp only
  cases Toml.read chars with
  | ok content => rfl
  | error fault => cases fault <;> rfl

theorem loadDraft_of_notText {bytes : ByteArray} {fault : Text.DecodeFault}
    (found : tree.read path = .ok bytes) (refused : Text.decodeChars bytes.toList = .error fault) :
    loadDraft tree (some path) = .error (.bytes fault) := by
  rw [loadDraft_eq found, readContent, refused]
  rfl

/-! ## The tables of a content -/

theorem tableEntries_error {content : Data} (refused : tableEntries path content = .error failure) :
    (∃ problem, failure = .settings problem) ∨
      ∃ value, content.member? outerTable = some value ∧ (∀ tools, value ≠ .table tools) ∧
        failure = .noTables value.kindName := by
  unfold tableEntries at refused
  split at refused
  · cases refused
  · split at refused <;> cases refused
    exact .inl ⟨_, rfl⟩
  · next other notTable standing =>
    cases refused
    exact .inr ⟨other, standing, notTable, rfl⟩

theorem isUnreported_of_draftContent {content : Data} (held : ReadsToml tree path (.ok content))
    (refused : draftContent path content = .error failure) :
    (∃ problem, failure = .settings problem) ∨ IsUnreported tree path failure := by
  unfold draftContent at refused
  cases tables : tableEntries path content with
  | error other =>
    rw [tables] at refused
    cases refused
    rcases tableEntries_error tables with reported | ⟨value, standing, other, rfl⟩
    · exact .inl reported
    · exact .inr (.noTables held standing other)
  | ok entries =>
    rw [tables] at refused
    change (match unknownNames entries with
      | [] => _
      | names => _) = _ at refused
    split at refused
    · next known =>
      split at refused
      · next long =>
        cases refused
        unfold hasUnwritableDestination at long
        obtain ⟨value, standing, long⟩ := (Option.any_eq_true _ _).mp long
        exact .inr (.longDestination held tables known standing long)
      · cases refused
    · cases refused
      exact .inl ⟨_, rfl⟩

/-! ## Loading -/

/-- A settings file that is not read is refused in words or is one of the exceptions. -/
theorem loadDraft_error (failed : loadDraft tree (some path) = .error failure) :
    (∃ problem, failure = .settings problem) ∨ IsUnreported tree path failure := by
  cases found : tree.read path with
  | error fault =>
    rw [loadDraft, found] at failed
    dsimp only at failed
    split at failed
    · cases failed
      exact .inl ⟨_, rfl⟩
    · next notAsked =>
      cases failed
      obtain ⟨rfl, null⟩ := FileTree.hasNull_of_read_error found notAsked
      exact .inr (.nullInPath null)
  | ok bytes =>
    cases decoded : Text.decodeChars bytes.toList with
    | error fault =>
      cases (loadDraft_of_notText found decoded).symm.trans failed
      exact .inr (.notText found (Text.exists_decodeChars_eq_error_iff.mp ⟨fault, decoded⟩) decoded)
    | ok chars =>
      obtain rfl := Text.decodeChars_toList_eq_ok_iff.mp decoded
      have reads : ReadsToml tree path (Toml.read chars) := ⟨chars, found, rfl⟩
      rw [reads.loadDraft_eq] at failed
      cases result : Toml.read chars with
      | ok content =>
        rw [result] at reads failed
        exact isUnreported_of_draftContent reads failed
      | error fault =>
        rw [result] at reads failed
        cases fault with
        | malformed =>
          cases failed
          exact .inl ⟨_, rfl⟩
        | tooManyDigits count =>
          cases failed
          exact .inr (.longInteger reads)

/-- None of the exceptions is reported. -/
theorem IsUnreported.loadDraft_eq (unreported : IsUnreported tree path failure) :
    loadDraft tree (some path) = .error failure ∧ failure.isReported = false := by
  refine ⟨?_, by cases unreported <;> rfl⟩
  cases unreported with
  | nullInPath null => rw [loadDraft, FileTree.read_eq_nullInPath_iff.mpr null]; rfl
  | notText found malformed refused => exact loadDraft_of_notText found refused
  | longInteger refused => exact refused.loadDraft_eq
  | @noTables content value held standing other =>
    have refused : tableEntries path content = .error (.noTables value.kindName) := by
      unfold tableEntries
      rw [standing]
      cases value with
      | table tools => exact absurd rfl (other tools)
      | _ => rfl
    rw [held.loadDraft_eq]
    change tableEntries path content >>= _ = _
    rw [refused]
    rfl
  | @longDestination content value entries held tables known standing long =>
    have destination : hasUnwritableDestination entries := by
      rw [hasUnwritableDestination, standing]
      exact long
    rw [held.loadDraft_eq]
    change tableEntries path content >>= _ = _
    rw [tables]
    change (match unknownNames entries with
      | [] => _
      | names => _) = _
    rw [known]
    exact if_pos destination

theorem isUnreported_iff : IsUnreported tree path failure ↔
    loadDraft tree (some path) = .error failure ∧ failure.isReported = false := by
  constructor
  · exact IsUnreported.loadDraft_eq
  · intro ⟨failed, silent⟩
    refine (loadDraft_error failed).resolve_left fun ⟨problem, same⟩ => ?_
    rw [same] at silent
    cases silent

theorem exists_problem_of_loadDraft (failed : loadDraft tree (some path) = .error failure)
    (reported : failure.isReported) : ∃ problem, failure = .settings problem := by
  refine (loadDraft_error failed).resolve_right fun unreported => ?_
  exact absurd reported (by simp [unreported.loadDraft_eq.2])

end ProtocolGen.Settings
