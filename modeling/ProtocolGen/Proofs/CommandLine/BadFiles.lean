import ProtocolGen.Proofs.CommandLine.Check
import ProtocolGen.Proofs.Document.Unreported
import ProtocolGen.Proofs.Json.DigitLimit
import ProtocolGen.Proofs.Settings.Unreported
import ProtocolGen.Proofs.Text.LineEnds
import ProtocolGen.Proofs.Toml.DigitLimit

/-!
# Runs on bad files

A run whose inputs are not read ends with status one and says why, or ends without a report. The second
happens for the failures that loading a document or a settings file does not report, and for a name in a
settings file that is too long to be shown.
-/

set_option autoImplicit false

namespace ProtocolGen.CommandLine

section Runs

variable {tree : FileTree} {texts : List String} {request : Request} {failure : Failure}

/-- The failures of a run's inputs that are not reported, each with the file that brings it about. -/
inductive IsUnreported (tree : FileTree) (request : Request) : Failure → Prop where
  | settings {path : Path} {failure : Failure} (given : request.settingsFile = some path)
      (unreported : Settings.IsUnreported tree path failure) : IsUnreported tree request failure
  /-- A name of the settings is or has an integer that is too long to be shown. -/
  | longName {draft : Draft} {fault : SettingFault}
      (loaded : Settings.loadDraft tree request.settingsFile = .ok draft)
      (wrong : (draft.merge request.overrides).validate = .error fault)
      (long : (Settings.draftedName (draft.merge request.overrides) fault.setting).isUnwritable) :
      IsUnreported tree request (.meaningless Data.unwritableMessage)
  | document {path : Path} {failure : Failure} (given : path ∈ request.documents)
      (unreported : Document.IsUnreported tree path failure) : IsUnreported tree request failure

/-- Inputs that are not read are refused in words or are one of the exceptions. -/
theorem prepare_error (failed : prepare tree request = .error failure) :
    failure.isReported ∨ IsUnreported tree request failure := by
  rcases bind_eq_error_iff.mp failed with notLoaded | ⟨draft, loaded, failed⟩
  · cases file : request.settingsFile with
    | none =>
      rw [file] at notLoaded
      cases notLoaded
    | some path =>
      rw [file] at notLoaded
      rcases Settings.loadDraft_error notLoaded with ⟨problem, rfl⟩ | unreported
      · exact .inl rfl
      · exact .inr (.settings file unreported)
  · rcases bind_eq_error_iff.mp failed with wrong | ⟨settings, -, failed⟩
    · obtain ⟨fault, invalid, rfl⟩ := mapError_eq_error_iff.mp wrong
      unfold Settings.failureOf
      split
      · next long => exact .inr (.longName loaded invalid long)
      · exact .inl rfl
    · rcases bind_eq_error_iff.mp failed with notLoaded | ⟨domains, -, finished⟩
      · rcases bind_eq_error_iff.mp notLoaded with notLoaded | ⟨protocols, -, notMerged⟩
        · obtain ⟨path, given, notLoaded⟩ := exists_error_of_mapM notLoaded
          rcases Document.load_error notLoaded with ⟨problem, rfl⟩ | unreported
          · exact .inl rfl
          · exact .inr (.document given unreported)
        · obtain ⟨refusal, -, rfl⟩ := mapError_eq_error_iff.mp notMerged
          exact .inl rfl
      · cases finished

theorem IsUnreported.isReported_eq_false (unreported : IsUnreported tree request failure) :
    failure.isReported = false := by
  cases unreported with
  | settings given unreported => exact unreported.loadDraft_eq.2
  | longName loaded wrong long => rfl
  | document given unreported => exact unreported.load_eq.2

/-- A run whose inputs are not read leaves the tree alone and says what is wrong, if that is reported. -/
theorem run_of_prepare_error (accepted : demand texts = .ok (.run request))
    (failed : prepare tree request = .error failure) :
    run tree texts = (tree, .failing request.reporting [] failure) := by
  rw [run_eq accepted, runRequest, failed]

end Runs

section Spoilt

/-- A run with one document ends with what keeps the document from being loaded. -/
theorem prepare_of_load_error {tree : FileTree} {path : Path} {failure : Failure}
    (notLoaded : Document.load tree path = .error failure) :
    prepare tree { Request.empty with documents := [path] } = .error failure := by
  have none : [path].mapM (Document.load tree) = .error failure := by
    rw [List.mapM_cons, notLoaded]
    rfl
  have valid := congrArg (Except.mapError (Settings.failureOf Draft.default)) Package.validate_default
  refine bind_eq_error_iff.mpr (.inr ⟨Draft.default, rfl, bind_eq_error_iff.mpr
    (.inr ⟨Settings.default, valid, bind_eq_error_iff.mpr (.inl ?_)⟩)⟩)
  exact bind_eq_error_iff.mpr (.inl none)

def manyOnes : List Char := List.replicate 4301 '1'

/-- A directory with a byte that begins no character, a list that is not closed, a long integer, and
settings without tables. -/
def spoiltTree : FileTree :=
  ⟨["work"], [(["work", "mute.json"], .file ⟨#[0xff]⟩), (["work", "open.json"], .file "[".toUTF8),
    (["work", "long.json"], .file (String.ofList manyOnes).toUTF8),
    (["work", "flat.toml"], .file "tool = 1".toUTF8)]⟩

def muteFault : Text.DecodeFault := ⟨"utf-8", 0xff, 0, 1, "invalid start byte"⟩

theorem load_mute :
    Document.load spoiltTree ⟨"", ["mute.json"]⟩ = .error (.bytes muteFault) := by
  have refused : Text.decodeChars (⟨#[0xff]⟩ : ByteArray).toList = .error muteFault := by
    rw [Text.toList_eq_data]
    rfl
  exact Document.load_of_notText rfl refused

theorem loadDraft_flat :
    Settings.loadDraft spoiltTree (some ⟨"", ["flat.toml"]⟩) = .error (.noTables "int") := by
  have failed : (Settings.loadDraft spoiltTree (some ⟨"", ["flat.toml"]⟩)).map (fun _ => ()) =
      .error (.noTables "int") := by decide +kernel
  exact map_eq_error_iff.mp failed

def muteRequest : Request := { Request.empty with documents := [⟨"", ["mute.json"]⟩] }

def openRequest : Request := { Request.empty with documents := [⟨"", ["open.json"]⟩] }

theorem exists_load_open : ∃ problem,
    Document.load spoiltTree ⟨"", ["open.json"]⟩ = .error (.document ⟨"open.json", problem⟩) := by
  have reads : Document.ReadsJson spoiltTree ⟨"", ["open.json"]⟩ (.error (.malformed .value 1 1 2)) :=
    ⟨rfl, ['['], rfl, rfl⟩
  rw [reads.load_eq]
  exact ⟨_, rfl⟩

theorem read_ones {count : Nat} (many : Json.maximumDigits ≤ count) :
    Json.read (.scalar '1' :: List.replicate count (.scalar '1')) =
      .error (.tooManyDigits (count + 1)) := by
  rw [Json.read_of_isDigit _ (by decide), List.length_cons, List.length_replicate]
  · rw [List.length_cons, List.length_replicate]
    exact Nat.lt_succ_of_le many
  · rw [← List.replicate_succ]
    intro point member
    rw [List.eq_of_mem_replicate member]
    rfl

theorem readsJson_long :
    Document.ReadsJson spoiltTree ⟨"", ["long.json"]⟩ (.error (.tooManyDigits 4301)) := by
  have noReturn : '\r' ∉ manyOnes := fun member =>
    absurd (List.eq_of_mem_replicate member) (by decide)
  have ones : Text.ofChars (Text.unifyLineEnds manyOnes) =
      .scalar '1' :: List.replicate 4300 (.scalar '1') := by
    rw [Text.unifyLineEnds_of_not_mem noReturn, manyOnes, Text.ofChars, List.map_replicate,
      List.replicate_succ]
  have refused : Json.read (Text.ofChars (Text.unifyLineEnds manyOnes)) =
      .error (.tooManyDigits 4301) := by
    rw [ones]
    exact read_ones (Nat.le_refl _)
  have found : spoiltTree.read ⟨"", ["long.json"]⟩ = .ok (String.ofList manyOnes).toUTF8 := rfl
  refine ⟨rfl, manyOnes, ?_, refused⟩
  rw [found, String.toUTF8_eq_toByteArray, String.toByteArray_ofList]

end Spoilt

end ProtocolGen.CommandLine
