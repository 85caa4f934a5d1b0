import ProtocolGen.Document.Load
import ProtocolGen.Proofs.Document.Parsing
import ProtocolGen.Proofs.FileTree.Entries
import ProtocolGen.Proofs.Text.Decoding

/-!
# Documents that are not reported

A document that cannot be loaded is refused in words, with few exceptions: a path that is not asked for,
bytes that are no text, and values that the notation allows and that are not read or not shown.
-/

set_option autoImplicit false

namespace ProtocolGen.Document

variable {tree : FileTree} {path : Path} {source : String} {failure : Failure}

/-- A file of text that is read as JSON with a result. -/
def ReadsJson (tree : FileTree) (path : Path) (result : Except Json.Fault Data) : Prop :=
  isYaml path = false ∧ ∃ chars, tree.read path = .ok chars.utf8Encode ∧
    Json.read (Text.ofChars (Text.unifyLineEnds chars)) = result

/-- A file of text that is read as YAML with a result. -/
def ReadsYaml (tree : FileTree) (path : Path) (result : Except Yaml.Fault Data) : Prop :=
  isYaml path = true ∧ ∃ chars, tree.read path = .ok chars.utf8Encode ∧
    Yaml.read (Text.unifyLineEnds chars) = result

theorem ReadsJson.of_text {text : String} (json : isYaml path = false)
    (found : tree.read path = .ok text.toUTF8) :
    ReadsJson tree path (Json.read (Text.ofChars (Text.unifyLineEnds text.toList))) :=
  ⟨json, text.toList, by rw [found, String.utf8Encode_toList, String.toUTF8_eq_toByteArray], rfl⟩

/-- The failures of loading a document that are not reported, each with what brings it about. -/
inductive IsUnreported (tree : FileTree) (path : Path) : Failure → Prop where
  | nullInPath (null : FileTree.HasNull path) : IsUnreported tree path (.file ⟨.nullInPath, path⟩)
  /-- Bytes that are no text. A file in YAML is read piece by piece, and what is said of its end is
  counted from there. -/
  | notText {bytes : ByteArray} {fault : Text.DecodeFault} (found : tree.read path = .ok bytes)
      (malformed : ¬ bytes.IsValidUTF8) (refused : Text.decodeChars bytes.toList = .error fault) :
      IsUnreported tree path (.bytes (if isYaml path then pieceFault fault else fault))
  /-- An integer that is too long to be read. -/
  | longInteger {count : Nat} (refused : ReadsJson tree path (.error (.tooManyDigits count))) :
      IsUnreported tree path (.meaningless (Json.tooManyDigitsMessage count))
  /-- A collection that contains itself. -/
  | endless (refused : ReadsYaml tree path (.error .endless)) : IsUnreported tree path .endless
  /-- A scalar that has the form of a value and none. -/
  | meaningless {words : String} (refused : ReadsYaml tree path (.error (.meaningless words))) :
      IsUnreported tree path (.meaningless words)
  | emptyScalar (refused : ReadsYaml tree path (.error .emptyScalar)) :
      IsUnreported tree path .emptyScalar
  | unusableKey {kind : String} (refused : ReadsYaml tree path (.error (.unusableKey kind))) :
      IsUnreported tree path (.unusableKey kind)
  /-- A line about the document would show an integer that is too long to be written. -/
  | longLine {data : Data} {fault : Fault}
      (held : ReadsJson tree path (.ok data) ∨ ReadsYaml tree path (.ok data))
      (wrong : fault ∈ faults data) (long : fault.isUnwritable data) :
      IsUnreported tree path (.meaningless Data.unwritableMessage)

/-! ## Reading the notations -/

/-- The failure of a document at a source with a fault in its JSON. -/
def jsonFailure (source : String) : Json.Fault → Failure
  | .tooManyDigits count => .meaningless (Json.tooManyDigitsMessage count)
  | fault => .document ⟨source, .malformedJson fault⟩

/-- The failure of a document at a source with a fault in its YAML. -/
def yamlFailure (source : String) : Yaml.Fault → Failure
  | .malformed => .document ⟨source, .malformedYaml⟩
  | .endless => .endless
  | .meaningless words => .meaningless words
  | .emptyScalar => .emptyScalar
  | .unusableKey kind => .unusableKey kind

theorem readJson_utf8Encode (source : String) (chars : List Char) :
    readJson source chars.utf8Encode.toList =
      (Json.read (Text.ofChars (Text.unifyLineEnds chars))).mapError (jsonFailure source) := by
  rw [readJson, Text.decodeChars_toList_eq_ok_iff.mpr rfl]
  dsimp only
  cases Json.read (Text.ofChars (Text.unifyLineEnds chars)) with
  | ok data => rfl
  | error fault => cases fault <;> rfl

theorem readYaml_utf8Encode (source : String) (chars : List Char) :
    readYaml source chars.utf8Encode.toList =
      (Yaml.read (Text.unifyLineEnds chars)).mapError (yamlFailure source) := by
  rw [readYaml, Text.decodeChars_toList_eq_ok_iff.mpr rfl]
  dsimp only
  cases Yaml.read (Text.unifyLineEnds chars) with
  | ok data => rfl
  | error fault => cases fault <;> rfl

/-- What is made of the data in a document. -/
def parseData (source : String) (data : Data) : Except Failure Protocol :=
  (parse source data).mapError (failureOf data)

theorem load_eq {bytes : ByteArray} (found : tree.read path = .ok bytes) :
    load tree path = (if isYaml path then readYaml path.toString bytes.toList
      else readJson path.toString bytes.toList) >>= parseData path.toString := by
  rw [load, found]
  dsimp only
  split <;> rfl

theorem ReadsJson.load_eq {result : Except Json.Fault Data} (reads : ReadsJson tree path result) :
    load tree path = result.mapError (jsonFailure path.toString) >>= parseData path.toString := by
  obtain ⟨json, chars, found, rfl⟩ := reads
  rw [Document.load_eq found, if_neg (by simp [json]), readJson_utf8Encode]

theorem ReadsYaml.load_eq {result : Except Yaml.Fault Data} (reads : ReadsYaml tree path result) :
    load tree path = result.mapError (yamlFailure path.toString) >>= parseData path.toString := by
  obtain ⟨yaml, chars, found, rfl⟩ := reads
  rw [Document.load_eq found, if_pos yaml, readYaml_utf8Encode]

theorem load_of_notText {bytes : ByteArray} {fault : Text.DecodeFault}
    (found : tree.read path = .ok bytes) (refused : Text.decodeChars bytes.toList = .error fault) :
    load tree path = .error (.bytes (if isYaml path then pieceFault fault else fault)) := by
  rw [load_eq found, readYaml, readJson, refused]
  split <;> rfl

/-- A file that is found holds no text, or is read in one of the notations. -/
theorem reads_of_read {bytes : ByteArray} (found : tree.read path = .ok bytes) :
    (∃ fault, ¬ bytes.IsValidUTF8 ∧ Text.decodeChars bytes.toList = .error fault) ∨
      (∃ result, ReadsJson tree path result) ∨ ∃ result, ReadsYaml tree path result := by
  cases decoded : Text.decodeChars bytes.toList with
  | error fault => exact .inl ⟨fault, Text.exists_decodeChars_eq_error_iff.mp ⟨fault, decoded⟩, rfl⟩
  | ok chars =>
    obtain rfl := Text.decodeChars_toList_eq_ok_iff.mp decoded
    cases yaml : isYaml path with
    | false => exact .inr (.inl ⟨_, yaml, chars, found, rfl⟩)
    | true => exact .inr (.inr ⟨_, yaml, chars, found, rfl⟩)

/-! ## Data of a wrong shape -/

theorem parse_error {data : Data} {refusal : DocumentRefusal}
    (refused : parse source data = .error refusal) :
    refusal.source = source := by
  unfold parse at refused
  split at refused
  · split at refused <;> cases refused
    rfl
  · cases refused
    rfl

theorem parseData_error {data : Data} (refused : parseData source data = .error failure) :
    (∃ problem, failure = .document ⟨source, problem⟩) ∨
      failure = .meaningless Data.unwritableMessage ∧
        ∃ fault ∈ faults data, fault.isUnwritable data := by
  unfold parseData at refused
  cases parsed : parse source data with
  | ok protocol =>
    rw [parsed] at refused
    cases refused
  | error refusal =>
    rw [parsed] at refused
    cases refused
    unfold failureOf
    split
    · next long => exact .inr ⟨rfl, List.any_eq_true.mp long⟩
    · exact .inl ⟨refusal.problem, by rw [← parse_error parsed]⟩

theorem parseData_of_longLine {data : Data} {fault : Fault} (wrong : fault ∈ faults data)
    (long : fault.isUnwritable data) :
    parseData source data = .error (.meaningless Data.unwritableMessage) := by
  have lines : faultLines data ≠ [] := by
    rw [faultLines, ne_eq, List.map_eq_nil_iff]
    exact List.ne_nil_of_mem wrong
  have any : (faults data).any (Fault.isUnwritable data) := List.any_eq_true.mpr ⟨fault, wrong, long⟩
  rw [parseData, parse_of_faults source lines]
  simp [Except.mapError, failureOf, any]

/-! ## Loading -/

theorem isUnreported_of_parseData {data : Data}
    (held : ReadsJson tree path (.ok data) ∨ ReadsYaml tree path (.ok data))
    (refused : parseData path.toString data = .error failure) :
    (∃ problem, failure = .document ⟨path.toString, problem⟩) ∨ IsUnreported tree path failure := by
  rcases parseData_error refused with reported | ⟨rfl, fault, wrong, long⟩
  · exact .inl reported
  · exact .inr (.longLine held wrong long)

/-- A document that is not loaded is refused in words or is one of the exceptions. -/
theorem load_error (failed : load tree path = .error failure) :
    (∃ problem, failure = .document ⟨path.toString, problem⟩) ∨ IsUnreported tree path failure := by
  cases found : tree.read path with
  | error fault =>
    rw [load, found] at failed
    dsimp only at failed
    split at failed
    · cases failed
      exact .inl ⟨_, rfl⟩
    · next notAsked =>
      cases failed
      obtain ⟨rfl, null⟩ := FileTree.hasNull_of_read_error found notAsked
      exact .inr (.nullInPath null)
  | ok bytes =>
    rcases reads_of_read found with ⟨fault, malformed, refused⟩ | ⟨result, reads⟩ | ⟨result, reads⟩
    · cases (load_of_notText found refused).symm.trans failed
      exact .inr (.notText found malformed refused)
    · rw [reads.load_eq] at failed
      cases result with
      | ok data => exact isUnreported_of_parseData (.inl reads) failed
      | error fault =>
        cases fault with
        | malformed =>
          cases failed
          exact .inl ⟨_, rfl⟩
        | tooManyDigits count =>
          cases failed
          exact .inr (.longInteger reads)
    · rw [reads.load_eq] at failed
      cases result with
      | ok data => exact isUnreported_of_parseData (.inr reads) failed
      | error fault =>
        cases fault with
        | malformed =>
          cases failed
          exact .inl ⟨_, rfl⟩
        | endless =>
          cases failed
          exact .inr (.endless reads)
        | meaningless words =>
          cases failed
          exact .inr (.meaningless reads)
        | emptyScalar =>
          cases failed
          exact .inr (.emptyScalar reads)
        | unusableKey kind =>
          cases failed
          exact .inr (.unusableKey reads)

/-- None of the exceptions is reported. -/
theorem IsUnreported.load_eq (unreported : IsUnreported tree path failure) :
    load tree path = .error failure ∧ failure.isReported = false := by
  refine ⟨?_, by cases unreported <;> rfl⟩
  cases unreported with
  | nullInPath null => rw [load, FileTree.read_eq_nullInPath_iff.mpr null]; rfl
  | notText found malformed refused => exact load_of_notText found refused
  | longInteger refused => exact refused.load_eq
  | endless refused | meaningless refused | emptyScalar refused | unusableKey refused =>
    exact refused.load_eq
  | longLine held wrong long =>
    rw [← parseData_of_longLine wrong long]
    exact held.elim ReadsJson.load_eq ReadsYaml.load_eq

theorem isUnreported_iff : IsUnreported tree path failure ↔
    load tree path = .error failure ∧ failure.isReported = false := by
  constructor
  · exact IsUnreported.load_eq
  · intro ⟨failed, silent⟩
    refine (load_error failed).resolve_left fun ⟨problem, same⟩ => ?_
    rw [same] at silent
    cases silent

theorem exists_problem_of_load (failed : load tree path = .error failure)
    (reported : failure.isReported) : ∃ problem, failure = .document ⟨path.toString, problem⟩ := by
  refine (load_error failed).resolve_right fun unreported => ?_
  exact absurd reported (by simp [unreported.load_eq.2])

end ProtocolGen.Document
