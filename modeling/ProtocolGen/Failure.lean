import ProtocolGen.Data
import ProtocolGen.FileTree
import ProtocolGen.Json.Reader
import ProtocolGen.Settings
import ProtocolGen.Source.Formatter
import ProtocolGen.Text.Utf8
import ProtocolGen.Types.Reference

/-!
# Failures of a run

Everything that can end a run early. Some failures are the input's and are reported to the user in
words: a document that is refused, types that do not fit together, settings that are not right. The
others end the run without a report.
-/

set_option autoImplicit false

namespace ProtocolGen

inductive DocumentProblem where
  | unreadable (words : String)
  | malformedJson (fault : Json.Fault)
  | malformedYaml
  /-- The lines say what is wrong with the document's shape. -/
  | misshapen (lines : List String)
  /-- The lines say which parts have no decoding. -/
  | undecodable (lines : List String)
  /-- Several domains have one of these names. -/
  | duplicateDomains (names : List String)
  | other (words : String) (lines : List String)
  deriving DecidableEq, Repr

structure DocumentRefusal where
  source : String
  problem : DocumentProblem
  deriving DecidableEq, Repr

namespace DocumentProblem

def words : DocumentProblem → String
  | .unreadable words => "cannot read document: " ++ words
  | .malformedJson fault => "invalid document: " ++ fault.message
  | .malformedYaml => "invalid document"
  | .misshapen _ => "document does not match the protocol schema"
  | .undecodable _ => "document could not be decoded"
  | .duplicateDomains _ => "duplicate domain definitions"
  | .other words _ => words

def details : DocumentProblem → List String
  | .misshapen lines | .undecodable lines | .duplicateDomains lines | .other _ lines => lines
  | _ => []

end DocumentProblem

/-- The wording of a refused document: one line, and one more for each detail. -/
def DocumentRefusal.message (refusal : DocumentRefusal) : String :=
  let head := refusal.source ++ ": " ++ refusal.problem.words
  "\n".intercalate (head :: refusal.problem.details.map fun detail => "  - " ++ detail)

inductive SettingsProblem where
  | unreadable (path : Path) (words : String)
  | malformed (path : Path)
  | notATable (path : Path)
  | unknownKeys (path : Path) (keys : List String)
  | setting (fault : SettingFault)
  deriving DecidableEq, Repr

def SettingsProblem.message : SettingsProblem → String
  | .unreadable path words => path.toString ++ ": " ++ words
  | .malformed path => path.toString
  | .notATable path => path.toString ++ ": [tool.cdpgen] must be a table"
  | .unknownKeys path keys =>
    path.toString ++ ": unknown [tool.cdpgen] keys: " ++ ", ".intercalate keys
  | .setting fault => fault.message

inductive Failure where
  | document (refusal : DocumentRefusal)
  | types (refusal : Types.Refusal)
  | settings (problem : SettingsProblem)
  /-- A type or a document contains itself. -/
  | endless
  /-- Bytes that are not in the expected encoding. -/
  | bytes (fault : Text.DecodeFault)
  /-- A value that has the right form and no meaning, in words. -/
  | meaningless (words : String)
  /-- A scalar without the first character that its kind asks for. -/
  | emptyScalar
  /-- A key holds a value of the named kind. -/
  | unusableKey (kind : String)
  /-- A value of the named kind stands where the settings' tables are looked up. -/
  | noTables (kind : String)
  | formatter (fault : Source.FormatFault)
  | file (fault : FileFault)
  deriving DecidableEq, Repr

namespace Failure

/-- Whether a failure is the input's and is reported in words. -/
def isReported : Failure → Bool
  | .document _ | .types _ | .settings _ => true
  | _ => false

def message : Failure → String
  | .document refusal => refusal.message
  | .types refusal => refusal.message
  | .settings problem => problem.message
  | .endless => "maximum recursion depth exceeded"
  | .bytes fault => fault.message
  | .meaningless words => words
  | .emptyScalar => "string index out of range"
  | .unusableKey kind => "unhashable type: '" ++ kind ++ "'"
  | .noTables kind => "'" ++ kind ++ "' object has no attribute 'get'"
  | .formatter fault => fault.message
  | .file fault => fault.message

def ofTypes : Types.Failure → Failure
  | .refused refusal => .types refusal
  | .endless => .endless

end Failure

end ProtocolGen
