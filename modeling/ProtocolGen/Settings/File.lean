import ProtocolGen.Data.Unwritable
import ProtocolGen.Failure
import ProtocolGen.Text.Sorted
import ProtocolGen.Toml.Reader

/-!
# Settings files

A settings file is TOML with the settings in the table `tool.cdpgen`. The file need not have the
table. A destination in it is taken from the directory of the file, and its values may be of any
kind until the draft is checked.
-/

set_option autoImplicit false

namespace ProtocolGen.Settings

def outerTable : String := "tool"

def innerTable : String := "cdpgen"

def readContent (path : Path) (bytes : List UInt8) : Except Failure Data :=
  match Text.decodeChars bytes with
  | .error fault => .error (.bytes fault)
  | .ok chars =>
    match Toml.read chars with
    | .ok content => .ok content
    | .error .malformed => .error (.settings (.malformed path))
    | .error (.tooManyDigits count) => .error (.meaningless (Json.tooManyDigitsMessage count))

/-- The entries of the settings' table in a content, none when it is missing. -/
def tableEntries (path : Path) (content : Data) : Except Failure (List (Text × Data)) :=
  match content.member? outerTable with
  | none => .ok []
  | some (.table tools) =>
    match Data.lookupEntry (Text.ofString innerTable) tools with
    | none => .ok []
    | some (.table entries) => .ok entries
    | some _ => .error (.settings (.notATable path))
  | some other => .error (.noTables other.kindName)

def unknownNames (entries : List (Text × Data)) : List String :=
  let names := entries.map fun (key, _) => (Text.toString? key).getD ""
  Text.sortedSet (names.filter fun name => !settingNames.contains name)

/-- The replacements that entries of the settings' table are. -/
def tableOverrides (path : Path) (entries : List (Text × Data)) : Overrides :=
  let value? (name : String) : Option Data := Data.lookupEntry (Text.ofString name) entries
  { package := value? "package"
    destination := (value? "dest").map fun value =>
      path.parent.join ((Text.toString? value.plain).getD "")
    runtimeModule := value? "runtime_module"
    typesPackage := value? "types_package" }

/-- Whether a destination would be the text of an integer that is not written. -/
def hasUnwritableDestination (entries : List (Text × Data)) : Bool :=
  (Data.lookupEntry (Text.ofString "dest") entries).any Data.isUnwritable

def draftOf (path : Path) (bytes : List UInt8) : Except Failure Draft := do
  let content ← readContent path bytes
  let entries ← tableEntries path content
  match unknownNames entries with
  | [] =>
    if hasUnwritableDestination entries then .error (.meaningless Data.unwritableMessage)
    else .ok (Draft.default.merge (tableOverrides path entries))
  | names => .error (.settings (.unknownKeys path names))

/-- The value of a draft's name. -/
def draftedName (draft : Draft) (setting : String) : Data :=
  if setting = "package" then draft.package
  else if setting = "types_package" then draft.typesPackage
  else draft.runtimeModule

/-- The failure of a draft with a name that is not right. The complaint shows the name. -/
def failureOf (draft : Draft) (fault : SettingFault) : Failure :=
  if (draftedName draft fault.setting).isUnwritable then .meaningless Data.unwritableMessage
  else .settings (.setting fault)

def loadDraft (tree : FileTree) : Option Path → Except Failure Draft
  | none => .ok Draft.default
  | some path =>
    match tree.read path with
    | .error fault =>
      if fault.kind.isSystems then .error (.settings (.unreadable path fault.kind.words))
      else .error (.file fault)
    | .ok bytes => draftOf path bytes.toList

end ProtocolGen.Settings
