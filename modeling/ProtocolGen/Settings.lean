import ProtocolGen.Data
import ProtocolGen.Path
import ProtocolGen.Text.Identifier

/-!
# Settings

What a run generates and where: the name of the package, the directory it goes into, the module that
generated code takes its runtime from, and the package of the types modules. Settings are drafted
from defaults, a settings file and the command line, in any kind of value; a draft becomes settings
when its names are identifiers, or dotted identifiers for the runtime module.
-/

set_option autoImplicit false

namespace ProtocolGen

structure Settings where
  package : String
  destination : Path
  runtimeModule : String
  typesPackage : String
  deriving DecidableEq, Repr

namespace Settings

def default : Settings := ⟨"cdp", Path.here, "cdpgen.runtime", "protocol"⟩

def packageDirectory (settings : Settings) : Path := settings.destination.join settings.package

def typesDirectory (settings : Settings) : Path :=
  settings.packageDirectory.join settings.typesPackage

end Settings

/-- Settings whose names are not checked and may be of any kind. -/
structure Draft where
  package : Data
  destination : Path
  runtimeModule : Data
  typesPackage : Data
  deriving Inhabited

structure Overrides where
  package : Option Data
  destination : Option Path
  runtimeModule : Option Data
  typesPackage : Option Data
  deriving Inhabited

inductive OverrideFault where
  /-- No setting has the name. -/
  | unknown (name : String)
  /-- A value of the named kind is no path. -/
  | notAPath (kind : String)
  deriving DecidableEq, Repr

def OverrideFault.message : OverrideFault → String
  | .unknown name => 
    "GeneratorConfig.__init__() got an unexpected keyword argument '" ++ name ++ "'"
  | .notAPath kind => "expected str, bytes or os.PathLike object, not " ++ kind

def settingNames : List String := ["package", "dest", "runtime_module", "types_package"]

namespace Overrides

def none : Overrides := ⟨.none, .none, .none, .none⟩

def path? : Option Data → Except OverrideFault (Option Path)
  | .none => .ok .none
  | some (.text text) => .ok (some (Path.ofString ((Text.toString? text).getD "")))
  | some other => .error (.notAPath other.kindName)

/-- Replacements by name. A null replaces nothing. A destination that is no path is noticed before
an unknown name. -/
def ofNamed (named : List (String × Data)) : Except OverrideFault Overrides := do
  let given := named.filter fun (_, value) => !value.isNull
  let value? (name : String) : Option Data := (given.find? fun entry => entry.1 == name).map (·.2)
  let destination ← path? (value? "dest")
  match given.find? fun (name, _) => !settingNames.contains name with
  | some (name, _) => .error (.unknown name)
  | .none =>
    pure ⟨value? "package", destination, value? "runtime_module", value? "types_package"⟩

end Overrides

/-- Why a draft does not become settings: the name of the setting, the kind of text that it must be,
and its value as messages show it. -/
structure SettingFault where
  setting : String
  dotted : Bool
  shown : String
  deriving DecidableEq, Repr

def SettingFault.message (fault : SettingFault) : String :=
  fault.setting ++ " must be a Python " ++ (if fault.dotted then "module path" else "identifier") ++
    ", got " ++ fault.shown

namespace Draft

def ofSettings (settings : Settings) : Draft :=
  ⟨.text (Text.ofString settings.package), settings.destination,
    .text (Text.ofString settings.runtimeModule), .text (Text.ofString settings.typesPackage)⟩

def default : Draft := ofSettings Settings.default

def merge (draft : Draft) (overrides : Overrides) : Draft where
  package := overrides.package.getD draft.package
  destination := overrides.destination.getD draft.destination
  runtimeModule := overrides.runtimeModule.getD draft.runtimeModule
  typesPackage := overrides.typesPackage.getD draft.typesPackage

def identifier (setting : String) (value : Data) : Except SettingFault String :=
  match value with
  | .text text =>
    match Text.toString? text with
    | some string =>
      if Text.isIdentifier string.toList then .ok string
      else .error ⟨setting, false, value.shown⟩
    | none => .error ⟨setting, false, value.shown⟩
  | _ => .error ⟨setting, false, value.shown⟩

def modulePath (setting : String) (value : Data) : Except SettingFault String :=
  match value with
  | .text text =>
    match Text.toString? text with
    | some string =>
      if (Text.splitOn ['.'] string.toList).all Text.isIdentifier then .ok string
      else .error ⟨setting, true, value.shown⟩
    | none => .error ⟨setting, true, value.shown⟩
  | _ => .error ⟨setting, true, value.shown⟩

/-- The settings that a draft is, if all its names are right. -/
def validate (draft : Draft) : Except SettingFault Settings := do
  let package ← identifier "package" draft.package
  let typesPackage ← identifier "types_package" draft.typesPackage
  let runtimeModule ← modulePath "runtime_module" draft.runtimeModule
  pure ⟨package, draft.destination, runtimeModule, typesPackage⟩

end Draft

end ProtocolGen
