import ProtocolGen.Emission.ClientModule
import ProtocolGen.Emission.EventsModule
import ProtocolGen.Emission.TypesModule
import ProtocolGen.Settings

/-!
# The plan of a package

The modules of a generated package in the order they are rendered, each with its path and its code.
The code of a module may fail to exist when a type in it has no end.
-/

set_option autoImplicit false

namespace ProtocolGen.Package

open ProtocolGen.Source ProtocolGen.Emission ProtocolGen.Types

structure PlannedModule where
  path : Path
  edits : Except Types.Failure (List Edit)

def packageEdits : List Edit :=
  [.header (some "Generated protocol client."), .declare, .require ".client" ["Client"], .blank 2,
    .line "__all__ = [\"Client\"]" 0]

/-- The code of the types package's own module, which names the modules in it. -/
def typesPackageEdits (modules : List String) : List Edit :=
  if modules.isEmpty then []
  else
    [.header (some "Protocol types, one module per domain."), .declare, .blank 2,
        .line "__all__ = [" 0] ++
      (modules.map fun module => .line ("\"" ++ module ++ "\",") 1) ++ [.line "]" 0]

def packageModule : String := "__init__"

def moduleFile (directory : Path) (module : String) : Path := directory.join (module ++ ".py")

def typedDomains (domains : List Domain) : List Domain :=
  domains.filter fun domain => !domain.types.isEmpty

/-- The package of the types modules, as seen from the modules beside it. -/
def typesPackageName (settings : Settings) : String := "." ++ settings.typesPackage

def typesModule (index : TypeIndex) (settings : Settings) (domain : Domain) : PlannedModule :=
  ⟨moduleFile settings.typesDirectory (Naming.moduleName domain.name),
    typesEdits index settings.runtimeModule domain⟩

/-- The modules before the types modules: the package's own and the clients. -/
def leadingModules (index : TypeIndex) (settings : Settings) (domains : List Domain) :
    List PlannedModule :=
  let package := settings.packageDirectory
  [⟨moduleFile package packageModule, .ok packageEdits⟩,
    ⟨moduleFile package "client",
      clientEdits index settings.runtimeModule (typesPackageName settings) domains⟩]

/-- The modules after the types modules: the one that names them, the commands and the events. -/
def closingModules (index : TypeIndex) (settings : Settings) (domains : List Domain) :
    List PlannedModule :=
  let package := settings.packageDirectory
  let typesModules := (typedDomains domains).map fun domain => Naming.moduleName domain.name
  [⟨moduleFile settings.typesDirectory packageModule, .ok (typesPackageEdits typesModules)⟩,
    ⟨moduleFile package "commands", commandsEdits index (typesPackageName settings) domains⟩,
    ⟨moduleFile package "events", eventsEdits index (typesPackageName settings) domains⟩]

def plan (index : TypeIndex) (settings : Settings) (domains : List Domain) : List PlannedModule :=
  leadingModules index settings domains ++ domains.map (typesModule index settings) ++
    closingModules index settings domains

end ProtocolGen.Package
