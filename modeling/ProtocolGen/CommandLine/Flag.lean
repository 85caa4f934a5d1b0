/-!
# Flags of the command line

The flags that the tool knows, the spellings they are found under, and the texts that describe them
to a user.
-/

set_option autoImplicit false

namespace ProtocolGen.CommandLine

inductive Flag where
  | help
  | document
  | destination
  | package
  | runtimeModule
  | settingsFile
  | check
  | verbose
  | jsonLog
  | version
  deriving DecidableEq, Repr

/-- The spellings of all flags, in the order in which they are listed. -/
def spellings : List (String × Flag) := [
  ("-h", .help), ("--help", .help), ("--proto", .document), ("--dest", .destination),
  ("--package", .package), ("--runtime-module", .runtimeModule), ("--config", .settingsFile),
  ("--check", .check), ("--verbose", .verbose), ("--log-json", .jsonLog), ("--version", .version)]

def Flag.spelled? (spelling : String) : Option Flag :=
  (spellings.find? fun entry => entry.1 == spelling).map (·.2)

def Flag.takesValue : Flag → Bool
  | .document | .destination | .package | .runtimeModule | .settingsFile => true
  | .help | .check | .verbose | .jsonLog | .version => false

def Flag.shown (flag : Flag) : String :=
  "/".intercalate ((spellings.filter fun entry => entry.2 == flag).map (·.1))

def toolName : String := "cdpgen"

def versionText : String := toolName ++ " 0.1.0\n"

def usageText : String :=
  "usage: cdpgen [-h] --proto PATH [--dest DEST] [--package PACKAGE]\n" ++
  "              [--runtime-module RUNTIME_MODULE] [--config TOML] [--check]\n" ++
  "              [--verbose] [--log-json] [--version]\n"

def helpText : String :=
  usageText ++ "\n" ++
  "Generate a typed Python client package from protocol schema documents.\n" ++
  "\n" ++
  "options:\n" ++
  "  -h, --help            show this help message and exit\n" ++
  "  --proto PATH          Protocol document (JSON or YAML). Repeat to merge\n" ++
  "                        several documents.\n" ++
  "  --dest DEST           Directory the package is written into (default: .)\n" ++
  "  --package PACKAGE     Name of the generated package (default: cdp)\n" ++
  "  --runtime-module RUNTIME_MODULE\n" ++
  "                        Module the generated code imports its runtime from\n" ++
  "                        (default: cdpgen.runtime)\n" ++
  "  --config TOML         TOML file with a [tool.cdpgen] table\n" ++
  "  --check               Do not write; exit 1 if files on disk are out of date\n" ++
  "  --verbose             Enable debug logging\n" ++
  "  --log-json            Emit logs as JSON lines\n" ++
  "  --version             show program's version number and exit\n"

end ProtocolGen.CommandLine
