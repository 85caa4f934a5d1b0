import ProtocolGen.Document.Load
import ProtocolGen.Package.Plan
import ProtocolGen.Package.Staging

/-!
# Generating a package

The whole way from domains to files: types are classified, every module is rendered onto a stage,
and only when all are there the files are written, in the order of their first flushes. The domains may
also be those of documents that are loaded first. A stage can be compared with the files there are.
-/

set_option autoImplicit false

namespace ProtocolGen.Package

open ProtocolGen.Source

structure Outcome (α : Type) where
  events : List Log.Event
  result : Except Failure α

/-- Flushes planned modules in order, up to the first that fails. They are all collected in one
buffer, which each flush empties. The events of a failure are those of the stage reached. -/
def stagePlanned (formatter : Formatter) (buffer : Buffer) (stage : Stage) :
    List PlannedModule → Outcome Stage
  | [] => ⟨stage.events, .ok stage⟩
  | planned :: rest =>
    match planned.edits with
    | .error failure => ⟨stage.events, .error (.ofTypes failure)⟩
    | .ok edits =>
      match stage.flush formatter (buffer.applyAll edits) planned.path with
      | .error fault => ⟨stage.events, .error (.formatter fault)⟩
      | .ok (buffer, stage, _) => stagePlanned formatter buffer stage rest

def runLogger : String := "cdpgen.generate"

def runFields (settings : Settings) (domains : List Domain) (types : Nat) :
    List (String × Log.Value) :=
  [("package", .text settings.package), ("domains", .number domains.length),
    ("types", .number types)]

def stage (formatter : Formatter) (settings : Settings) (domains : List Domain) :
    Outcome (Types.TypeIndex × Stage) :=
  match Types.classify domains with
  | .error refusal => ⟨[], .error (.types refusal)⟩
  | .ok index =>
    let fields := runFields settings domains index.types.length
    let generating : Log.Event :=
      ⟨runLogger, .info, "generating",
        fields ++ [("dest", .text settings.destination.toString)]⟩
    let staged :=
      stagePlanned formatter (Buffer.new settings.runtimeModule) Stage.empty
        (plan index settings domains)
    ⟨generating :: staged.events, staged.result.map fun stage => (index, stage)⟩

def generatedEvent (settings : Settings) (domains : List Domain) (types : Nat) (files : Nat) :
    Log.Event :=
  ⟨runLogger, .info, "generated",
    runFields settings domains types ++ [("files", .number files)]⟩

/-- What takes the files of a package: how one more file is written, given what is written so far. A
write that fails may still leave something behind. -/
structure Persister (State : Type) where
  write : State → Path → ByteArray → State × Option FileFault

def Persister.fileTree : Persister FileTree := ⟨FileTree.persist⟩

def Persister.memory : Persister (List (Path × ByteArray)) :=
  ⟨fun files path bytes => (putFile path bytes files, none)⟩

/-- Writes files in order, up to the first that cannot be written. -/
def persistAll {State : Type} (persister : Persister State) (state : State) :
    List (Path × ByteArray) → State × Option FileFault
  | [] => (state, none)
  | (path, bytes) :: files =>
    match persister.write state path bytes with
    | (state, none) => persistAll persister state files
    | stopped => stopped

/-- Generates a package and hands its files to a persister. The state is what the run leaves, however
it ends. -/
def generate {State : Type} (formatter : Formatter) (persister : Persister State)
    (settings : Settings) (domains : List Domain) (state : State) : State × Outcome Stage :=
  let staged := stage formatter settings domains
  match staged.result with
  | .error failure => (state, ⟨staged.events, .error failure⟩)
  | .ok (index, reached) =>
    match persistAll persister state reached.writes with
    | (state, some fault) => (state, ⟨staged.events, .error (.file fault)⟩)
    | (state, none) =>
      (state,
        ⟨staged.events ++
            [generatedEvent settings domains index.types.length reached.written.length],
          .ok reached⟩)

/-- Generates a package from the domains of the documents at some paths. A document that cannot be
loaded ends the run before anything is written. -/
def generateFrom {State : Type} (formatter : Formatter) (persister : Persister State)
    (settings : Settings) (tree : FileTree) (documents : List Path) (state : State) :
    State × Outcome Stage :=
  match Document.loadDomains tree documents with
  | .error failure => (state, ⟨[], .error failure⟩)
  | .ok domains => generate formatter persister settings domains state

/-- Generates a package in memory: the stage, with the reports of a whole run. -/
def generateStage (formatter : Formatter) (settings : Settings) (domains : List Domain) :
    Outcome Stage :=
  (generate formatter .memory settings domains []).2

/-- Whether the file at a path holds a text. Where no file stands there is none that holds it, but a
path that is too long says nothing about what stands there. -/
def isCurrent (tree : FileTree) (path : Path) (text : String) : Except FileFault Bool :=
  match tree.read path with
  | .ok bytes => .ok (bytes == text.toUTF8)
  | .error fault => if fault.kind = .nameTooLong then .error fault else .ok false

/-- The paths of files in a tree that do not hold the given texts. -/
def stalePaths (tree : FileTree) : List (Path × String) → Except FileFault (List Path)
  | [] => .ok []
  | (path, text) :: files => do
    let current ← isCurrent tree path text
    let stale ← stalePaths tree files
    pure (if current then stale else path :: stale)

/-- The paths of a stage whose files in a tree do not hold the staged texts. -/
def staleFiles (tree : FileTree) (stage : Stage) : Except FileFault (List Path) :=
  stalePaths tree stage.files

end ProtocolGen.Package
