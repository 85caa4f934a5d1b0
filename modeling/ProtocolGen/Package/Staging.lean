import ProtocolGen.Failure
import ProtocolGen.Log.Event
import ProtocolGen.Source.Buffer

/-!
# Staged modules

Modules are rendered into a stage before any of them is written out. Flushing a buffer formats its
text, keeps it under a path and empties the buffer; a text that the formatter rejects is kept as it
is. A buffer without a declaration is emptied and nothing is kept. A path that is flushed again keeps
its place and gets the new text.
-/

set_option autoImplicit false

namespace ProtocolGen.Package

open ProtocolGen.Source

/-- The texts kept so far, with the order of the flushes and what was reported about them. -/
structure Stage where
  files : List (Path × String)
  /-- The paths of all flushes that kept something. -/
  written : List Path
  events : List Log.Event
  deriving DecidableEq, Repr

def Stage.empty : Stage := ⟨[], [], []⟩

def Stage.writes (stage : Stage) : List (Path × ByteArray) :=
  stage.files.map fun (path, text) => (path, text.toUTF8)

def writerLogger : String := "cdpgen.writer"

def putFile {Content : Type} (path : Path) (content : Content) :
    List (Path × Content) → List (Path × Content)
  | [] => [(path, content)]
  | known :: files =>
    if known.1 = path then (path, content) :: files else known :: putFile path content files

def pathField (path : Path) : String × Log.Value := ("path", .text path.toString)

def skippingEvent (path : Path) : Log.Event :=
  ⟨writerLogger, .info, "skipping", [pathField path, ("reason", .text "no declarations")]⟩

def writingEvent (path : Path) : Log.Event := ⟨writerLogger, .info, "writing", [pathField path]⟩

def unformattedEvent (path : Path) (reason : String) : Log.Event :=
  ⟨writerLogger, .warning, "format failed, writing unformatted source",
    [pathField path, ("error", .text reason)]⟩

def Stage.keep (stage : Stage) (path : Path) (text : String) (events : List Log.Event) : Stage :=
  ⟨putFile path text stage.files, stage.written ++ [path],
    stage.events ++ events ++ [writingEvent path]⟩

/-- Flushes a buffer: the emptied buffer, the stage, and whether a text was kept. -/
def Stage.flush (stage : Stage) (formatter : Formatter) (buffer : Buffer) (path : Path) :
    Except FormatFault (Buffer × Stage × Bool) :=
  if !buffer.hasContent then
    .ok (buffer.clear, { stage with events := stage.events ++ [skippingEvent path] }, false)
  else
    let text := buffer.render
    match formatter text with
    | .ok formatted => .ok (buffer.clear, stage.keep path formatted [], true)
    | .error (.rejected reason) =>
      .ok (buffer.clear, stage.keep path text [unformattedEvent path reason], true)
    | .error fault => .error fault

end ProtocolGen.Package
