import ProtocolGen.CommandLine.Request
import ProtocolGen.Document.Load
import ProtocolGen.Log.Console
import ProtocolGen.Log.Json
import ProtocolGen.Package.Generate
import ProtocolGen.Settings.File

/-!
# Runs of the tool

A run takes the arguments of a command line and a file tree to a report and the tree it leaves. With
the check flag the tree stays as it is, and the files that a run would change are reported instead.
Failures that are the input's are reported in words and end the run with status one.
-/

set_option autoImplicit false

namespace ProtocolGen.CommandLine

structure Report where
  /-- The status the run ends with, or the failure that ends it without a report. -/
  ending : Except Failure Nat
  reporting : Log.Reporting
  events : List Log.Event
  output : String
  /-- What is said on the error output after the events. -/
  complaint : String

namespace Report

def saying (output : String) : Report := ⟨.ok 0, ⟨false, false⟩, [], output, ""⟩

def complaintHead : String := toolName ++ ": error: "

def refusing (complaint : Complaint) : Report :=
  ⟨.ok 2, ⟨false, false⟩, [], "", usageText ++ complaintHead ++ complaint.message ++ "\n"⟩

def failing (reporting : Log.Reporting) (events : List Log.Event) (failure : Failure) : Report :=
  if failure.isReported then ⟨.ok 1, reporting, events, "", complaintHead ++ failure.message ++ "\n"⟩
  else ⟨.error failure, reporting, events, "", ""⟩

def admitted (report : Report) : List Log.Event := report.events.filter report.reporting.admits

def eventLine (reporting : Log.Reporting) (time : String) (event : Log.Event) : String :=
  if reporting.json then event.jsonLine time else event.consoleLine time

def errorOutput (time : String) (report : Report) : String :=
  String.join (report.admitted.map fun event => eventLine report.reporting time event ++ "\n") ++
    report.complaint

end Report

def Request.reporting (request : Request) : Log.Reporting := ⟨request.verbose, request.jsonLog⟩

def prepare (tree : FileTree) (request : Request) : Except Failure (Settings × List Domain) := do
  let draft ← Settings.loadDraft tree request.settingsFile
  let drafted := draft.merge request.overrides
  let settings ← drafted.validate.mapError (Settings.failureOf drafted)
  let domains ← Document.loadDomains tree request.documents
  pure (settings, domains)

/-- The first line about files that are not as a run would leave them. -/
def staleHead : String := "[" ++ toolName ++ "] out of date:\n"

def check (tree : FileTree) (reporting : Log.Reporting) (settings : Settings)
    (domains : List Domain) : Report :=
  let staged := Package.generateStage Source.format settings domains
  match staged.result with
  | .error failure => .failing reporting staged.events failure
  | .ok stage =>
    match Package.staleFiles tree stage with
    | .error fault => .failing reporting staged.events (.file fault)
    | .ok [] => ⟨.ok 0, reporting, staged.events, "", ""⟩
    | .ok stale =>
      let lines := stale.map fun path => "  " ++ path.toString ++ "\n"
      ⟨.ok 1, reporting, staged.events, "", staleHead ++ String.join lines⟩

def doneEvent (written : List Path) : Log.Event :=
  ⟨toolName ++ ".cli", .debug, "done", [("files", .texts (written.map Path.toString))]⟩

def summary (settings : Settings) (written : List Path) : String :=
  "[" ++ toolName ++ "] wrote " ++ toString written.length ++ " files to " ++
    settings.packageDirectory.toString ++ "\n"

def write (tree : FileTree) (reporting : Log.Reporting) (settings : Settings)
    (domains : List Domain) : FileTree × Report :=
  let (tree, outcome) := Package.generate Source.format .fileTree settings domains tree
  match outcome.result with
  | .error failure => (tree, .failing reporting outcome.events failure)
  | .ok stage =>
    (tree,
      ⟨.ok 0, reporting, outcome.events ++ [doneEvent stage.written],
        summary settings stage.written, ""⟩)

def runRequest (tree : FileTree) (request : Request) : FileTree × Report :=
  match prepare tree request with
  | .error failure => (tree, .failing request.reporting [] failure)
  | .ok (settings, domains) =>
    if request.check then (tree, check tree request.reporting settings domains)
    else write tree request.reporting settings domains

def run (tree : FileTree) (texts : List String) : FileTree × Report :=
  match demand texts with
  | .error complaint => (tree, .refusing complaint)
  | .ok .help => (tree, .saying helpText)
  | .ok .version => (tree, .saying versionText)
  | .ok (.run request) => runRequest tree request

/-- The files that a run with the texts of a command line reads first. -/
def inputPaths (texts : List String) : List Path :=
  match demand texts with
  | .ok (.run request) => request.settingsFile.toList ++ request.documents
  | _ => []

/-- The files that a run with the texts of a command line writes or compares. -/
def outputPaths (tree : FileTree) (texts : List String) : List Path :=
  match demand texts with
  | .ok (.run request) =>
    match prepare tree request with
    | .ok (settings, domains) =>
      match (Package.generateStage Source.format settings domains).result with
      | .ok stage => stage.files.map (·.1)
      | .error _ => []
    | .error _ => []
  | _ => []

end ProtocolGen.CommandLine
