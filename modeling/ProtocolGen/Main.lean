import ProtocolGen.CommandLine.Run

/-!
# The command-line tool

The program takes a picture of the files that a run may touch, lets the run work on the picture, and
then carries out what the run has changed in it.
-/

set_option autoImplicit false

namespace ProtocolGen

def locationText (location : List String) : String := "/" ++ "/".intercalate location

def entryOnDisk? (location : List String) : IO (Option FileEntry) := do
  try
    return some (.file (← IO.FS.readBinFile (locationText location)))
  catch
    | .inappropriateType .. => return some .directory
    | .noFileOrDirectory .. | .invalidArgument .. => return none
    | fault => throw fault

/-- A tree with what stands on the disk along the names of a path, from a location on. -/
def pictureFrom (tree : FileTree) (location : List String) : List String → IO FileTree
  | [] => return tree
  | ".." :: names => pictureFrom tree location.dropLast names
  | name :: names => do
    let next := location ++ [name]
    match ← entryOnDisk? next with
    | none => return tree
    | some entry =>
      let known := (tree.at? next).isSome
      pictureFrom (if known then tree else tree.put next entry) next names

def picture (tree : FileTree) (paths : List Path) : IO FileTree :=
  paths.foldlM
    (fun tree path =>
      pictureFrom tree (if path.root.isEmpty then tree.working else []) path.parts)
    tree

def isKept (tree : FileTree) (location : List String) (entry : FileEntry) : Bool :=
  match tree.at? location, entry with
  | some (.file old), .file bytes => old == bytes
  | some .directory, .directory => true
  | _, _ => false

def carryOut (before after : FileTree) : IO Unit :=
  after.entries.forM fun (location, entry) => do
    if !isKept before location entry then
      match entry with
      | .directory => IO.FS.createDir (locationText location)
      | .file bytes => IO.FS.writeBinFile (locationText location) bytes

def runTool (texts : List String) : IO UInt32 := do
  let working := (Path.ofString (toString (← IO.currentDir))).parts
  let start ← picture (FileTree.new working) (CommandLine.inputPaths texts)
  let before ← picture start (CommandLine.outputPaths start texts)
  let (after, report) := CommandLine.run before texts
  carryOut before after
  IO.eprint (report.errorOutput (toString (← IO.monoMsNow)))
  IO.print report.output
  match report.ending with
  | .ok status => return status.toUInt32
  | .error failure =>
    IO.eprintln failure.message
    return 1

end ProtocolGen

def main (texts : List String) : IO UInt32 := ProtocolGen.runTool texts
