import ProtocolGen.Path
import ProtocolGen.Text.Literal

/-!
# File trees

Files and directories as a value. A location is a list of names from the root down; the root, the
working directory and all directories above it are always there. Paths are resolved step by step: a
step must be taken in a directory, two dots lead to the directory above, and above the root is the
root. Names and paths have the lengths that a file system allows.
-/

set_option autoImplicit false

namespace ProtocolGen

inductive FileEntry where
  | file (bytes : ByteArray)
  | directory
  deriving Inhabited

/-- A working directory, and the entries that stand beside it and above or below it. -/
structure FileTree where
  /-- The location that relative paths start from. -/
  working : List String
  entries : List (List String × FileEntry)
  deriving Inhabited

inductive FileFaultKind where
  | notFound
  | exists
  | notADirectory
  | isADirectory
  /-- A name or a whole path has more octets than the system allows. -/
  | nameTooLong
  /-- A path has a null character, which the system takes for its end. -/
  | nullInPath
  deriving DecidableEq, Repr

structure FileFault where
  kind : FileFaultKind
  path : Path
  deriving DecidableEq, Repr

namespace FileFaultKind

def number : FileFaultKind → Nat
  | .notFound => 2
  | .exists => 17
  | .notADirectory => 20
  | .isADirectory => 21
  | .nullInPath => 22
  | .nameTooLong => 36

def words : FileFaultKind → String
  | .notFound => "No such file or directory"
  | .exists => "File exists"
  | .notADirectory => "Not a directory"
  | .isADirectory => "Is a directory"
  | .nullInPath => "embedded null byte"
  | .nameTooLong => "File name too long"

/-- Whether the system is asked and says no, so that the words are its own. -/
def isSystems (kind : FileFaultKind) : Bool := kind != .nullInPath

end FileFaultKind

def FileFault.message (fault : FileFault) : String :=
  if fault.kind.isSystems then
    "[Errno " ++ toString fault.kind.number ++ "] " ++ fault.kind.words ++ ": " ++
      Text.literalOf fault.path.toString
  else fault.kind.words

/-- The size that a listing gives for an entry: a file's, and none for a directory. -/
def FileEntry.size? : FileEntry → Option Nat
  | .file bytes => some bytes.size
  | .directory => none

namespace FileTree

def longestName : Nat := 255

def longestPath : Nat := 4095

def new (working : List String) : FileTree := ⟨working, []⟩

def at? (tree : FileTree) (location : List String) : Option FileEntry :=
  if location.isPrefixOf tree.working then some .directory
  else (tree.entries.find? fun entry => entry.1 == location).map (·.2)

def step (tree : FileTree) (location : List String) (name : String) :
    Except FileFaultKind (List String) :=
  match tree.at? location with
  | none => .error .notFound
  | some (.file _) => .error .notADirectory
  | some .directory =>
    if name == ".." then .ok location.dropLast
    else if longestName < name.utf8ByteSize then .error .nameTooLong
    else .ok (location ++ [name])

/-- Where a path leads. Nothing need stand at the location that the last step leads to. -/
def resolve (tree : FileTree) (path : Path) : Except FileFaultKind (List String) :=
  if path.parts.any fun name => name.toList.contains '\x00' then .error .nullInPath
  else if longestPath < path.toString.utf8ByteSize then .error .nameTooLong
  else path.parts.foldlM (step tree) (if path.root.isEmpty then tree.working else [])

def find? (tree : FileTree) (path : Path) : Except FileFaultKind (Option FileEntry) :=
  (tree.resolve path).map tree.at?

def read (tree : FileTree) (path : Path) : Except FileFault ByteArray :=
  match tree.find? path with
  | .error kind => .error ⟨kind, path⟩
  | .ok none => .error ⟨.notFound, path⟩
  | .ok (some .directory) => .error ⟨.isADirectory, path⟩
  | .ok (some (.file bytes)) => .ok bytes

def isDirectory (tree : FileTree) (path : Path) : Bool :=
  match tree.find? path with
  | .ok (some .directory) => true
  | _ => false

def put (tree : FileTree) (location : List String) (entry : FileEntry) : FileTree :=
  if tree.entries.any fun known => known.1 == location then
    { tree with
      entries := tree.entries.map fun known =>
        if known.1 == location then (location, entry) else known }
  else { tree with entries := tree.entries ++ [(location, entry)] }

def remove (tree : FileTree) (location : List String) : FileTree :=
  { tree with entries := tree.entries.filter fun entry => !location.isPrefixOf entry.1 }

def makeDirectory (tree : FileTree) (path : Path) : Except FileFault FileTree :=
  match tree.resolve path with
  | .error kind => .error ⟨kind, path⟩
  | .ok location =>
    if (tree.at? location).isSome then .error ⟨.exists, path⟩
    else .ok (tree.put location .directory)

/-- Makes a directory unless it is there, given its path's parts in reverse, and before it those
above it that are missing. Directories made before one that cannot be made stay. -/
def makeDirectoriesReversed (tree : FileTree) (root : String) :
    List String → FileTree × Option FileFault
  | [] => (tree, none)
  | name :: above =>
    let path : Path := ⟨root, (name :: above).reverse⟩
    let settle (tree : FileTree) : FileTree × Option FileFault :=
      match tree.makeDirectory path with
      | .ok tree => (tree, none)
      | .error fault => (tree, if tree.isDirectory path then none else some fault)
    match tree.makeDirectory path with
    | .ok tree => (tree, none)
    | .error ⟨.notFound, _⟩ =>
      match makeDirectoriesReversed tree root above with
      | (tree, none) => settle tree
      | stopped => stopped
    | .error _ => settle tree

/-- Makes a directory and those above it, unless they are there. -/
def makeDirectories (tree : FileTree) (path : Path) : FileTree × Option FileFault :=
  tree.makeDirectoriesReversed path.root path.parts.reverse

def writeFile (tree : FileTree) (path : Path) (bytes : ByteArray) : Except FileFault FileTree :=
  match tree.resolve path with
  | .error kind => .error ⟨kind, path⟩
  | .ok location =>
    match tree.at? location with
    | some .directory => .error ⟨.isADirectory, path⟩
    | _ => .ok (tree.put location (.file bytes))

/-- Writes the file at a path, making the directories above it. -/
def persist (tree : FileTree) (path : Path) (bytes : ByteArray) : FileTree × Option FileFault :=
  match tree.makeDirectories path.parent with
  | (tree, none) =>
    match tree.writeFile path bytes with
    | .ok tree => (tree, none)
    | .error fault => (tree, some fault)
  | stopped => stopped

/-- Every entry below the working directory with its path from there and its size, by path. -/
def listing (tree : FileTree) : List (String × Option Nat) :=
  let below := tree.entries.filter fun (location, _) => tree.working.isPrefixOf location
  let listed := below.map fun (location, entry) =>
    ("/".intercalate (location.drop tree.working.length), entry.size?)
  listed.mergeSort fun left right => decide (left.1 ≤ right.1)

end FileTree

end ProtocolGen
