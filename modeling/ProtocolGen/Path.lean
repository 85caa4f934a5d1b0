import ProtocolGen.Text.Blank

/-!
# Paths

File paths of the POSIX kind in a normal form: empty parts and parts that are one dot are dropped,
parts that are two dots are kept, since what they mean depends on the files there are. A path that
begins with exactly two slashes keeps them both.
-/

set_option autoImplicit false

namespace ProtocolGen

/-- A normalised path: its root, which is empty for a relative path, and its parts. -/
structure Path where
  root : String
  parts : List String
  deriving DecidableEq, Repr, Inhabited

namespace Path

/-- The slashes a path's root is written with, from those that the text begins with. -/
def rootOf (slashes : Nat) : String :=
  if slashes == 0 then "" else if slashes == 2 then "//" else "/"

def ofString (text : String) : Path :=
  let chars := text.toList
  let slashes := (chars.takeWhile (· == '/')).length
  let pieces := (Text.splitOn ['/'] chars).filter fun piece => !piece.isEmpty && piece != ['.']
  ⟨rootOf slashes, pieces.map String.ofList⟩

/-- The empty relative path, which names the working directory. -/
def here : Path := ⟨"", []⟩

/-- The text of a path. The empty relative path is written as a dot. -/
def toString (path : Path) : String :=
  if path.root.isEmpty && path.parts.isEmpty then "."
  else path.root ++ "/".intercalate path.parts

/-- A path continued by another. An absolute path starts afresh. -/
def append (path other : Path) : Path :=
  if other.root.isEmpty then ⟨path.root, path.parts ++ other.parts⟩ else other

def join (path : Path) (text : String) : Path := path.append (ofString text)

def parent (path : Path) : Path := ⟨path.root, path.parts.dropLast⟩

def name (path : Path) : String := path.parts.getLastD ""

/-- The end of a path's name from its last dot on, unless the dot begins or ends the name. -/
def suffix (path : Path) : String :=
  let reversed := path.name.toList.reverse
  let extension := reversed.takeWhile (· != '.')
  let before := reversed.drop (extension.length + 1)
  if extension.isEmpty || before.isEmpty then "" else String.ofList ('.' :: extension.reverse)

end Path

end ProtocolGen
