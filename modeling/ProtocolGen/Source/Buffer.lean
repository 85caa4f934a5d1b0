import ProtocolGen.Source.Docstring
import ProtocolGen.Text.Sorted

/-!
# Source buffers

The code of one module while it is collected. Edits add lines to its body, names to its imports,
and a heading; imports are written once, above the body, when the module is rendered. A buffer in
which nothing was declared is not worth keeping.

Imports are kept as they are asked for. What is written depends only on which are asked for: every
module once, sorted, in three groups.
-/

set_option autoImplicit false

namespace ProtocolGen.Source

inductive Edit where
  /-- The heading, with the module's docstring. Only the first one counts. -/
  | header (docstring : Option String)
  /-- The mark that a real declaration follows. -/
  | declare
  /-- An import of a module, or of names from it when there are any. -/
  | require (module : String) (names : List String)
  | line (text : String) (indent : Nat)
  | blank (count : Nat)
  | docstring (texts : List String) (indent : Nat)
  | comment (texts : List String) (indent : Nat) (mark : String)
  deriving DecidableEq, Repr

structure Buffer where
  /-- The module that generated code takes its runtime from. -/
  runtimeModule : String
  /-- The docstring, once there is a heading. -/
  heading : Option (Option String)
  hasContent : Bool
  /-- Modules imported as a whole. -/
  modules : List String
  /-- Names imported from modules. -/
  names : List (String × String)
  lines : Array String
  deriving DecidableEq, Repr

namespace Buffer

def new (runtimeModule : String) : Buffer := ⟨runtimeModule, none, false, [], [], #[]⟩

def clear (buffer : Buffer) : Buffer := new buffer.runtimeModule

def indented (text : String) (indent : Nat) : String :=
  if text.isEmpty then "" else String.ofList (indentOf indent ++ text.toList)

def addLines (buffer : Buffer) (indent : Nat) (lines : List (List Char)) : Buffer :=
  { buffer with
    lines := buffer.lines ++ (lines.map fun line => indented (String.ofList line) indent) }

def apply (buffer : Buffer) : Edit → Buffer
  | .header docstring =>
    if buffer.heading.isSome then buffer else { buffer with heading := some docstring }
  | .declare => { buffer with hasContent := true }
  | .require module [] => { buffer with modules := buffer.modules ++ [module] }
  | .require module names =>
    { buffer with names := buffer.names ++ names.map fun name => (module, name) }
  | .line text indent => { buffer with lines := buffer.lines.push (indented text indent) }
  | .blank count => { buffer with lines := buffer.lines ++ List.replicate count "" }
  | .docstring texts indent =>
    buffer.addLines indent (docstringLines (texts.map String.toList) indent)
  | .comment texts indent mark =>
    buffer.addLines indent (commentLines (texts.map String.toList) indent mark.toList)

def applyAll (buffer : Buffer) (edits : List Edit) : Buffer := edits.foldl apply buffer

inductive ImportGroup where
  | standard
  | runtime
  | near
  deriving DecidableEq, Repr

def topModule (module : String) : List Char := module.toList.takeWhile (· != '.')

/-- The group of a module: near when its name begins with a dot, runtime when it is the runtime
module or lies below the same top module, standard otherwise. -/
def groupOf (runtimeModule module : String) : ImportGroup :=
  if ['.'].isPrefixOf module.toList then .near
  else if module = runtimeModule ||
      (topModule runtimeModule ++ ['.']).isPrefixOf module.toList then .runtime
  else .standard

def moduleImports (buffer : Buffer) (group : ImportGroup) : List String :=
  ((Text.sortedSet buffer.modules).filter fun module => groupOf buffer.runtimeModule module = group).map
    fun module => "import " ++ module

def namesFrom (buffer : Buffer) (module : String) : List String :=
  Text.sortedSet ((buffer.names.filter fun entry => entry.1 = module).map (·.2))

def nameImports (buffer : Buffer) (group : ImportGroup) : List String :=
  ((Text.sortedSet (buffer.names.map (·.1))).filter fun module =>
    groupOf buffer.runtimeModule module = group).map
    fun module => "from " ++ module ++ " import " ++ ", ".intercalate (buffer.namesFrom module)

def groupImports (buffer : Buffer) (group : ImportGroup) : List String :=
  buffer.moduleImports group ++ buffer.nameImports group

/-- Lists with an empty line between each two that are not empty. -/
def separated (groups : List (List String)) : List String :=
  match groups.filter fun group => !group.isEmpty with
  | [] => []
  | first :: rest => first ++ rest.flatMap fun group => "" :: group

def importLines (buffer : Buffer) : List String :=
  separated [buffer.groupImports .standard, buffer.groupImports .runtime, buffer.groupImports .near]

def banner : String := "# Code generated by cdpgen. DO NOT EDIT."

/-- The line of a module's docstring, when it has one that is not empty. -/
def headingLines (buffer : Buffer) : List String :=
  match buffer.heading.join with
  | none => []
  | some docstring =>
    if docstring.isEmpty then []
    else [String.ofList (docQuotes ++ escapeDoc docstring.toList ++ docQuotes)]

def topLines (buffer : Buffer) : List String :=
  let imports := buffer.importLines
  [banner] ++ buffer.headingLines ++ ["", "from __future__ import annotations"] ++
    (if imports.isEmpty then [] else "" :: imports) ++ ["", ""]

/-- The lines of a module's body, from the first that is not empty. -/
def bodyLines (buffer : Buffer) : List String := buffer.lines.toList.dropWhile String.isEmpty

def render (buffer : Buffer) : String :=
  let text := "\n".intercalate (buffer.topLines ++ buffer.bodyLines)
  String.ofList (Text.trimEnd text.toList ++ ['\n'])

end Buffer

end ProtocolGen.Source
