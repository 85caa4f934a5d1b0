import ProtocolGen.Source.Imports
import ProtocolGen.Source.Layout

/-!
# Formatters

A formatter takes the text of a module to its final form, rejects it, or breaks down. The standard
one accepts texts that scan and whose import statements are well formed, and normalises their white
space. It breaks down on a text with a null character, which is no source text at all.
-/

set_option autoImplicit false

namespace ProtocolGen.Source

inductive FormatFault where
  /-- The text is refused, and may be kept as it is. -/
  | rejected (reason : String)
  /-- The formatter breaks down on the text, in words. -/
  | broken (words : String)
  deriving DecidableEq, Repr

def nullCharacterMessage : String := "source code string cannot contain null bytes"

def FormatFault.message : FormatFault → String
  | .rejected reason => reason
  | .broken words => words

abbrev Formatter := String → Except FormatFault String

def lineReason (line : Nat) (refusal : Refusal) : String :=
  "line " ++ toString line ++ ": " ++ refusal.message

def refusal? (text : List Char) : Option String :=
  match lexemes text with
  | .error (line, refusal) => some (lineReason line refusal)
  | .ok located => (badImport? located).map fun line => lineReason line .invalidSyntax

def format : Formatter := fun text =>
  if text.toList.contains '\x00' then .error (.broken nullCharacterMessage)
  else
    match refusal? text.toList with
    | some reason => .error (.rejected reason)
    | none => .ok (String.ofList (normalise text.toList))

end ProtocolGen.Source
