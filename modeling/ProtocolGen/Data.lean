import ProtocolGen.Moment
import ProtocolGen.Number.Shortest
import ProtocolGen.Text.Literal

/-!
# Document data

What a document holds once its notation is read: nothing, truth values, integers, floating-point
numbers, text, lists and tables, and the few kinds that only some notations know (moments, octets
and sets). A table keeps its entries in the order of their first mention, and a later mention of a
key replaces the value in place. Every value has one form that messages show.
-/

set_option autoImplicit false

namespace ProtocolGen

inductive Data where
  | null
  | boolean (value : Bool)
  | integer (value : Int)
  | float (value : Binary64)
  | text (value : Text)
  | moment (value : Moment)
  | octets (bytes : List UInt8)
  | set (members : List Data)
  | list (items : List Data)
  | table (entries : List (Text × Data))
  deriving Inhabited

namespace Data

/-- The entries of a table after one more: a known key keeps its place and gets the new value. -/
def insertEntry (key : Text) (value : Data) : List (Text × Data) → List (Text × Data)
  | [] => [(key, value)]
  | entry :: entries =>
    if entry.1 = key then (key, value) :: entries else entry :: insertEntry key value entries

def tableOf (mentions : List (Text × Data)) : Data :=
  .table (mentions.foldl (fun entries (key, value) => insertEntry key value entries) [])

def lookupEntry (key : Text) : List (Text × Data) → Option Data
  | [] => none
  | entry :: entries => if entry.1 = key then some entry.2 else lookupEntry key entries

/-- The value of a table's member. Other values have no members. -/
def member? (name : String) : Data → Option Data
  | .table entries => lookupEntry (Text.ofString name) entries
  | _ => none

theorem sizeOf_lookupEntry_lt {key : Text} {value : Data} {entries : List (Text × Data)}
    (found : lookupEntry key entries = some value) : sizeOf value < sizeOf entries := by
  induction entries with
  | nil => simp [lookupEntry] at found
  | cons entry entries ih =>
    simp only [lookupEntry] at found
    split at found
    · obtain rfl := Option.some.inj found
      rcases entry with ⟨_, value⟩
      simp
      omega
    · have := ih found
      simp
      omega

theorem sizeOf_member?_lt {name : String} {data value : Data}
    (found : data.member? name = some value) : sizeOf value < sizeOf data := by
  cases data with
  | table entries =>
    have := sizeOf_lookupEntry_lt found
    simp
    omega
  | _ => simp [member?] at found

def isNull : Data → Bool
  | .null => true
  | _ => false

def kindName : Data → String
  | .null => "NoneType"
  | .boolean _ => "bool"
  | .integer _ => "int"
  | .float _ => "float"
  | .text _ => "str"
  | .moment value => value.kindName
  | .octets _ => "bytes"
  | .set _ => "set"
  | .list _ => "list"
  | .table _ => "dict"

def shownOctet (quote : Char) (byte : UInt8) : List Char :=
  if byte.toNat < 0x7F then
    if byte.toNat < 0x20 && byte != 0x09 && byte != 0x0A && byte != 0x0D then
      Text.hexEscape byte.toNat
    else Text.literalChar quote (Char.ofNat byte.toNat)
  else Text.hexEscape byte.toNat

def shownOctets (bytes : List UInt8) : String :=
  let quote := if bytes.contains 0x27 && !bytes.contains 0x22 then '"' else '\''
  String.ofList ('b' :: quote :: bytes.flatMap (shownOctet quote) ++ [quote])

mutual

def shown : Data → String
  | .null => "None"
  | .boolean value => if value then "True" else "False"
  | .integer value => toString value
  | .float value => value.text "inf" "nan"
  | .text value => String.ofList (Text.literal value)
  | .moment value => value.shown
  | .octets bytes => shownOctets bytes
  | .set [] => "set()"
  | .set (member :: members) => "\x7b" ++ ", ".intercalate (shown member :: shownItems members) ++ "\x7d"
  | .list items => "[" ++ ", ".intercalate (shownItems items) ++ "]"
  | .table entries => "\x7b" ++ ", ".intercalate (shownEntries entries) ++ "\x7d"

def shownItems : List Data → List String
  | [] => []
  | item :: items => shown item :: shownItems items

def shownEntries : List (Text × Data) → List String
  | [] => []
  | entry :: entries => shownEntry entry :: shownEntries entries

def shownEntry : Text × Data → String
  | (key, value) => String.ofList (Text.literal key) ++ ": " ++ shown value

end

/-- The plain form of a value: a text is itself, and so is a moment in plain form; any other value
is as messages show it. -/
def plain : Data → Text
  | .text value => value
  | .moment value => Text.ofString value.plain
  | other => Text.ofString other.shown

end Data

end ProtocolGen
