import ProtocolGen.Data
import ProtocolGen.Naming

/-!
# Enumerations on the wire

What the generated enumerations do when they run. A member is an ordinal with a name; ordinal zero is
the unset member, and the ordinals after it stand for the labels in order. On the wire a member is
its label, and the unset member is nothing.
-/

set_option autoImplicit false

namespace ProtocolGen.Wire

/-- An enumeration: its name, its labels, and the names of its members from ordinal one on. -/
structure Enumeration where
  name : String
  labels : List String
  memberNames : List String
  deriving DecidableEq, Repr

inductive EnumerationFault where
  /-- No member has the ordinal. -/
  | noMember (enumeration : String) (ordinal : Int)
  /-- No label is the value, which is given in its shown form. -/
  | unrecognized (enumeration shown : String)
  /-- The member has an ordinal without a label. -/
  | noLabel
  deriving DecidableEq, Repr

def EnumerationFault.message : EnumerationFault → String
  | .noMember enumeration ordinal => toString ordinal ++ " is not a valid " ++ enumeration
  | .unrecognized enumeration shown => "unrecognized " ++ enumeration ++ " value: " ++ shown
  | .noLabel => "tuple index out of range"

namespace Enumeration

def ofLabels (name : String) (labels : List String) : Enumeration :=
  ⟨name, labels, Naming.enumMemberNames labels⟩

def allNames (enumeration : Enumeration) : List String :=
  Naming.unsetMember :: enumeration.memberNames

abbrev Member (enumeration : Enumeration) : Type := Fin (enumeration.memberNames.length + 1)

def member (enumeration : Enumeration) (ordinal : Int) :
    Except EnumerationFault enumeration.Member :=
  match ordinal with
  | .ofNat number =>
    if valid : number < enumeration.memberNames.length + 1 then .ok ⟨number, valid⟩
    else .error (.noMember enumeration.name ordinal)
  | .negSucc _ => .error (.noMember enumeration.name ordinal)

def ordinalOf? (enumeration : Enumeration) (data : Data) : Option Nat :=
  match data with
  | .text text =>
    (enumeration.labels.findIdx? fun label => Text.ofString label == text).map (· + 1)
  | _ => none

def fromWire (enumeration : Enumeration) (data : Data) :
    Except EnumerationFault enumeration.Member :=
  match data with
  | .null => enumeration.member 0
  | data =>
    match enumeration.ordinalOf? data with
    | some ordinal => enumeration.member ordinal
    | none => .error (.unrecognized enumeration.name data.shown)

variable {enumeration : Enumeration}

def Member.name (member : enumeration.Member) : String :=
  (enumeration.allNames[member.val]?).getD ""

def Member.label (member : enumeration.Member) : Except EnumerationFault String :=
  match enumeration.labels[member.val - 1]? with
  | some label => .ok label
  | none => .error .noLabel

def Member.isSet (member : enumeration.Member) : Bool := member.val != 0

def Member.isLabelled (member : enumeration.Member) : Bool :=
  1 ≤ member.val && member.val ≤ enumeration.labels.length

def Member.toWire (member : enumeration.Member) : Except EnumerationFault (Option String) :=
  if member.isSet then member.label.map some else .ok none

/-- The text of a member, which for the unset one is made from the enumeration's name. -/
def Member.text (member : enumeration.Member) : Except EnumerationFault String :=
  if member.isSet then member.label else .ok (enumeration.name ++ "NotSet")

end Enumeration

end ProtocolGen.Wire
