import ProtocolGen.Data

/-!
# Integers that are not written

Integers may be of any size where they are read in a base that is a power of two. They are written in
decimal digits, and at most 4300 of them, so a value that holds a longer integer has no form that
messages could show.
-/

set_option autoImplicit false

namespace ProtocolGen.Data

def mostDigitsWritten : Nat := 4300

def unwritableMessage : String :=
  "Exceeds the limit (4300 digits) for integer string conversion; use " ++
    "sys.set_int_max_str_digits() to increase the limit"

mutual

/-- Whether an integer in a value has more digits than are written. -/
def isUnwritable : Data → Bool
  | .integer value => 10 ^ mostDigitsWritten ≤ value.natAbs
  | .set items | .list items => anyUnwritable items
  | .table entries => anyEntryUnwritable entries
  | _ => false

def anyUnwritable : List Data → Bool
  | [] => false
  | item :: items => item.isUnwritable || anyUnwritable items

def anyEntryUnwritable : List (Text × Data) → Bool
  | [] => false
  | (_, value) :: entries => value.isUnwritable || anyEntryUnwritable entries

end

end ProtocolGen.Data
