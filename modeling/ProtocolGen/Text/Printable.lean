import ProtocolGen.Text.PrintableTable

/-!
# Printable code points

Whether a code point has a visible form of its own, by the general categories of Unicode 14. The
space counts as printable and no other separator does.
-/

set_option autoImplicit false

namespace ProtocolGen.Text

def inRanges (ranges : List (Nat × Nat)) (number : Nat) : Bool :=
  ranges.any fun (first, last) => first ≤ number && number ≤ last

/-- Whether a code point is shown as it is. ASCII is decided without the table. -/
def isPrintable (code : Nat) : Bool :=
  if code < 0x7F then 0x20 ≤ code else !inRanges unprintableRanges code

end ProtocolGen.Text
