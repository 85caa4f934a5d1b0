/-!
# Sorted sets of names

The distinct names of a list in code-point order.
-/

set_option autoImplicit false

namespace ProtocolGen.Text

def dropRepeats : List String → List String
  | first :: second :: rest =>
    if first = second then dropRepeats (second :: rest) else first :: dropRepeats (second :: rest)
  | rest => rest

def sortedSet (names : List String) : List String :=
  dropRepeats (names.mergeSort fun left right => decide (left ≤ right))

end ProtocolGen.Text
