import ProtocolGen.Text.Literal

/-!
# Events that cannot be received

The complaint of generated code about an event whose data does not have the expected form.
-/

set_option autoImplicit false

namespace ProtocolGen.Wire

inductive EventCause where
  | missingKey (key : String)
  | other (words : String)
  deriving DecidableEq, Repr

/-- The wording of a cause. A missing key stands for itself, as a literal. -/
def EventCause.message : EventCause → String
  | .missingKey key => Text.literalOf key
  | .other words => words

structure EventFault where
  domain : String
  event : String
  cause : EventCause
  deriving DecidableEq, Repr

def EventFault.message (fault : EventFault) : String :=
  fault.domain ++ "." ++ fault.event ++ " recv: " ++ fault.cause.message

end ProtocolGen.Wire
