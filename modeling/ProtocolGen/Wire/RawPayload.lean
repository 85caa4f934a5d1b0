import ProtocolGen.Json.Reader
import ProtocolGen.Json.Writer
import ProtocolGen.Text.Encoding

/-!
# Raw payloads

Values that generated code passes on unread. Bytes are kept as they come; any other value is kept in
its compact JSON form. A payload without bytes is nothing on the wire, and other payloads are read as
JSON when they go there.
-/

set_option autoImplicit false

namespace ProtocolGen.Wire

structure RawPayload where
  bytes : List UInt8
  deriving DecidableEq, Repr

inductive PayloadFault where
  | undecodable (fault : Text.DecodeFault)
  | malformed (fault : Json.Fault)
  deriving DecidableEq, Repr

def PayloadFault.message : PayloadFault → String
  | .undecodable fault => fault.message
  | .malformed fault => fault.message

namespace RawPayload

def empty : RawPayload := ⟨[]⟩

def asciiBytes (chars : List Char) : List UInt8 := chars.map fun char => UInt8.ofNat char.toNat

/-- The payload for a value on the wire, unless the value holds a kind that JSON lacks. -/
def fromWire : Data → Except Json.Unwritable RawPayload
  | .null => .ok empty
  | .octets bytes => .ok ⟨bytes⟩
  | data => (Json.written data).map fun chars => ⟨asciiBytes chars⟩

def isSet (payload : RawPayload) : Bool := !payload.bytes.isEmpty

def toWire (payload : RawPayload) : Except PayloadFault Data :=
  if payload.isSet then
    match Text.decodeDetected payload.bytes with
    | .error fault => .error (.undecodable fault)
    | .ok text => (Json.readDecoded text).mapError .malformed
  else .ok .null

end RawPayload

end ProtocolGen.Wire
