import ProtocolGen.Text.Utf8

/-!
# Encodings of JSON texts

A JSON text may come in UTF-8, UTF-16 or UTF-32, in either byte order, with or without a byte order
mark. The encoding is read off the mark or, since a JSON text begins with ASCII characters, off the
zero bytes among the first four. Lone surrogates are let through in every encoding.
-/

set_option autoImplicit false

namespace ProtocolGen.Text

/-- Which of two adjacent bytes is the greater part of a number. -/
inductive ByteOrder where
  | little
  | big
  deriving DecidableEq, Repr

/-- An encoding, together with the number of bytes its mark takes. -/
inductive Encoding where
  | utf8 (mark : Nat)
  | utf16 (order : ByteOrder) (mark : Nat)
  | utf32 (order : ByteOrder) (mark : Nat)
  deriving DecidableEq, Repr

/-- The byte order marks with their encodings, a mark ahead of those that begin it. -/
def Encoding.marks : List (List UInt8 × Encoding) :=
  [([0x00, 0x00, 0xFE, 0xFF], .utf32 .big 4), ([0xFF, 0xFE, 0x00, 0x00], .utf32 .little 4),
    ([0xFE, 0xFF], .utf16 .big 2), ([0xFF, 0xFE], .utf16 .little 2), ([0xEF, 0xBB, 0xBF], .utf8 3)]

/-- The encoding of bytes without a mark. -/
def Encoding.unmarked : List UInt8 → Encoding
  | first :: second :: third :: fourth :: _ =>
    if first == 0 then if second == 0 then .utf32 .big 0 else .utf16 .big 0
    else if second == 0 then
      if third == 0 && fourth == 0 then .utf32 .little 0 else .utf16 .little 0
    else .utf8 0
  | [first, second] =>
    if first == 0 then .utf16 .big 0 else if second == 0 then .utf16 .little 0 else .utf8 0
  | _ => .utf8 0

def Encoding.detect (bytes : List UInt8) : Encoding :=
  match marks.find? (·.1.isPrefixOf bytes) with
  | some found => found.2
  | none => unmarked bytes

def ByteOrder.pair (order : ByteOrder) (first second : UInt8) : Nat :=
  match order with
  | .little => second.toNat * 256 + first.toNat
  | .big => first.toNat * 256 + second.toNat

def ByteOrder.quad (order : ByteOrder) (first second third fourth : UInt8) : Nat :=
  match order with
  | .little => order.pair third fourth * 0x10000 + order.pair first second
  | .big => order.pair first second * 0x10000 + order.pair third fourth

def ByteOrder.ending : ByteOrder → String
  | .little => "-le"
  | .big => "-be"

def truncatedData : String := "truncated data"

/-- Decodes the rest of some UTF-16 bytes, after the reversed code points done so far. -/
def decodeUtf16From (order : ByteOrder) (done : Text) (position : Nat) :
    List UInt8 → Except DecodeFault Text
  | [] => .ok done.reverse
  | [byte] => .error ⟨"utf-16" ++ order.ending, byte, position, 1, truncatedData⟩
  | a :: b :: c :: d :: rest =>
    let high := order.pair a b
    let low := order.pair c d
    if 0xD800 ≤ high && high < 0xDC00 && 0xDC00 ≤ low && low < 0xE000 then
      let number := 0x10000 + (high - 0xD800) * 0x400 + (low - 0xDC00)
      decodeUtf16From order (.scalar (Char.ofNat number) :: done) (position + 4) rest
    else
      decodeUtf16From order (((CodePoint.ofNat? high).getD default) :: done) (position + 2)
        (c :: d :: rest)
  | a :: b :: rest =>
    decodeUtf16From order (((CodePoint.ofNat? (order.pair a b)).getD default) :: done)
      (position + 2) rest

/-- Decodes the rest of some UTF-32 bytes, after the reversed code points done so far. -/
def decodeUtf32From (order : ByteOrder) (done : Text) (position : Nat) :
    List UInt8 → Except DecodeFault Text
  | [] => .ok done.reverse
  | a :: b :: c :: d :: rest =>
    match CodePoint.ofNat? (order.quad a b c d) with
    | some point => decodeUtf32From order (point :: done) (position + 4) rest
    | none =>
      .error ⟨"utf-32" ++ order.ending, a, position, 4, "code point not in range(0x110000)"⟩
  | first :: rest =>
    .error ⟨"utf-32" ++ order.ending, first, position, rest.length + 1, truncatedData⟩

/-- Decodes bytes in the encoding that they show. Positions of faults count the mark, except in
UTF-8. -/
def decodeDetected (bytes : List UInt8) : Except DecodeFault Text :=
  match Encoding.detect bytes with
  | .utf8 mark => decodeUtf8 true (bytes.drop mark)
  | .utf16 order mark => decodeUtf16From order [] mark (bytes.drop mark)
  | .utf32 order mark => decodeUtf32From order [] mark (bytes.drop mark)

end ProtocolGen.Text
