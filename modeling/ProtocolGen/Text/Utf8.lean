import ProtocolGen.Text.CodePoint

/-!
# Reading UTF-8

Decoding by the well-formedness table of the Unicode standard, with the position and cause of the
first fault: a byte that starts nothing, a byte that does not continue what was started, or an end
in the middle. A fault covers the longest start of a valid sequence that stands there.
-/

set_option autoImplicit false

namespace ProtocolGen.Text

structure DecodeFault where
  /-- Name of the encoding, as messages give it. -/
  encoding : String
  /-- The first refused byte. -/
  byte : UInt8
  /-- Its position. -/
  start : Nat
  /-- How many bytes are refused together. -/
  length : Nat
  cause : String
  deriving DecidableEq, Repr

def hexByte (byte : UInt8) : String :=
  let digit (number : Nat) : Char :=
    if number < 10 then Char.ofNat (number + '0'.toNat) else Char.ofNat (number - 10 + 'a'.toNat)
  String.ofList [digit (byte.toNat / 16), digit (byte.toNat % 16)]

def DecodeFault.message (fault : DecodeFault) : String :=
  let place :=
    if fault.length == 1 then
      "byte 0x" ++ hexByte fault.byte ++ " in position " ++ toString fault.start
    else
      "bytes in position " ++ toString fault.start ++ "-" ++
        toString (fault.start + fault.length - 1)
  "'" ++ fault.encoding ++ "' codec can't decode " ++ place ++ ": " ++ fault.cause

/-- What stands at the head of some bytes: a code point and its length, or a refused run's length
and the cause. -/
inductive Utf8Head where
  | char (number length : Nat)
  | fault (length : Nat) (cause : String)
  deriving DecidableEq, Repr

def isContinuation (byte : UInt8) : Bool := 0x80 ≤ byte && byte ≤ 0xBF

def isSecond (first second : UInt8) : Bool :=
  isContinuation second &&
    (if first == 0xE0 then 0xA0 ≤ second
      else if first == 0xED then second < 0xA0
      else if first == 0xF0 then 0x90 ≤ second
      else if first == 0xF4 then second < 0x90
      else true)

def payload (byte : UInt8) : Nat := byte.toNat % 64

def invalidStart : String := "invalid start byte"

/-- Wording for a byte that does not continue the sequence begun. -/
def invalidContinuation : String := "invalid continuation byte"

def unexpectedEnd : String := "unexpected end of data"

def utf8Head (first : UInt8) (rest : List UInt8) : Utf8Head :=
  if first < 0x80 then .char first.toNat 1
  else if first < 0xC2 then .fault 1 invalidStart
  else if first < 0xE0 then
    match rest with
    | [] => .fault 1 unexpectedEnd
    | second :: _ =>
      if isSecond first second then .char (first.toNat % 32 * 64 + payload second) 2
      else .fault 1 invalidContinuation
  else if first < 0xF0 then
    match rest with
    | [] => .fault 1 unexpectedEnd
    | [second] => if isSecond first second then .fault 2 unexpectedEnd else .fault 1 invalidContinuation
    | second :: third :: _ =>
      if !isSecond first second then .fault 1 invalidContinuation
      else if !isContinuation third then .fault 2 invalidContinuation
      else .char ((first.toNat % 16 * 64 + payload second) * 64 + payload third) 3
  else if first < 0xF5 then
    match rest with
    | [] => .fault 1 unexpectedEnd
    | second :: more =>
      if !isSecond first second then .fault 1 invalidContinuation
      else
        match more with
        | [] => .fault 2 unexpectedEnd
        | third :: last =>
          if !isContinuation third then .fault 2 invalidContinuation
          else
            match last with
            | [] => .fault 3 unexpectedEnd
            | fourth :: _ =>
              if !isContinuation fourth then .fault 3 invalidContinuation
              else
                .char (((first.toNat % 8 * 64 + payload second) * 64 + payload third) * 64 +
                  payload fourth) 4
  else .fault 1 invalidStart

/-- The surrogate that three bytes would encode if surrogates could be encoded. -/
def encodedSurrogate? (first : UInt8) : List UInt8 → Option (Fin 0x800)
  | second :: third :: _ =>
    if first == 0xED && 0xA0 ≤ second && isContinuation second && isContinuation third then
      some (Fin.ofNat 0x800 ((second.toNat % 32) * 64 + payload third))
    else none
  | _ => none

/-- Decodes the rest of some bytes, after the reversed code points done so far. The first `skip`
bytes belong to the last code point done. -/
def decodeUtf8From (surrogates : Bool) (done : Text) (position : Nat) :
    Nat → List UInt8 → Except DecodeFault Text
  | _, [] => .ok done.reverse
  | skip + 1, _ :: rest => decodeUtf8From surrogates done (position + 1) skip rest
  | 0, first :: rest =>
    match utf8Head first rest with
    | .char number length =>
      decodeUtf8From surrogates (.scalar (Char.ofNat number) :: done) (position + 1) (length - 1) rest
    | .fault length cause =>
      match if surrogates then encodedSurrogate? first rest else none with
      | some index => decodeUtf8From surrogates (.surrogate index :: done) (position + 1) 2 rest
      | none => .error ⟨"utf-8", first, position, length, cause⟩

/-- Decodes UTF-8. Sequences that encode a surrogate are let through when asked. -/
def decodeUtf8 (surrogates : Bool) (bytes : List UInt8) : Except DecodeFault Text :=
  decodeUtf8From surrogates [] 0 0 bytes

def decodeChars (bytes : List UInt8) : Except DecodeFault (List Char) :=
  (decodeUtf8 false bytes).map fun text => text.filterMap CodePoint.char?

end ProtocolGen.Text
