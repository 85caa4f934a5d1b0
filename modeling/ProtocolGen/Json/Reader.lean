import ProtocolGen.Data

/-!
# Reading JSON

The reader takes the JSON grammar with three more number words (`NaN`, `Infinity`, `-Infinity`) and
with surrogate escapes that have no partner. A complaint names what was expected and where, in code
points from the start; the first fault from left to right is the one reported. Integers of more than
4300 digits are refused for their length, which is a limit and not a fault of the notation.

Every function takes the text still to be read and gives back the rest, so a position is the
difference of two lengths. The readers of values and of their lists take a bound on the number of
steps, for which twice the length of the text and one more always suffice: a list inside a list costs
two steps and at least one code point.
-/

set_option autoImplicit false

namespace ProtocolGen.Json

inductive Expectation where
  | value
  | propertyName
  | colon
  | comma
  | controlCharacter
  | unicodeEscape
  | escape
  | closingQuote
  | endOfText
  | noByteOrderMark
  deriving DecidableEq, Repr

def Expectation.message : Expectation → String
  | .value => "Expecting value"
  | .propertyName => "Expecting property name enclosed in double quotes"
  | .colon => "Expecting ':' delimiter"
  | .comma => "Expecting ',' delimiter"
  | .controlCharacter => "Invalid control character at"
  | .unicodeEscape => "Invalid \\uXXXX escape"
  | .escape => "Invalid \\escape"
  | .closingQuote => "Unterminated string starting at"
  | .endOfText => "Extra data"
  | .noByteOrderMark => "Unexpected UTF-8 BOM (decode using utf-8-sig)"

/-- A fault while reading, with the number of code points that were still to be read there. -/
inductive Stop where
  | expected (what : Expectation) (left : Nat)
  | tooManyDigits (count : Nat)
  deriving DecidableEq, Repr

/-- Why a text was not read: a complaint with its place, or an integer beyond the limit. -/
inductive Fault where
  | malformed (what : Expectation) (position line column : Nat)
  | tooManyDigits (count : Nat)
  deriving DecidableEq, Repr

def tooManyDigitsMessage (count : Nat) : String :=
  "Exceeds the limit (4300 digits) for integer string conversion: value has " ++ toString count ++
    " digits; use sys.set_int_max_str_digits() to increase the limit"

def Fault.message : Fault → String
  | .malformed what position line column =>
    what.message ++ ": line " ++ toString line ++ " column " ++ toString column ++ " (char " ++
      toString position ++ ")"
  | .tooManyDigits count => tooManyDigitsMessage count

def maximumDigits : Nat := 4300

def isChar (char : Char) : CodePoint → Bool
  | .scalar other => other == char
  | .surrogate _ => false

def isSpace : CodePoint → Bool
  | .scalar char => char == ' ' || char == '\t' || char == '\n' || char == '\r'
  | .surrogate _ => false

def skipSpaces (text : Text) : Text := text.dropWhile isSpace

def digit? : CodePoint → Option Nat
  | .scalar char => if char.isDigit then some (char.toNat - '0'.toNat) else none
  | .surrogate _ => none

def hexDigit? : CodePoint → Option Nat
  | .scalar char =>
    if char.isDigit then some (char.toNat - '0'.toNat)
    else if 'a' ≤ char && char ≤ 'f' then some (char.toNat - 'a'.toNat + 10)
    else if 'A' ≤ char && char ≤ 'F' then some (char.toNat - 'A'.toNat + 10)
    else none
  | .surrogate _ => none

def fourHex? : List CodePoint → Option Nat
  | [a, b, c, d] => do
    let a ← hexDigit? a
    let b ← hexDigit? b
    let c ← hexDigit? c
    let d ← hexDigit? d
    some (((a * 16 + b) * 16 + c) * 16 + d)
  | _ => none

def simpleEscape? : CodePoint → Option Char
  | .scalar '"' => some '"'
  | .scalar '\\' => some '\\'
  | .scalar '/' => some '/'
  | .scalar 'b' => some '\x08'
  | .scalar 'f' => some '\x0c'
  | .scalar 'n' => some '\n'
  | .scalar 'r' => some '\r'
  | .scalar 't' => some '\t'
  | _ => none

def joinSurrogates (high low : Nat) : CodePoint :=
  .scalar (Char.ofNat (0x10000 + (high - 0xD800) * 0x400 + (low - 0xDC00)))

/-- Reads the escape whose `u` is at the head of the text, and tells how many code points it takes.
The four digits must not end the text. A high surrogate takes an escaped low one after it into one
character. -/
def unicodeEscape (text : Text) : Except Stop (CodePoint × Nat) :=
  match fourHex? ((text.drop 1).take 4), text.drop 5 with
  | none, _ | _, [] => .error (.expected .unicodeEscape text.length)
  | some first, rest =>
    let alone := (CodePoint.ofNat? first).getD default
    match rest with
    | backslash :: letter :: more =>
      if 0xD800 ≤ first && first < 0xDC00 && isChar '\\' backslash && isChar 'u' letter &&
          !(more.drop 4).isEmpty then
        match fourHex? (more.take 4) with
        | none => .error (.expected .unicodeEscape (more.length + 1))
        | some second =>
          if 0xDC00 ≤ second && second < 0xE000 then .ok (joinSurrogates first second, 11)
          else .ok (alone, 5)
      else .ok (alone, 5)
    | _ => .ok (alone, 5)

/-- Reads a string after its opening quote, given the reversed content so far. The first code points,
as many as `skip` says, belong to the last escape. A string that is not closed has no fault of its
own. -/
def stringFrom (content : Text) : Nat → Text → Except (Option Stop) (Text × Text)
  | _, [] => .error none
  | skip + 1, _ :: rest => stringFrom content skip rest
  | 0, head :: rest =>
    if isChar '"' head then .ok (content.reverse, rest)
    else if isChar '\\' head then
      match rest with
      | [] => .error none
      | letter :: more =>
        if isChar 'u' letter then
          match unicodeEscape (letter :: more) with
          | .error stop => .error (some stop)
          | .ok (point, length) => stringFrom (point :: content) length (letter :: more)
        else
          match simpleEscape? letter with
          | some char => stringFrom (.scalar char :: content) 1 (letter :: more)
          | none => .error (some (.expected .escape (more.length + 2)))
    else if head.value < 0x20 then .error (some (.expected .controlCharacter (rest.length + 1)))
    else stringFrom (head :: content) 0 rest

/-- Reads a string after its opening quote. One that is not closed is a fault at that quote. -/
def string (text : Text) : Except Stop (Text × Text) :=
  match stringFrom [] 0 text with
  | .ok found => .ok found
  | .error (some stop) => .error stop
  | .error none => .error (.expected .closingQuote (text.length + 1))

def digits (text : Text) : List Nat × Text :=
  let taken := text.takeWhile fun point => (digit? point).isSome
  (taken.filterMap digit?, text.drop taken.length)

def numberOf (digits : List Nat) : Nat := digits.foldl (fun number digit => number * 10 + digit) 0

/-- The digits of an integer part: a zero alone, or digits that begin with none. -/
def wholeDigits? (text : Text) : Option (List Nat × Text) :=
  match text with
  | head :: rest =>
    match digit? head with
    | some 0 => some ([0], rest)
    | some _ => some (digits text)
    | none => none
  | [] => none

/-- The digits after a decimal point, when a point and a digit stand there. -/
def fractionDigits? (text : Text) : Option (List Nat × Text) :=
  match text with
  | point :: rest =>
    if isChar '.' point then
      match digits rest with
      | ([], _) => none
      | found => some found
    else none
  | [] => none

def exponentPart? (text : Text) : Option (Int × Text) :=
  match text with
  | letter :: rest =>
    if isChar 'e' letter || isChar 'E' letter then
      let (negative, rest) :=
        match rest with
        | sign :: more =>
          if isChar '-' sign then (true, more) else if isChar '+' sign then (false, more)
          else (false, rest)
        | [] => (false, rest)
      match digits rest with
      | ([], _) => none
      | (found, more) =>
        some (if negative then -(numberOf found : Int) else numberOf found, more)
    else none
  | [] => none

/-- Reads the number at the head of a text, when one stands there. -/
def number? (text : Text) : Option (Except Stop (Data × Text)) :=
  let (negative, unsigned) :=
    match text with
    | sign :: rest => if isChar '-' sign then (true, rest) else (false, text)
    | [] => (false, text)
  match wholeDigits? unsigned with
  | none => none
  | some (whole, rest) =>
    let fraction := fractionDigits? rest
    let (decimals, rest) := fraction.getD ([], rest)
    let exponent := exponentPart? rest
    let (power, rest) := exponent.getD (0, rest)
    if fraction.isNone && exponent.isNone then
      if maximumDigits < whole.length then some (.error (.tooManyDigits whole.length))
      else
        let magnitude : Int := numberOf whole
        some (.ok (.integer (if negative then -magnitude else magnitude), rest))
    else
      let float :=
        Binary64.ofDecimal negative (numberOf (whole ++ decimals)) (power - decimals.length)
      some (.ok (.float float, rest))

def wordValues : List (String × Data) := [
  ("null", .null), ("true", .boolean true), ("false", .boolean false),
  ("NaN", .float Binary64.notANumber), ("Infinity", .float (Binary64.infinity false)),
  ("-Infinity", .float (Binary64.infinity true))]

def afterWord? : List Char → Text → Option Text
  | [], rest => some rest
  | _ :: _, [] => none
  | char :: word, head :: rest => if isChar char head then afterWord? word rest else none

/-- Reads the word that stands for a value at the head of a text. -/
def word? (text : Text) : Option (Data × Text) :=
  wordValues.findSome? fun (word, value) =>
    (afterWord? word.toList text).map fun rest => (value, rest)

mutual

def value : Nat → Text → Except Stop (Data × Text)
  | 0, text => .error (.expected .value text.length)
  | _ + 1, [] => .error (.expected .value 0)
  | steps + 1, head :: rest =>
    if isChar '"' head then
      (string rest).map fun (content, rest) => (.text content, rest)
    else if isChar '{' head then
      match skipSpaces rest with
      | [] => entries steps [] []
      | close :: more =>
        if isChar '}' close then .ok (.table [], more) else entries steps [] (close :: more)
    else if isChar '[' head then
      match skipSpaces rest with
      | [] => items steps [] []
      | close :: more =>
        if isChar ']' close then .ok (.list [], more) else items steps [] (close :: more)
    else
      match word? (head :: rest) with
      | some found => .ok found
      | none =>
        match number? (head :: rest) with
        | some reading => reading
        | none => .error (.expected .value (rest.length + 1))

/-- Reads the items of a list from the next item on, given the reversed items so far. -/
def items : Nat → List Data → Text → Except Stop (Data × Text)
  | 0, _, text => .error (.expected .value text.length)
  | steps + 1, done, text =>
    match value steps text with
    | .error stop => .error stop
    | .ok (item, rest) =>
      match skipSpaces rest with
      | [] => .error (.expected .comma 0)
      | mark :: more =>
        if isChar ']' mark then .ok (.list (item :: done).reverse, more)
        else if isChar ',' mark then items steps (item :: done) (skipSpaces more)
        else .error (.expected .comma (more.length + 1))

/-- Reads the entries of a table from the next key on, given the reversed mentions so far. -/
def entries : Nat → List (Text × Data) → Text → Except Stop (Data × Text)
  | 0, _, text => .error (.expected .propertyName text.length)
  | _ + 1, _, [] => .error (.expected .propertyName 0)
  | steps + 1, done, quote :: text =>
    if !isChar '"' quote then .error (.expected .propertyName (text.length + 1))
    else
      match string text with
      | .error stop => .error stop
      | .ok (key, rest) =>
        match skipSpaces rest with
        | [] => .error (.expected .colon 0)
        | colon :: rest =>
          if !isChar ':' colon then .error (.expected .colon (rest.length + 1))
          else
            match value steps (skipSpaces rest) with
            | .error stop => .error stop
            | .ok (found, rest) =>
              match skipSpaces rest with
              | [] => .error (.expected .comma 0)
              | mark :: more =>
                if isChar '}' mark then .ok (Data.tableOf ((key, found) :: done).reverse, more)
                else if isChar ',' mark then entries steps ((key, found) :: done) (skipSpaces more)
                else .error (.expected .comma (more.length + 1))

end

def whole (text : Text) : Except Stop Data :=
  match value (2 * text.length + 1) (skipSpaces text) with
  | .error stop => .error stop
  | .ok (data, rest) =>
    match skipSpaces rest with
    | [] => .ok data
    | extra => .error (.expected .endOfText extra.length)

/-- The line and column of a position, both counted from one. -/
def place (text : Text) (position : Nat) : Nat × Nat :=
  let before := text.take position
  let lines := before.countP (isChar '\n')
  let column := (before.reverse.takeWhile fun point => !isChar '\n' point).length
  (lines + 1, column + 1)

def Stop.locate (text : Text) : Stop → Fault
  | .tooManyDigits count => .tooManyDigits count
  | .expected what left =>
    let position := text.length - left
    let (line, column) := place text position
    .malformed what position line column

/-- Reads a text that was decoded from bytes in an encoding of JSON. -/
def readDecoded (text : Text) : Except Fault Data := (whole text).mapError (Stop.locate text)

/-- Reads a text of characters, which must not begin with a byte order mark. -/
def read (text : Text) : Except Fault Data :=
  match text.head? with
  | some (.scalar '\uFEFF') => .error (Stop.locate text (.expected .noByteOrderMark text.length))
  | _ => readDecoded text

end ProtocolGen.Json
