import ProtocolGen.Data
import ProtocolGen.Text.Blank
import ProtocolGen.Yaml.Cursor

/-!
# Values of YAML scalars

Which words of a plain scalar stand for something other than text, and the value of a scalar by its
tag. The two versions of the notation differ in the words for truth values, in octal numbers, and in
numbers to base sixty.
-/

set_option autoImplicit false

namespace ProtocolGen.Yaml

inductive Tag where
  | null
  | boolean
  | integer
  | float
  | binary
  | timestamp
  | orderedMap
  | pairs
  | set
  | string
  | sequence
  | mapping
  /-- The key under which other mappings are taken in. -/
  | merge
  /-- The key of a mapping's own value. -/
  | default
  | unknown
  deriving DecidableEq, Repr, Inhabited

def standardTags : List (String × Tag) := [
  ("null", .null), ("bool", .boolean), ("int", .integer), ("float", .float), ("binary", .binary),
  ("timestamp", .timestamp), ("omap", .orderedMap), ("pairs", .pairs), ("set", .set),
  ("str", .string), ("seq", .sequence), ("map", .mapping)]

def Tag.ofAddress (address : List Char) : Tag :=
  match standardTags.find? fun entry => ("tag:yaml.org,2002:" ++ entry.1).toList == address with
  | some entry => entry.2
  | none => .unknown

def isWord (words : List String) (text : List Char) : Bool :=
  words.any fun word => word.toList == text

def nullWords : List String := ["", "~", "null", "Null", "NULL"]

def truthWords : List String := ["true", "True", "TRUE", "false", "False", "FALSE"]

/-- The words for truth values that only the older version has. -/
def oldTruthWords : List String := [
  "y", "Y", "yes", "Yes", "YES", "n", "N", "no", "No", "NO", "on", "On", "ON", "off", "Off", "OFF"]

def withoutSign : List Char → List Char
  | '-' :: rest | '+' :: rest => rest
  | rest => rest

def isSome1 (inClass : Char → Bool) (text : List Char) : Bool := !text.isEmpty && text.all inClass

def isSpacedDigit (char : Char) : Bool := char.isDigit || char == '_'

def isSpacedOctal (char : Char) : Bool := ('0' ≤ char && char ≤ '7') || char == '_'

/-- Whether a text is the exponent of a number. The sign may be asked for. -/
def isExponent (signed : Bool) : List Char → Bool
  | letter :: rest =>
    (letter == 'e' || letter == 'E') &&
      (if signed then withoutSign rest != rest else true) && isSome1 Char.isDigit (withoutSign rest)
  | [] => false

/-- Whether a text is what may stand behind the first digits of a number with a point or an
exponent. -/
def isDecimalTail : List Char → Bool
  | '.' :: more =>
    let after := more.dropWhile isSpacedDigit
    after.isEmpty || isExponent false after
  | rest => isExponent false rest

/-- Whether a text has the form of digits, a point and digits, or of digits, with an exponent in
the second case and possibly one in the first. -/
def isDecimalForm (text : List Char) : Bool :=
  match text with
  | first :: _ => first.isDigit && isDecimalTail (text.dropWhile isSpacedDigit)
  | [] => false

def isPointForm (text : List Char) : Bool :=
  match text with
  | '.' :: digits =>
    let after := digits.dropWhile isSpacedDigit
    after.length < digits.length && (after.isEmpty || isExponent true after)
  | _ => false

/-- Whether a text is parts to base sixty behind a first number: each is a colon and one or two
digits, the first of two being at most five. -/
def isSexagesimalTail : List Char → Bool
  | [':', a] => a.isDigit
  | ':' :: a :: ':' :: rest => a.isDigit && isSexagesimalTail (':' :: rest)
  | [':', a, b] => '0' ≤ a && a ≤ '5' && b.isDigit
  | ':' :: a :: b :: ':' :: rest =>
    '0' ≤ a && a ≤ '5' && b.isDigit && isSexagesimalTail (':' :: rest)
  | _ => false

def isSexagesimal (text : List Char) : Bool :=
  match text with
  | first :: _ =>
    '1' ≤ first && first ≤ '9' && isSexagesimalTail (text.dropWhile isSpacedDigit)
  | [] => false

def isSexagesimalFloat (text : List Char) : Bool :=
  match text with
  | first :: _ =>
    let whole := text.takeWhile (· != '.')
    let after := text.drop (whole.length + 1)
    first.isDigit && whole.length < text.length && after.all isSpacedDigit &&
      isSexagesimalTail (whole.dropWhile isSpacedDigit)
  | [] => false

/-- Whether a plain scalar has the form of a floating-point number. -/
def isFloatForm (version : Version) (text : List Char) : Bool :=
  let unsigned := withoutSign text
  isDecimalForm unsigned ||
    isPointForm (if version == Version.old then text else unsigned) ||
    (version == Version.old && isSexagesimalFloat unsigned) ||
    isWord [".inf", ".Inf", ".INF"] unsigned || isWord [".nan", ".NaN", ".NAN"] text

def isIntegerForm (version : Version) (text : List Char) : Bool :=
  let begins := (text.head?.map fun first => first.isDigit || first == '-' || first == '+').getD false
  begins &&
    match withoutSign text with
    | '0' :: 'b' :: digits => isSome1 (fun char => char == '0' || char == '1' || char == '_') digits
    | '0' :: 'x' :: digits =>
      isSome1 (fun char => isSpacedDigit char || ('a' ≤ char && char ≤ 'f') ||
        ('A' ≤ char && char ≤ 'F')) digits
    | '0' :: 'o' :: digits => version != Version.old && isSome1 isSpacedOctal digits
    | unsigned =>
      if version == Version.old then
        isSome1 isSpacedOctal unsigned ||
          ((unsigned.head?.map fun first => '1' ≤ first && first ≤ '9').getD false &&
            unsigned.all isSpacedDigit) || isSexagesimal unsigned
      else isSome1 isSpacedDigit unsigned

structure Timestamp where
  day : Day
  clock : Option (Nat × Nat × Nat)
  /-- The digits of the fraction of a second. -/
  fraction : List Char
  /-- The sign, hours and minutes of a distance from universal time. -/
  zone : Option (Bool × Nat × Nat)
  deriving Repr

def decimalNumber (digits : List Char) : Nat :=
  digits.foldl (fun number char => number * 10 + (char.toNat - '0'.toNat)) 0

/-- One or two digits at the head of a text, as many as there are. -/
def shortDigits? (least : Nat) (text : List Char) : Option (Nat × List Char) :=
  let digits := (text.take 2).takeWhile Char.isDigit
  if digits.length < least then none else some (decimalNumber digits, text.drop digits.length)

def behind? (char : Char) : List Char → Option (List Char)
  | head :: rest => if head == char then some rest else none
  | [] => none

def isBlankChar (char : Char) : Bool := char == ' ' || char == '\t'

/-- The distance from universal time that a text writes, which may be none. -/
def zone? (text : List Char) : Option (Option (Bool × Nat × Nat)) :=
  if text.isEmpty then some none
  else
    match text.dropWhile isBlankChar with
    | ['Z'] => some none
    | sign :: rest =>
      if sign == '-' || sign == '+' then do
        let (hours, rest) ← shortDigits? 1 rest
        if rest.isEmpty then some (some (sign == '-', hours, 0))
        else
          let rest ← behind? ':' rest
          let (minutes, rest) ← shortDigits? 2 rest
          if rest.isEmpty then some (some (sign == '-', hours, minutes)) else none
      else none
    | [] => none

def clock? (day : Day) (text : List Char) : Option Timestamp := do
  let rest ←
    match text with
    | 'T' :: rest | 't' :: rest => some rest
    | _ =>
      let rest := text.dropWhile isBlankChar
      if rest.length < text.length then some rest else none
  let (hour, rest) ← shortDigits? 1 rest
  let (minute, rest) ← (behind? ':' rest).bind (shortDigits? 2)
  let (second, rest) ← (behind? ':' rest).bind (shortDigits? 2)
  let (fraction, rest) :=
    match rest with
    | '.' :: digits => (digits.takeWhile Char.isDigit, digits.dropWhile Char.isDigit)
    | _ => ([], rest)
  let zone ← zone? rest
  some ⟨day, some (hour, minute, second), fraction, zone⟩

def timestamp? (text : List Char) : Option Timestamp := do
  let year := text.take 4
  if !(year.length == 4 && year.all Char.isDigit) then none
  let rest ← behind? '-' (text.drop 4)
  let (month, rest) ← shortDigits? 1 rest
  let (day, rest) ← (behind? '-' rest).bind (shortDigits? 1)
  let day : Day := ⟨decimalNumber year, month, day⟩
  if rest.isEmpty then some ⟨day, none, [], none⟩ else clock? day rest

/-- Whether a plain scalar has the form of a moment. A date alone has two digits for its month and
its day. -/
def isTimestampForm (text : List Char) : Bool :=
  match timestamp? text with
  | some found => found.clock.isSome || text.length == 10
  | none => false

def plainTag (version : Version) (text : List Char) : Tag :=
  if isWord truthWords text || (version == Version.old && isWord oldTruthWords text) then .boolean
  else if isFloatForm version text then .float
  else if isIntegerForm version text then .integer
  else if text == ['<', '<'] then .merge
  else if isWord nullWords text then .null
  else if isTimestampForm text then .timestamp
  else if text == ['='] then .default
  else .string

def digitValue? (base : Nat) (char : Char) : Option Nat :=
  let value :=
    if char.isDigit then char.toNat - '0'.toNat
    else if 'a' ≤ char && char ≤ 'f' then char.toNat - 'a'.toNat + 10
    else if 'A' ≤ char && char ≤ 'F' then char.toNat - 'A'.toNat + 10
    else 16
  if value < base then some value else none

def maximumDigits : Nat := 4300

/-- The integer that a text writes in a base, blanks around it and a sign being allowed. -/
def integerOf (base : Nat) (text : List Char) : Except Fault Int :=
  let complaint : Except Fault Int :=
    .error (.meaningless ("invalid literal for int() with base " ++ toString base ++ ": " ++
      Text.literalOf (String.ofList text)))
  let trimmed := Text.dropEndWhile isBlankChar (text.dropWhile isBlankChar)
  let digits := withoutSign trimmed
  if digits.isEmpty then complaint
  else
    match digits.mapM (digitValue? base) with
    | none => complaint
    | some values =>
      if base == 10 && maximumDigits < values.length then
        .error (.meaningless
          ("Exceeds the limit (4300 digits) for integer string conversion: value has " ++
            toString values.length ++
            " digits; use sys.set_int_max_str_digits() to increase the limit"))
      else
        let magnitude := values.foldl (fun number digit => number * base + digit) 0
        .ok (if trimmed.head? == some '-' then -(magnitude : Int) else magnitude)

def sexagesimal (parts : List Int) : Int := parts.foldl (fun number part => number * 60 + part) 0

def integerScalar (version : Version) (content : List Char) : Except Fault Int :=
  let text := content.filter (· != '_')
  match text with
  | [] => .error .emptyScalar
  | first :: _ =>
    let signed (value : Except Fault Int) : Except Fault Int :=
      if first == '-' then value.map fun number => -number else value
    match withoutSign text with
    | ['0'] => .ok 0
    | '0' :: 'b' :: digits => signed (integerOf 2 digits)
    | '0' :: 'x' :: digits => signed (integerOf 16 digits)
    | '0' :: 'o' :: digits => signed (integerOf 8 digits)
    | unsigned =>
      if version == Version.old && unsigned.isEmpty then .error .emptyScalar
      else if version == Version.old && unsigned.head? == some '0' then
        signed (integerOf 8 unsigned)
      else if version == Version.old && unsigned.contains ':' then
        signed (((Text.splitOn [':'] unsigned).mapM (integerOf 10)).map sexagesimal)
      else signed (integerOf 10 unsigned)

/-- The number that digits with a point and an exponent write, blanks around it and a sign being
allowed, as are the words for infinity and for what is no number. -/
def floatOf (text : List Char) : Except Fault Binary64 :=
  let complaint : Except Fault Binary64 :=
    .error (.meaningless ("could not convert string to float: " ++
      Text.literalOf (String.ofList text)))
  let trimmed := Text.dropEndWhile isBlankChar (text.dropWhile isBlankChar)
  let negative := trimmed.head? == some '-'
  let unsigned := withoutSign trimmed
  if isWord ["inf", "infinity"] unsigned then .ok (Binary64.infinity negative)
  else if isWord ["nan"] unsigned then .ok Binary64.notANumber
  else
    let whole := unsigned.takeWhile Char.isDigit
    let rest := unsigned.drop whole.length
    let (decimals, rest) :=
      match rest with
      | '.' :: more => (more.takeWhile Char.isDigit, more.dropWhile Char.isDigit)
      | _ => ([], rest)
    if whole.isEmpty && decimals.isEmpty then complaint
    else if !rest.isEmpty && !isExponent false rest then complaint
    else
      let power : Int := decimalNumber (withoutSign (rest.drop 1))
      let power := if rest[1]? == some '-' then -power else power
      .ok (Binary64.ofDecimal negative (decimalNumber (whole ++ decimals))
        (power - decimals.length))

/-- The sum of a number's product with sixty and another number, rounded. -/
def sixtyTimes (number part : Binary64) : Binary64 :=
  match number.toFraction?, part.toFraction? with
  | some (a, b), some (c, d) =>
    Binary64.ofQuotient false (a.natAbs * 60 * d + c.natAbs * b) (b * d)
  | _, _ => Binary64.notANumber

def negatedIf (negative : Bool) (number : Binary64) : Binary64 :=
  if negative then ⟨number.bits ^^^ 0x8000000000000000⟩ else number

def floatScalar (version : Version) (content : List Char) : Except Fault Binary64 :=
  let text := (content.filter (· != '_')).map Text.lowerAscii
  match text with
  | [] => .error .emptyScalar
  | first :: _ =>
    let unsigned := withoutSign text
    let value : Except Fault Binary64 :=
      if unsigned == ".inf".toList then .ok (Binary64.infinity false)
      else if unsigned == ".nan".toList then .ok Binary64.notANumber
      else if version != Version.current && unsigned.contains ':' then
        ((Text.splitOn [':'] unsigned).mapM floatOf).map fun parts =>
          parts.foldl sixtyTimes (Binary64.zero false)
      else floatOf unsigned
    value.map fun number =>
      if number.isNotANumber then number else negatedIf (first == '-') number

/-- The truth value of a scalar. What is no word for one is looked up like one, and not found. -/
def truthScalar (content : List Char) : Except Fault Bool :=
  let text := content.map Text.lowerAscii
  if isWord ["yes", "y", "true", "on"] text then .ok true
  else if isWord ["no", "n", "false", "off"] text then .ok false
  else .error (.meaningless (Text.literalOf (String.ofList text)))

/-- The microseconds of a fraction of a second, rounded from its seventh digit, and whether that
makes a whole second. -/
def microseconds (fraction : List Char) : Nat × Bool :=
  let digits := fraction.take 6
  let whole := decimalNumber (digits ++ List.replicate (6 - digits.length) '0')
  let up : Bool := match fraction[6]? with
    | some digit => decide ('4' < digit)
    | none => false
  let rounded := whole + up.toNat
  if 999999 < rounded then (0, true) else (rounded, false)

/-- The moment of a scalar. A distance from universal time is taken away, so that the moment is in
universal time. -/
def timestampScalar (content : List Char) : Except Fault Moment :=
  match timestamp? content with
  | none => .error .malformed
  | some found =>
    match found.clock with
    | none =>
      match found.day.complaint? with
      | some words => .error (.meaningless words)
      | none => .ok (.date found.day)
    | some (hour, minute, second) =>
      let (micro, carried) := microseconds found.fraction
      let clock : Clock := ⟨hour, minute, second, micro⟩
      match found.day.complaint? <|> clock.complaint? with
      | some words => .error (.meaningless words)
      | none =>
        let carry : Int := if carried then 1 else 0
        let shift : Int :=
          match found.zone with
          | none => -carry
          | some (negative, hours, minutes) =>
            let distance : Int := hours * 3600 + minutes * 60 + carry
            if negative then -distance else distance
        if shift == 0 then .ok (.dateTime found.day clock none)
        else
          match shiftBack found.day clock shift with
          | some (day, clock) => .ok (.dateTime day clock none)
          | none => .error (.meaningless "date value out of range")

def sextet? (char : Char) : Option Nat :=
  if char.isUpper then some (char.toNat - 'A'.toNat)
  else if char.isLower then some (char.toNat - 'a'.toNat + 26)
  else if char.isDigit then some (char.toNat - '0'.toNat + 52)
  else if char == '+' then some 62
  else if char == '/' then some 63
  else none

/-- The octets that groups of four letters write, the last group being shorter. -/
def octetsOf : List Nat → Option (List UInt8)
  | a :: b :: c :: d :: rest =>
    (octetsOf rest).map fun octets =>
      UInt8.ofNat (a * 4 + b / 16) :: UInt8.ofNat (b % 16 * 16 + c / 4) ::
        UInt8.ofNat (c % 4 * 64 + d) :: octets
  | [a, b, c] => some [UInt8.ofNat (a * 4 + b / 16), UInt8.ofNat (b % 16 * 16 + c / 4)]
  | [a, b] => some [UInt8.ofNat (a * 4 + b / 16)]
  | [_] => none
  | [] => some []

/-- The octets of a scalar. The marks at the end fill the last group up. -/
def binaryScalar (content : List Char) : Except Fault (List UInt8) :=
  let letters := (content.takeWhile (· != '=')).filterMap sextet?
  let marks := (content.filter (· == '=')).length
  if content.any fun char => 0x7F < char.toNat then .error .malformed
  else if letters.length % 4 != 0 && letters.length % 4 + marks < 4 then .error .malformed
  else
    match octetsOf letters with
    | some octets => .ok octets
    | none => .error .malformed

end ProtocolGen.Yaml
