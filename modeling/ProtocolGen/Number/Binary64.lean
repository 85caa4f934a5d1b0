/-!
# Binary floating-point numbers

Numbers of the 64-bit binary format by their bits. Only three things are ever done with one: it is
read from decimal digits, rounding to nearest with ties to even; it is taken apart into an exact
fraction; and it is compared with another exactly.
-/

set_option autoImplicit false

namespace ProtocolGen

structure Binary64 where
  bits : UInt64
  deriving DecidableEq, Repr, Inhabited

namespace Binary64

def isNegative (x : Binary64) : Bool := x.bits.toNat / Nat.pow 2 63 == 1

def exponentField (x : Binary64) : Nat := x.bits.toNat / Nat.pow 2 52 % Nat.pow 2 11

def fractionField (x : Binary64) : Nat := x.bits.toNat % Nat.pow 2 52

def isInfinite (x : Binary64) : Bool := x.exponentField == 2047 && x.fractionField == 0

def isNotANumber (x : Binary64) : Bool := x.exponentField == 2047 && x.fractionField != 0

def significand (x : Binary64) : Nat :=
  if x.exponentField == 0 then x.fractionField else Nat.pow 2 52 + x.fractionField

/-- The power of two that the significand of a finite number counts. -/
def scale (x : Binary64) : Int := (max x.exponentField 1 : Nat) - 1075

def ofMagnitudeBits (negative : Bool) (magnitude : Nat) : Binary64 :=
  ⟨UInt64.ofNat (if negative then Nat.pow 2 63 + magnitude else magnitude)⟩

def infinity (negative : Bool) : Binary64 := ofMagnitudeBits negative (2047 * Nat.pow 2 52)

def notANumber : Binary64 := ofMagnitudeBits false (2047 * Nat.pow 2 52 + Nat.pow 2 51)

def zero (negative : Bool) : Binary64 := ofMagnitudeBits negative 0

/-- A quotient rounded to the nearest integer, a half going to the even one. -/
def roundQuotient (numerator denominator : Nat) : Nat :=
  let quotient := numerator / denominator
  let rest := numerator % denominator
  if 2 * rest > denominator || (2 * rest == denominator && quotient % 2 == 1) then quotient + 1
  else quotient

/-- A quotient of positive integers in the format, rounded to nearest with ties to even. The
exponent is the one that gives the quotient 53 bits, but not below the least of the format. The
rounded significand is added to the exponent's bits, so that a carry moves to the next exponent. -/
def ofQuotient (negative : Bool) (numerator denominator : Nat) : Binary64 :=
  let estimate : Int := (numerator.log2 : Int) - (denominator.log2 : Int) - 52
  let fits (exponent : Int) : Bool :=
    if 0 ≤ exponent then denominator * Nat.pow 2 (exponent.toNat + 52) ≤ numerator
    else denominator * Nat.pow 2 52 ≤ numerator * Nat.pow 2 (-exponent).toNat
  let exponent := max (if fits estimate then estimate else estimate - 1) (-1074)
  let rounded :=
    if 0 ≤ exponent then roundQuotient numerator (denominator * Nat.pow 2 exponent.toNat)
    else roundQuotient (numerator * Nat.pow 2 (-exponent).toNat) denominator
  let magnitude := (exponent + 1074).toNat * Nat.pow 2 52 + rounded
  if 2047 * Nat.pow 2 52 ≤ magnitude then infinity negative else ofMagnitudeBits negative magnitude

def decimalLength (number : Nat) : Nat := (Nat.toDigits 10 number).length

/-- The number nearest to `digits · 10 ^ exponent`. Powers far outside the format's range are not
computed. -/
def ofDecimal (negative : Bool) (digits : Nat) (exponent : Int) : Binary64 :=
  if digits == 0 then zero negative
  else
    let order := (decimalLength digits : Int) + exponent
    if order > 400 then infinity negative
    else if order < -400 then zero negative
    else if 0 ≤ exponent then ofQuotient negative (digits * Nat.pow 10 exponent.toNat) 1
    else ofQuotient negative digits (Nat.pow 10 (-exponent).toNat)

def fraction (x : Binary64) : Nat × Nat :=
  if 0 ≤ x.scale then (x.significand * Nat.pow 2 x.scale.toNat, 1)
  else (x.significand, Nat.pow 2 (-x.scale).toNat)

def toFraction? (x : Binary64) : Option (Int × Nat) :=
  if x.exponentField == 2047 then none
  else
    let (numerator, denominator) := x.fraction
    some (if x.isNegative then -(numerator : Int) else numerator, denominator)

def equalsInteger (x : Binary64) (integer : Int) : Bool :=
  match x.toFraction? with
  | some (numerator, denominator) => numerator == integer * denominator
  | none => false

/-- Numeric equality: the two zeros are equal, and what is no number equals nothing. -/
def numericallyEqual (x y : Binary64) : Bool :=
  !x.isNotANumber && !y.isNotANumber &&
    (x == y || (x.bits.toNat % Nat.pow 2 63 == 0 && y.bits.toNat % Nat.pow 2 63 == 0))

end Binary64

end ProtocolGen
