import ProtocolGen.Number.Binary64

/-!
# The shortest decimal that reads back

A finite nonzero number is written with the fewest significant digits whose value rounds back to
it, and among those with the digits nearest to it. The values that round to a number form an
interval around it, whose ends belong to it exactly when its significand is even. For each count of
digits only the two neighbours of the number on that decimal grid need to be tried: if any point of
the grid lies in the interval, one of these two does.
-/

set_option autoImplicit false

namespace ProtocolGen.Binary64

/-- The reals that round to a positive number, over one common denominator. -/
structure Interval where
  lower : Nat
  value : Nat
  upper : Nat
  denominator : Nat
  closed : Bool
  deriving Repr

/-- The interval of a finite nonzero number's magnitude. Below a power of two the lower neighbour
is half as far away, except where the exponent cannot decrease. -/
def interval (x : Binary64) : Interval :=
  let significand := x.significand
  let narrow := x.fractionField == 0 && 1 < x.exponentField
  let lower := 4 * significand - (if narrow then 1 else 2)
  let upper := 4 * significand + 2
  let closed := significand % 2 == 0
  if 0 ≤ x.scale then
    let factor := Nat.pow 2 x.scale.toNat
    ⟨lower * factor, 4 * significand * factor, upper * factor, 4, closed⟩
  else
    ⟨lower, 4 * significand, upper, 4 * Nat.pow 2 (-x.scale).toNat, closed⟩

/-- Whether the fraction `numerator / denominator` lies in an interval. -/
def Interval.contains (range : Interval) (numerator denominator : Nat) : Bool :=
  let scaled := numerator * range.denominator
  let lower := range.lower * denominator
  let upper := range.upper * denominator
  if range.closed then lower ≤ scaled && scaled ≤ upper else lower < scaled && scaled < upper

def powerAtMost (exponent : Int) (numerator denominator : Nat) : Bool :=
  if 0 ≤ exponent then denominator * Nat.pow 10 exponent.toNat ≤ numerator
  else denominator ≤ numerator * Nat.pow 10 (-exponent).toNat

/-- The greatest power of ten not above a positive fraction, from an estimate by binary logarithms
that is off by at most one. -/
def leadingPower (numerator denominator : Nat) : Int :=
  let binary : Int := (numerator.log2 : Int) - (denominator.log2 : Int)
  let estimate := Int.fdiv (binary * 30103) 100000
  if powerAtMost (estimate + 1) numerator denominator then estimate + 1
  else if powerAtMost estimate numerator denominator then estimate
  else estimate - 1

structure Decimal where
  digits : Nat
  exponent : Int
  deriving DecidableEq, Repr

/-- The neighbour of a number on the grid of multiples of a power of ten that reads back, the
nearer one when both do. -/
def onGrid? (range : Interval) (exponent : Int) : Option Decimal :=
  let up := Nat.pow 10 exponent.toNat
  let down := Nat.pow 10 (-exponent).toNat
  let below := range.value * down / (range.denominator * up)
  let above := below + 1
  let belowFits := range.contains (below * up) down
  let aboveFits := range.contains (above * up) down
  let twice := 2 * range.value * down
  let middle := (below + above) * up * range.denominator
  let belowNearer := twice < middle || (twice == middle && below % 2 == 0)
  if belowFits && (belowNearer || !aboveFits) then some ⟨below, exponent⟩
  else if aboveFits then some ⟨above, exponent⟩
  else none

/-- The first grid, from coarse to fine, with a decimal that reads back. -/
def firstDecimal (range : Interval) (power : Int) : Nat → Nat → Decimal
  | 0, _ => ⟨0, 0⟩
  | tries + 1, used =>
    match onGrid? range (power - used) with
    | some decimal => decimal
    | none => firstDecimal range power tries (used + 1)

/-- The shortest decimal of a finite nonzero number's magnitude. Seventeen digits always read
back. -/
def shortest (x : Binary64) : Decimal :=
  let range := x.interval
  firstDecimal range (leadingPower range.value range.denominator) 18 0

def dropEndZeros (digits : List Char) : List Char := (digits.reverse.dropWhile (· == '0')).reverse

def exponentText (exponent : Int) : String :=
  let digits := toString exponent.natAbs
  (if exponent < 0 then "-" else "+") ++ (if digits.length < 2 then "0" ++ digits else digits)

/-- The text of a decimal: positional from 10⁻⁴ up to 10¹⁶, with at least one digit after the
point, and with an exponent otherwise. -/
def Decimal.text (decimal : Decimal) : String :=
  let written := Nat.toDigits 10 decimal.digits
  let point : Int := (written.length : Int) + decimal.exponent
  let digits := dropEndZeros written
  if -4 < point && point ≤ 16 then
    if point ≤ 0 then "0." ++ String.ofList (List.replicate (-point).toNat '0' ++ digits)
    else
      let whole := digits.take point.toNat
      let whole := whole ++ List.replicate (point.toNat - whole.length) '0'
      let after := digits.drop point.toNat
      String.ofList whole ++ "." ++ (if after.isEmpty then "0" else String.ofList after)
  else
    let mantissa :=
      match digits with
      | [] => ""
      | [digit] => String.ofList [digit]
      | digit :: more => String.ofList (digit :: '.' :: more)
    mantissa ++ "e" ++ exponentText (point - 1)

/-- The text of a number, given the names for infinity and for what is no number. -/
def text (infinite undefined : String) (x : Binary64) : String :=
  let sign := if x.isNegative then "-" else ""
  if x.isNotANumber then undefined
  else if x.isInfinite then sign ++ infinite
  else if x.significand == 0 then sign ++ "0.0"
  else sign ++ x.shortest.text

end ProtocolGen.Binary64
