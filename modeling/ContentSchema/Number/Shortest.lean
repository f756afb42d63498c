import ContentSchema.Number.Double

/-!
# Shortest decimal of a double

A finite double is written with the fewest digits that read back as the same
double, and with the nearest such digits.  The search is over decimal grids:
for one digit, two digits and so on, the two points of the grid around the
value are tested against the interval of reals that round to it.

The layout is positional while the decimal point falls within the first
sixteen digits or at most four zeros follow it; otherwise an exponent is
written.  A point or an exponent always marks the text as a double.  Whether an
exponent that is not negative carries a sign depends on the notation.
-/

namespace ContentSchema
namespace Double

/-- Digits and the power of ten of their last place. -/
structure Decimal where
  digits : Nat
  scale : Int
deriving DecidableEq, Repr

/-- Drop zeros at the end of the digits, keeping the value. -/
def Decimal.trim (fuel : Nat) (d : Decimal) : Decimal :=
  match fuel with
  | 0 => d
  | fuel + 1 =>
      if d.digits ≠ 0 ∧ d.digits % 10 = 0 then
        trim fuel ⟨d.digits / 10, d.scale + 1⟩
      else d

/-- The reals that round to a double, in units in which its value and both
bounds are natural numbers over `unit`. -/
structure Interval where
  low : Nat
  value : Nat
  high : Nat
  unit : Nat
  closed : Bool

/-- The interval of a nonzero finite double: half a unit in the last place on
either side, a quarter below a power of two, closed when the significand is
even. -/
def interval (d : Double) : Interval :=
  let m := d.significand
  let below := if d.fraction = 0 ∧ 1 < d.exponentField then 1 else 2
  let q := d.exponent - 2
  let factor := if 0 ≤ q then Nat.pow 2 q.toNat else 1
  let unit := if 0 ≤ q then 1 else Nat.pow 2 (-q).toNat
  { low := (4 * m - below) * factor
    value := 4 * m * factor
    high := (4 * m + 2) * factor
    unit := unit
    closed := m % 2 == 0 }

/-- The interval measured in units of `10 ^ scale`. -/
def Interval.rescale (i : Interval) (scale : Int) : Interval :=
  if 0 ≤ scale then { i with unit := i.unit * Nat.pow 10 scale.toNat }
  else
    let factor := Nat.pow 10 (-scale).toNat
    { i with low := i.low * factor, value := i.value * factor, high := i.high * factor }

/-- Whether the integer `n`, in the units of the interval, rounds to the double. -/
def Interval.contains (i : Interval) (n : Nat) : Bool :=
  let point := n * i.unit
  if i.closed then i.low ≤ point && point ≤ i.high
  else i.low < point && point < i.high

/-- The power of ten of the leading digit. -/
def Interval.leadingPlace (i : Interval) : Int :=
  let estimate : Int :=
    (Nat.toDigits 10 i.value).length - (Nat.toDigits 10 i.unit).length
  let reached :=
    if 0 ≤ estimate then i.unit * Nat.pow 10 estimate.toNat ≤ i.value
    else i.unit ≤ i.value * Nat.pow 10 (-estimate).toNat
  if reached then estimate else estimate - 1

/-- The better of the two grid points around the value, if one rounds to it. -/
def Interval.nearest? (i : Interval) : Option Nat :=
  let floor := i.value / i.unit
  let up := (floor + 1) * i.unit - i.value
  let down := i.value - floor * i.unit
  match i.contains floor, i.contains (floor + 1) with
  | true, true => some (if up < down || (up == down && floor % 2 == 1) then floor + 1 else floor)
  | true, false => some floor
  | false, true => some (floor + 1)
  | false, false => none

/-- The fewest digits of a nonzero finite double that read back. -/
def shortest (d : Double) : Decimal :=
  let i := d.interval
  let place := i.leadingPlace
  let attempt (count : Nat) : Option Decimal :=
    let scale := place - count
    ((i.rescale scale).nearest?).map fun digits => ⟨digits, scale⟩
  let found := (List.range 17).findSome? attempt
  (found.getD ⟨0, 0⟩).trim 17

/-- The sign of an exponent that is not negative. -/
inductive ExponentSign where
  | written
  | omitted
deriving DecidableEq, Repr

/-- The text of an exponent. -/
def ExponentSign.render (sign : ExponentSign) (power : Int) : List Char :=
  let digits := (toString power).toList
  if 0 ≤ power ∧ sign = .written then 'e' :: '+' :: digits else 'e' :: digits

/-- The decimal text of a finite double. -/
def render (exponentSign : ExponentSign) (d : Double) : String :=
  let sign := if d.isNegative then "-" else ""
  if d.isZero then sign ++ "0.0"
  else
    let decimal := d.shortest
    let digits := Nat.toDigits 10 decimal.digits
    let count := digits.length
    let point : Int := count + decimal.scale
    let zeros (n : Int) : List Char := List.replicate n.toNat '0'
    let body : List Char :=
      if 0 ≤ decimal.scale ∧ point ≤ 16 then
        digits ++ zeros decimal.scale ++ ['.', '0']
      else if 0 < point ∧ point ≤ 16 then
        digits.take point.toNat ++ '.' :: digits.drop point.toNat
      else if -5 < point ∧ point ≤ 0 then
        '0' :: '.' :: zeros (-point) ++ digits
      else
        let power := exponentSign.render (point - 1)
        if count = 1 then digits ++ power
        else digits.take 1 ++ '.' :: digits.drop 1 ++ power
    sign ++ String.ofList body

end Double
end ContentSchema
