/-!
# Double precision numbers

A double is held as its sixty-four bits, so two doubles are equal exactly when
they are the same number with the same sign of zero.  Arithmetic is exact on
natural numbers and rounds once, to the nearest double and to the even one of
two nearest.
-/

namespace ContentSchema

/-- A double precision number, given by its sixty-four bits. -/
structure Double where
  bits : UInt64
deriving DecidableEq, Repr

namespace Double

/-- Whether the sign bit is set. -/
def isNegative (d : Double) : Bool :=
  d.bits >>> 63 != 0

/-- The eleven exponent bits. -/
def exponentField (d : Double) : Nat :=
  ((d.bits >>> 52) &&& 0x7ff).toNat

/-- The fifty-two fraction bits. -/
def fraction (d : Double) : Nat :=
  (d.bits &&& 0xfffffffffffff).toNat

/-- Whether the double is a number, neither infinite nor undefined. -/
def isFinite (d : Double) : Bool :=
  d.exponentField < 2047

/-- The integer `m` in the magnitude `m * 2 ^ exponent`. -/
def significand (d : Double) : Nat :=
  if d.exponentField = 0 then d.fraction else d.fraction + 0x10000000000000

/-- The exponent `q` in the magnitude `significand * 2 ^ q`. -/
def exponent (d : Double) : Int :=
  (max 1 d.exponentField : Nat) - 1075

/-- Whether the double is one of the two zeros. -/
def isZero (d : Double) : Bool :=
  d.isFinite && d.significand == 0

/-- The same magnitude with the other sign. -/
def neg (d : Double) : Double :=
  ⟨d.bits ^^^ 0x8000000000000000⟩

/-- The positive zero. -/
def zero : Double := ⟨0⟩

/-- Positive infinity, which no finite ratio below the overflow bound reaches. -/
def infinity : Double := ⟨0x7ff0000000000000⟩

/-- The undefined number with a clear sign bit. -/
def undefined : Double := ⟨0x7ff8000000000000⟩

/-- The magnitude as a fraction of natural numbers. -/
def ratio (d : Double) : Nat × Nat :=
  if 0 ≤ d.exponent then (d.significand * Nat.pow 2 d.exponent.toNat, 1)
  else (d.significand, Nat.pow 2 (-d.exponent).toNat)

/-- The quotient of `num / den` by `2 ^ q`, rounded to the nearest integer and
to the even one at a tie. -/
def roundQuotient (num den : Nat) (q : Int) : Nat :=
  let scaledNum := if 0 ≤ q then num else num * Nat.pow 2 (-q).toNat
  let scaledDen := if 0 ≤ q then den * Nat.pow 2 q.toNat else den
  let floor := scaledNum / scaledDen
  let twice := 2 * (scaledNum % scaledDen)
  if scaledDen < twice || (twice == scaledDen && floor % 2 == 1) then floor + 1 else floor

/-- The integer part of the quotient of `num / den` by `2 ^ q`. -/
def floorQuotient (num den : Nat) (q : Int) : Nat :=
  if 0 ≤ q then num / (den * Nat.pow 2 q.toNat) else num * Nat.pow 2 (-q).toNat / den

/-- The double nearest to `num / den`, or infinity beyond the largest one. -/
def ofRatio (num den : Nat) : Double :=
  if num = 0 || den = 0 then zero
  else
    let estimate : Int := max ((num.log2 : Int) - den.log2 - 53) (-1074)
    let q := if 0x20000000000000 ≤ floorQuotient num den estimate then estimate + 1 else estimate
    let m := roundQuotient num den q
    let field := (q + 1075).toNat
    if 2047 ≤ field || (field = 2046 && 0x20000000000000 ≤ m) then infinity
    else if m < 0x10000000000000 then ⟨m.toUInt64⟩
    else ⟨(field * 0x10000000000000 + (m - 0x10000000000000)).toUInt64⟩

/-- The double nearest to a natural number. -/
def ofNat (n : Nat) : Double :=
  ofRatio n 1

/-- The rounded product of two magnitudes. -/
def mulMagnitude (a b : Double) : Double :=
  ofRatio (a.ratio.1 * b.ratio.1) (a.ratio.2 * b.ratio.2)

/-- The rounded quotient of two magnitudes. -/
def divMagnitude (a b : Double) : Double :=
  ofRatio (a.ratio.1 * b.ratio.2) (a.ratio.2 * b.ratio.1)

/-- The double nearest to `digits * 10 ^ scale`, rounded once. -/
def ofDecimal (digits : Nat) (scale : Int) : Double :=
  let width : Int := (Nat.toDigits 10 digits).length
  if digits = 0 || width + scale < -400 then zero
  else if 400 < width + scale then infinity
  else if 0 ≤ scale then ofRatio (digits * Nat.pow 10 scale.toNat) 1
  else ofRatio digits (Nat.pow 10 (-scale).toNat)

/-- The double nearest to a power of ten. -/
def powerOfTen (k : Nat) : Double :=
  ofNat (Nat.pow 10 k)

/-- Scale a rounded integer by a power of ten held as a double.  The integer,
the power and the result are each rounded, and a scale below -308 is applied
in two steps.  `none` stands for a magnitude beyond the largest double. -/
def scaled (digits : Nat) (scale : Int) : Option Double :=
  let base := ofNat digits
  if 308 < scale then
    if base.isZero then some base else none
  else if 0 ≤ scale then
    let product := base.mulMagnitude (powerOfTen scale.toNat)
    if product.isFinite then some product else none
  else if -308 ≤ scale then
    some (base.divMagnitude (powerOfTen (-scale).toNat))
  else if -616 ≤ scale then
    some ((base.divMagnitude (powerOfTen 308)).divMagnitude (powerOfTen (-scale - 308).toNat))
  else some zero

end Double

end ContentSchema
