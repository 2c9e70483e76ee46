import RationalCalculator.Fraction.Basic
import RationalCalculator.Rounding

/-!
# Binary approximation of fractions

A `Double` is a finite number of the binary64 format: a sign and a significand below `2 ^ 53`
times a power of two, the power as small as the format allows. `Double.nearest` rounds a
fraction once, halves to the even significand, with gradual underflow to a zero that keeps the
sign. From `2 ^ 1024 - 2 ^ 970` on, half a unit above the largest finite number, it overflows.
-/

namespace RationalCalculator

/-- A finite binary64 number, `significand * 2 ^ exponent` with a sign. -/
structure Double where
  negative : Bool
  significand : Nat
  exponent : Int
  deriving DecidableEq, Repr

namespace Double

def precision : Nat := 53

def leastExponent : Int := -1074

def greatestExponent : Int := 971

inductive Overflow where
  | overflow
  deriving DecidableEq, Repr

def Overflow.message (_ : Overflow) : String := "integer division result too large for a float"

/-- The power of two at or below the positive quotient `n / d`, as an exponent. -/
def binaryExponent (n d : Nat) : Int :=
  let e : Int := n.log2 - d.log2
  if n * Nat.pow 2 (-e).toNat < d * Nat.pow 2 e.toNat then e - 1 else e

/-- The nearest multiple of `2 ^ e` to `n / d`, counted in these units. -/
def roundToUnit (n d : Nat) (e : Int) : Nat :=
  roundHalfEven (n * Nat.pow 2 (-e).toNat) (d * Nat.pow 2 e.toNat)

/-- The binary64 number nearest to a fraction. -/
def nearest (f : Fraction) : Except Overflow Double :=
  if f.num = 0 then .ok ⟨false, 0, leastExponent⟩
  else
    let n := f.num.natAbs
    let e := max (binaryExponent n f.den - (precision - 1)) leastExponent
    let m := roundToUnit n f.den e
    let (m, e) :=
      if m = Nat.pow 2 precision then (Nat.pow 2 (precision - 1), e + 1) else (m, e)
    if greatestExponent < e then .error .overflow else .ok ⟨f.num < 0, m, e⟩

/-- The 64 bits of the format, as a number: sign, biased exponent, and the significand without
its leading bit unless the number is subnormal. -/
def bits (x : Double) : Nat :=
  let hidden := Nat.pow 2 (precision - 1)
  let sign := if x.negative then Nat.pow 2 63 else 0
  if x.significand < hidden then sign + x.significand
  else sign + (x.exponent - leastExponent + 1).toNat * hidden + (x.significand - hidden)

/-- The numerator and the denominator of the magnitude. -/
def magnitude (x : Double) : Nat × Nat :=
  (x.significand * Nat.pow 2 x.exponent.toNat, Nat.pow 2 (-x.exponent).toNat)

def isInt (x : Double) (n : Int) : Bool :=
  let (p, q) := x.magnitude
  (if x.negative then -(p : Int) else p) == n * q

/-- Are the numbers equal? The two zeros are. -/
def isEqual (x y : Double) : Bool :=
  (x.significand == 0 && y.significand == 0) || x == y

end Double

end RationalCalculator
