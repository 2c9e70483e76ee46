import RationalCalculator.Rounding

/-!
# Decimal text with a fixed number of significant digits

A positive quotient is rounded to a number of significant decimal digits, halves to even, and
written without trailing zeros: positionally for exponents in a middle range, and otherwise as
one digit, the others behind a point, and a signed exponent.
-/

namespace RationalCalculator

structure SignificantStyle where
  digits : Nat
  /-- Numbers from ten to this power on are written positionally, as long as their digits
  before the point are significant. -/
  leastPositional : Int
  /-- The least number of digits of an exponent. -/
  exponentWidth : Nat

namespace SignificantStyle

def digitCount (n : Nat) : Nat := (Nat.toDigits 10 n).length

/-- The power of ten at or below the positive quotient `n / d`, as an exponent. -/
def decimalExponent (n d : Nat) : Int :=
  if d ≤ n then (digitCount (n / d) : Int) - 1 else -(digitCount ((d - 1) / n) : Int)

/-- The significant digits of `n / d` as one number, and the exponent of the first of them. -/
def round (style : SignificantStyle) (n d : Nat) : Nat × Int :=
  let x := decimalExponent n d
  let s := (style.digits : Int) - 1 - x
  let m := roundHalfEven (n * Nat.pow 10 s.toNat) (d * Nat.pow 10 (-s).toNat)
  if m = Nat.pow 10 style.digits then (Nat.pow 10 (style.digits - 1), x + 1) else (m, x)

def trimZeros (ds : List Char) : List Char := (ds.reverse.dropWhile (· == '0')).reverse

/-- Digits before and after a point that is left out if nothing follows it. -/
def joinPoint (whole part : List Char) : List Char :=
  if part.isEmpty then whole else whole ++ '.' :: part

def exponentText (style : SignificantStyle) (x : Int) : List Char :=
  let ds := Nat.toDigits 10 x.natAbs
  'e' :: (if x < 0 then '-' else '+') :: List.replicate (style.exponentWidth - ds.length) '0' ++ ds

/-- The digits `ds`, the first of which counts `10 ^ x`. -/
def layout (style : SignificantStyle) (ds : List Char) (x : Int) : List Char :=
  if style.leastPositional ≤ x ∧ x < style.digits then
    if x < 0 then joinPoint ['0'] (List.replicate (-x - 1).toNat '0' ++ trimZeros ds)
    else joinPoint (ds.take (x.toNat + 1)) (trimZeros (ds.drop (x.toNat + 1)))
  else joinPoint (ds.take 1) (trimZeros (ds.drop 1)) ++ style.exponentText x

/-- The decimal text of `n / d`, with a minus sign if `negative`. -/
def text (style : SignificantStyle) (negative : Bool) (n d : Nat) : String :=
  let body :=
    if n = 0 then ['0']
    else
      let (m, x) := style.round n d
      style.layout (Nat.toDigits 10 m) x
  String.ofList (if negative then '-' :: body else body)

end SignificantStyle

end RationalCalculator
