import RationalCalculator.Double
import RationalCalculator.Significant

/-!
# The shortest decimal text of a binary number

Many decimals are rounded to the same binary number. It is written by the one with the fewest
digits, and of two of that length by the nearer, so the text says which number is meant
(`readsBack_of_candidate?`) and no more.
-/

namespace RationalCalculator

namespace Double

/-- A natural number of units of a power of ten, `digits * 10 ^ exponent`. -/
structure Decimal where
  digits : Nat
  exponent : Int
  deriving DecidableEq, Repr

def Decimal.toFraction (d : Decimal) : Fraction :=
  .reduce (d.digits * Nat.pow 10 d.exponent.toNat : Nat) (Nat.pow 10 (-d.exponent).toNat)
    (Nat.pow_pos (by decide))

/-- Is the magnitude of `x` the number nearest to the decimal? -/
def readsBack (x : Double) (d : Decimal) : Bool :=
  match nearest d.toFraction with
  | .ok y => y.significand == x.significand && y.exponent == x.exponent
  | .error _ => false

/-- Of the two decimals of `count` digits around `x`, the nearer one that reads back. -/
def candidate? (x : Double) (count : Nat) : Option Decimal :=
  let (n, d) := x.magnitude
  let s := (count : Int) - 1 - SignificantStyle.decimalExponent n d
  let n := n * Nat.pow 10 s.toNat
  let d := d * Nat.pow 10 (-s).toNat
  let near := roundHalfEven n d
  let other := if near * d ≤ n then near + 1 else near - 1
  [⟨near, -s⟩, ⟨other, -s⟩].find? x.readsBack

/-- The value of `x` in full. A half is five tenths, so every binary number has one. -/
def exactDecimal (x : Double) : Decimal :=
  ⟨x.magnitude.1 * Nat.pow 5 (-x.exponent).toNat, min x.exponent 0⟩

/-- The decimal with the fewest digits that reads back; seventeen are enough. -/
def shortest (x : Double) : Decimal :=
  ((List.range 17).findSome? fun k => x.candidate? (k + 1)).getD x.exactDecimal

/-- Numbers from `10 ^ -4` to below `10 ^ 16` are written positionally, and others with an exponent
of at least two digits. -/
def style : SignificantStyle := ⟨16, -4, 2⟩

/-- The text of a decimal. A whole number in positional form is given a decimal place. -/
def Decimal.text (d : Decimal) : List Char :=
  let ds := Nat.toDigits 10 d.digits
  let trimmed := SignificantStyle.trimZeros ds
  let padded := trimmed ++ List.replicate (style.digits - trimmed.length) '0'
  let body := style.layout padded (d.exponent + ds.length - 1)
  if '.' ∈ body ∨ 'e' ∈ body then body else body ++ ['.', '0']

def text (x : Double) : String :=
  let body := if x.significand = 0 then ['0', '.', '0'] else x.shortest.text
  String.ofList (if x.negative then '-' :: body else body)

theorem readsBack_of_candidate? {x : Double} {count : Nat} {d : Decimal}
    (h : x.candidate? count = some d) : x.readsBack d = true :=
  List.find?_some h

end Double

end RationalCalculator
