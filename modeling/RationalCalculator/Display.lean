import RationalCalculator.Double
import RationalCalculator.Fraction.Literal
import RationalCalculator.Significant

/-!
# Results as they are shown

A result is shown by its text. On request, a result that is not whole is followed by a decimal
approximation, unless it is too large to have one; whether there is an approximation never
decides whether a result can be shown (`display_eq_error_iff`).
-/

namespace RationalCalculator

/-- Approximations have ten significant digits, from `0.0001` on without an exponent, and
exponents have at least two digits. -/
def approximationStyle : SignificantStyle := ⟨10, -4, 2⟩

/-- The decimal approximation of a value: its nearest binary number, in decimals. -/
def approximation? (v : Fraction) : Option String :=
  match Double.nearest v with
  | .ok x =>
    let (n, d) := x.magnitude
    some (approximationStyle.text x.negative n d)
  | .error _ => none

def isApproximated (approximate : Bool) (v : Fraction) : Bool := approximate && !v.isWhole

def approximationNote (approximate : Bool) (v : Fraction) : String :=
  if isApproximated approximate v then
    match approximation? v with
    | some a => s!" ≈ {a}"
    | none => ""
  else ""

def display (approximate : Bool) (v : Fraction) : Except Numeral.Overlong String :=
  v.text.map (· ++ approximationNote approximate v)

/-- Is an approximation missing for which the value is too large? -/
def lacksApproximation (approximate : Bool) (v : Fraction) : Bool :=
  isApproximated approximate v && (approximation? v).isNone

/-- A value cannot be shown exactly if it cannot be written. -/
theorem display_eq_error_iff (approximate : Bool) (v : Fraction) (e : Numeral.Overlong) :
    display approximate v = .error e ↔ v.text = .error e := by
  unfold display
  cases v.text <;> simp [Except.map]

end RationalCalculator
