import RationalCalculator.Fault
import RationalCalculator.Fraction.Basic

/-!
# The four operators

An operator is written as one character. Applied to two fractions it gives a fraction or, for a
division by zero and in no other case, a fault (`apply_eq_error_iff`).
-/

namespace RationalCalculator

inductive Operator where
  | add
  | subtract
  | multiply
  | divide
  deriving DecidableEq, Repr

namespace Operator

def symbol : Operator → String
  | add => "+"
  | subtract => "-"
  | multiply => "*"
  | divide => "/"

def ofSymbol? : String → Option Operator
  | "+" => some add
  | "-" => some subtract
  | "*" => some multiply
  | "/" => some divide
  | _ => none

/-- Does the operator join terms, rather than factors of a term? -/
def isAdditive : Operator → Bool
  | add | subtract => true
  | multiply | divide => false

def apply (op : Operator) (a b : Fraction) : Except Fault Fraction :=
  match op with
  | add => .ok (a + b)
  | subtract => .ok (a - b)
  | multiply => .ok (a * b)
  | divide =>
    match a.div? b with
    | some q => .ok q
    | none => .error .divisionByZero

theorem ofSymbol?_eq_some_iff (s : String) (op : Operator) :
    ofSymbol? s = some op ↔ s = op.symbol := by
  constructor
  · intro h
    unfold ofSymbol? at h
    split at h <;> first | contradiction | (cases h; rfl)
  · rintro rfl
    cases op <;> rfl

theorem apply_eq_error_iff (op : Operator) (a b : Fraction) (f : Fault) :
    op.apply a b = .error f ↔ op = divide ∧ b = Fraction.zero ∧ f = .divisionByZero := by
  cases op with
  | add => simp [apply]
  | subtract => simp [apply]
  | multiply => simp [apply]
  | divide =>
    have hn := Fraction.div?_eq_none_iff a b
    cases h : a.div? b with
    | none =>
      have ha : divide.apply a b = .error .divisionByZero := by simp only [apply, h]
      rw [ha, Except.error.injEq, eq_comm]
      exact ⟨fun he => ⟨rfl, hn.1 h, he⟩, fun he => he.2.2⟩
    | some q =>
      have hb : b ≠ Fraction.zero := fun hb => by simp [hn.2 hb] at h
      simp [apply, h, hb]

end Operator

end RationalCalculator
