/-!
# Sets of characters given by intervals of code points

A `CharSet` lists closed intervals of code points. Membership is decided by trying the
intervals in turn, so a set is exactly the union of its intervals (`contains_iff`).
-/

namespace RationalCalculator.Text

/-- A set of characters, written as closed intervals of code points. -/
structure CharSet where
  intervals : List (Nat × Nat)

namespace CharSet

def contains (s : CharSet) (c : Char) : Bool :=
  s.intervals.any fun r => r.1 ≤ c.toNat && c.toNat ≤ r.2

theorem contains_iff (s : CharSet) (c : Char) :
    s.contains c = true ↔ ∃ r ∈ s.intervals, r.1 ≤ c.toNat ∧ c.toNat ≤ r.2 := by
  simp [contains]

end CharSet

end RationalCalculator.Text
