/-!
# Rounding a quotient to the nearest natural number

`roundHalfEven n d` is the natural number nearest to `n / d`. Its distance from the quotient is
at most one half (`roundHalfEven_near`), and of two numbers equally near it is the even one
(`even_roundHalfEven_of_tie`).
-/

namespace RationalCalculator

/-- The natural number nearest to `n / d`; a quotient halfway between two goes to the even one. -/
def roundHalfEven (n d : Nat) : Nat :=
  let q := n / d
  let r := n % d
  if 2 * r > d ∨ (2 * r = d ∧ q % 2 = 1) then q + 1 else q

theorem roundHalfEven_near (n : Nat) {d : Nat} (hd : 0 < d) :
    2 * (roundHalfEven n d * d) ≤ 2 * n + d ∧ 2 * n ≤ 2 * (roundHalfEven n d * d) + d := by
  have hn : n = n / d * d + n % d := by rw [Nat.mul_comm]; exact (Nat.div_add_mod n d).symm
  have hr := Nat.mod_lt n hd
  simp only [roundHalfEven]
  split
  next h =>
    have hq : (n / d + 1) * d = n / d * d + d := by rw [Nat.add_mul, Nat.one_mul]
    rw [hq]
    omega
  next h =>
    have : 2 * (n % d) ≤ d := by omega
    omega

theorem even_roundHalfEven_of_tie (n d : Nat) (h : 2 * (n % d) = d) :
    roundHalfEven n d % 2 = 0 := by
  simp only [roundHalfEven]
  split <;> omega

/-- A quotient without remainder is not changed. -/
theorem roundHalfEven_mul (q : Nat) {d : Nat} (hd : 0 < d) : roundHalfEven (q * d) d = q := by
  have hm : q * d % d = 0 := Nat.mul_mod_left q d
  simp only [roundHalfEven, Nat.mul_div_cancel _ hd, hm]
  rw [if_neg (by omega)]

end RationalCalculator
