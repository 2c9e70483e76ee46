/-!
# Exact fractions

A `Fraction` is an integer over a positive natural number without a common factor, so the same
rational number is always written by the same pair. `reduce` brings any quotient into this
form: `reduce_eq_reduce_iff` says that two quotients reduce to the same fraction exactly if
their cross products agree. The operations are those of schoolbook arithmetic, followed by
reduction; division alone can fail, namely by zero.
-/

namespace RationalCalculator

/-- An integer over a positive natural number, in lowest terms. -/
@[ext]
structure Fraction where
  num : Int
  den : Nat
  den_pos : 0 < den
  coprime : num.natAbs.Coprime den
  deriving DecidableEq

namespace Fraction

def ofInt (n : Int) : Fraction where
  num := n
  den := 1
  den_pos := Nat.one_pos
  coprime := Nat.coprime_one_right _

def zero : Fraction := ofInt 0

instance : Inhabited Fraction := ⟨zero⟩

/-- `n / d` in lowest terms. -/
def reduce (n : Int) (d : Nat) (h : 0 < d) : Fraction where
  num := n / (n.natAbs.gcd d : Nat)
  den := d / n.natAbs.gcd d
  den_pos := Nat.div_pos (Nat.gcd_le_right _ h) (Nat.gcd_pos_of_pos_right _ h)
  coprime := by
    have hd : ((n.natAbs.gcd d : Nat) : Int) ∣ n :=
      Int.ofNat_dvd_left.2 (Nat.gcd_dvd_left _ _)
    rw [Int.natAbs_ediv_of_dvd hd, Int.natAbs_natCast]
    exact Nat.coprime_div_gcd_div_gcd (Nat.gcd_pos_of_pos_right _ h)

/-- `n / d` for a denominator of either sign. -/
def ofRatio (n d : Int) (h : d ≠ 0) : Fraction :=
  reduce (d.sign * n) d.natAbs (Int.natAbs_pos.2 h)

protected def add (a b : Fraction) : Fraction :=
  reduce (a.num * b.den + b.num * a.den) (a.den * b.den) (Nat.mul_pos a.den_pos b.den_pos)

protected def sub (a b : Fraction) : Fraction :=
  reduce (a.num * b.den - b.num * a.den) (a.den * b.den) (Nat.mul_pos a.den_pos b.den_pos)

protected def mul (a b : Fraction) : Fraction :=
  reduce (a.num * b.num) (a.den * b.den) (Nat.mul_pos a.den_pos b.den_pos)

protected def neg (a : Fraction) : Fraction where
  num := -a.num
  den := a.den
  den_pos := a.den_pos
  coprime := by rw [Int.natAbs_neg]; exact a.coprime

def div? (a b : Fraction) : Option Fraction :=
  if h : b.num = 0 then none
  else some (ofRatio (a.num * b.den) (a.den * b.num)
    (Int.mul_ne_zero (Int.natCast_ne_zero.2 (Nat.ne_of_gt a.den_pos)) h))

instance : Add Fraction := ⟨Fraction.add⟩
instance : Sub Fraction := ⟨Fraction.sub⟩
instance : Mul Fraction := ⟨Fraction.mul⟩
instance : Neg Fraction := ⟨Fraction.neg⟩

def isWhole (a : Fraction) : Bool := a.den == 1

theorem num_reduce_mul (n : Int) (d : Nat) (h : 0 < d) :
    (reduce n d h).num * (n.natAbs.gcd d : Nat) = n :=
  Int.ediv_mul_cancel (Int.ofNat_dvd_left.2 (Nat.gcd_dvd_left _ _))

theorem den_reduce_mul (n : Int) (d : Nat) (h : 0 < d) :
    (reduce n d h).den * n.natAbs.gcd d = d :=
  Nat.div_mul_cancel (Nat.gcd_dvd_right _ _)

/-- Reduction keeps the ratio. -/
theorem reduce_ratio (n : Int) (d : Nat) (h : 0 < d) :
    (reduce n d h).num * d = n * (reduce n d h).den := by
  have hn := num_reduce_mul n d h
  have hd : ((reduce n d h).den : Int) * (n.natAbs.gcd d : Nat) = d := by
    exact_mod_cast den_reduce_mul n d h
  calc (reduce n d h).num * (d : Int)
      = (reduce n d h).num * ((reduce n d h).den * (n.natAbs.gcd d : Nat)) := by rw [hd]
    _ = (reduce n d h).num * (n.natAbs.gcd d : Nat) * (reduce n d h).den := by
        rw [Int.mul_comm ((reduce n d h).den : Int), Int.mul_assoc]
    _ = n * (reduce n d h).den := by rw [hn]

/-- Fractions with the same ratio are the same. -/
theorem eq_of_cross_mul {a b : Fraction} (h : a.num * b.den = b.num * a.den) : a = b := by
  have hn : a.num.natAbs * b.den = b.num.natAbs * a.den := by
    simpa [Int.natAbs_mul] using congrArg Int.natAbs h
  have hab : a.den ∣ b.den :=
    a.coprime.symm.dvd_of_dvd_mul_left (hn ▸ Nat.dvd_mul_left _ _)
  have hba : b.den ∣ a.den :=
    b.coprime.symm.dvd_of_dvd_mul_left (hn ▸ Nat.dvd_mul_left _ _)
  have hd : a.den = b.den := Nat.dvd_antisymm hab hba
  have hne : (b.den : Int) ≠ 0 := Int.natCast_ne_zero.2 (Nat.ne_of_gt b.den_pos)
  refine Fraction.ext ?_ hd
  rw [hd] at h
  exact Int.eq_of_mul_eq_mul_right hne h

theorem reduce_num_den (a : Fraction) : reduce a.num a.den a.den_pos = a :=
  eq_of_cross_mul (reduce_ratio a.num a.den a.den_pos)

/-- Two quotients reduce to the same fraction exactly if their cross products agree. -/
theorem reduce_eq_reduce_iff {m n : Int} {c d : Nat} (hc : 0 < c) (hd : 0 < d) :
    reduce m c hc = reduce n d hd ↔ m * d = n * c := by
  have hm := reduce_ratio m c hc
  have hn := reduce_ratio n d hd
  have hc0 : (c : Int) ≠ 0 := Int.natCast_ne_zero.2 (Nat.ne_of_gt hc)
  have hd0 : (d : Int) ≠ 0 := Int.natCast_ne_zero.2 (Nat.ne_of_gt hd)
  constructor
  · intro h
    rw [h] at hm
    have hq : ((reduce n d hd).den : Int) ≠ 0 :=
      Int.natCast_ne_zero.2 (Nat.ne_of_gt (reduce n d hd).den_pos)
    refine Int.eq_of_mul_eq_mul_right hq ?_
    calc m * d * (reduce n d hd).den = m * (reduce n d hd).den * d := by ac_rfl
      _ = (reduce n d hd).num * d * c := by rw [← hm]; ac_rfl
      _ = n * c * (reduce n d hd).den := by rw [hn]; ac_rfl
  · intro h
    apply eq_of_cross_mul
    refine Int.eq_of_mul_eq_mul_right hc0 (Int.eq_of_mul_eq_mul_right hd0 ?_)
    calc (reduce m c hc).num * (reduce n d hd).den * c * d
        = (reduce m c hc).num * c * (reduce n d hd).den * d := by ac_rfl
      _ = m * d * ((reduce m c hc).den * (reduce n d hd).den) := by rw [hm]; ac_rfl
      _ = n * (reduce n d hd).den * (reduce m c hc).den * c := by rw [h]; ac_rfl
      _ = (reduce n d hd).num * (reduce m c hc).den * c * d := by rw [← hn]; ac_rfl

theorem div?_eq_none_iff (a b : Fraction) : a.div? b = none ↔ b = zero := by
  constructor
  · intro h
    have hb : b.num = 0 := by
      by_cases hb : b.num = 0
      · exact hb
      · simp [div?, hb] at h
    apply eq_of_cross_mul
    simp [hb, zero, ofInt]
  · rintro rfl
    rfl

end Fraction

end RationalCalculator
