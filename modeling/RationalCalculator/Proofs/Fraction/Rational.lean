import Mathlib
import RationalCalculator.Fraction.Literal
import RationalCalculator.Operand

/-!
# Fractions as rational numbers

Every fraction has a rational value, `toRat`, and every rational number is the value of exactly
one fraction. Reduction keeps the value and uniqueness is that of lowest terms, so a law of the
rational numbers carries over to fractions as an equality of numerators and denominators. The
last theorem collects this for construction, the operations, division by zero and equality.
-/

namespace RationalCalculator

namespace Fraction

/-- The rational number that a fraction writes. -/
def toRat (f : Fraction) : ℚ := f.num / f.den

theorem den_cast_ne_zero (f : Fraction) : (f.den : ℚ) ≠ 0 :=
  Nat.cast_ne_zero.mpr f.den_pos.ne'

theorem toRat_reduce (n : Int) (d : Nat) (h : 0 < d) : (reduce n d h).toRat = n / d := by
  have hd : (d : ℚ) ≠ 0 := Nat.cast_ne_zero.mpr h.ne'
  rw [toRat, div_eq_div_iff (den_cast_ne_zero _) hd]
  exact_mod_cast reduce_ratio n d h

theorem toRat_ofRatio (n d : Int) (h : d ≠ 0) : (ofRatio n d h).toRat = n / d := by
  rw [ofRatio, toRat_reduce]
  have hd : (d : ℚ) ≠ 0 := Int.cast_ne_zero.mpr h
  have ha : ((d.natAbs : ℤ) : ℚ) ≠ 0 := by exact_mod_cast Int.natAbs_ne_zero.mpr h
  have hs : d.sign * d.natAbs = d := Int.sign_mul_natAbs d
  have hs' : d.sign * d.sign = 1 := by
    rcases lt_or_gt_of_ne h with hn | hp
    · rw [Int.sign_eq_neg_one_of_neg hn]; rfl
    · rw [Int.sign_eq_one_of_pos hp]; rfl
  rw [← Int.cast_natCast, div_eq_div_iff ha hd]
  have hc : d.sign * n * d = n * d.natAbs := by
    calc d.sign * n * d = d.sign * n * (d.sign * d.natAbs) := by rw [hs]
      _ = d.sign * d.sign * (n * d.natAbs) := by ring
      _ = n * d.natAbs := by rw [hs', one_mul]
  exact_mod_cast hc

/-- Lowest terms are unique: fractions of one value are one fraction. -/
theorem toRat_inj {a b : Fraction} : a.toRat = b.toRat ↔ a = b := by
  constructor
  · intro h
    rw [toRat, toRat, div_eq_div_iff a.den_cast_ne_zero b.den_cast_ne_zero] at h
    exact eq_of_cross_mul (by exact_mod_cast h)
  · rintro rfl
    rfl

@[simp] theorem toRat_ofInt (n : Int) : (ofInt n).toRat = n := by
  simp [toRat, ofInt]

@[simp] theorem toRat_zero : zero.toRat = 0 := by
  simp [zero]

theorem toRat_eq_zero_iff (a : Fraction) : a.toRat = 0 ↔ a = zero := by
  rw [← toRat_zero, toRat_inj]

@[simp] theorem toRat_add (a b : Fraction) : (a + b).toRat = a.toRat + b.toRat := by
  have ha := a.den_cast_ne_zero
  have hb := b.den_cast_ne_zero
  change (Fraction.add a b).toRat = _
  rw [Fraction.add, toRat_reduce, toRat, toRat, div_add_div _ _ ha hb]
  push_cast
  rw [mul_comm (b.num : ℚ)]

@[simp] theorem toRat_sub (a b : Fraction) : (a - b).toRat = a.toRat - b.toRat := by
  have ha := a.den_cast_ne_zero
  have hb := b.den_cast_ne_zero
  change (Fraction.sub a b).toRat = _
  rw [Fraction.sub, toRat_reduce, toRat, toRat, div_sub_div _ _ ha hb]
  push_cast
  rw [mul_comm (b.num : ℚ)]

@[simp] theorem toRat_mul (a b : Fraction) : (a * b).toRat = a.toRat * b.toRat := by
  change (Fraction.mul a b).toRat = _
  rw [Fraction.mul, toRat_reduce, toRat, toRat, div_mul_div_comm]
  push_cast
  rfl

@[simp] theorem toRat_neg (a : Fraction) : (-a).toRat = -a.toRat := by
  change (Fraction.neg a).toRat = _
  rw [Fraction.neg, toRat, toRat]
  push_cast
  rw [neg_div]

/-- The transient denominator of a quotient has the sign of the divisor. -/
theorem toRat_of_div? {a b q : Fraction} (h : a.div? b = some q) :
    q.toRat = a.toRat / b.toRat := by
  unfold div? at h
  split at h
  · contradiction
  next hb =>
    obtain rfl := Option.some.inj h
    have hb' : (b.num : ℚ) ≠ 0 := Int.cast_ne_zero.mpr hb
    rw [toRat_ofRatio, toRat, toRat, div_div_div_eq]
    push_cast
    rfl

theorem divide_apply_of_ne_zero {a b : Fraction} (h : b.toRat ≠ 0) :
    ∃ q, Operator.divide.apply a b = .ok q ∧ q.toRat = a.toRat / b.toRat := by
  cases hq : a.div? b with
  | none =>
    have hb := (div?_eq_none_iff a b).mp hq
    exact absurd ((toRat_eq_zero_iff b).mpr hb) h
  | some q => exact ⟨q, by simp only [Operator.apply, hq], toRat_of_div? hq⟩

theorem divide_apply_eq_error_iff (a b : Fraction) (f : Fault) :
    Operator.divide.apply a b = .error f ↔ b.toRat = 0 ∧ f = .divisionByZero := by
  rw [Operator.apply_eq_error_iff, toRat_eq_zero_iff]
  simp

theorem build_of_ne_zero (n : Int) {d : Int} (h : d ≠ 0) : build n d = .ok (ofRatio n d h) := by
  rw [build, dif_neg h]

theorem isEqual_iff_toRat_eq (a b : Fraction) :
    Operand.isEqual (.fraction a) (.fraction b) = true ↔ a.toRat = b.toRat := by
  rw [toRat_inj, Operand.isEqual, beq_iff_eq]

/-- The fraction of a rational number. -/
def ofRat (q : ℚ) : Fraction := ⟨q.num, q.den, q.pos, q.reduced⟩

@[simp] theorem toRat_ofRat (q : ℚ) : (ofRat q).toRat = q := Rat.num_div_den q

@[simp] theorem ofRat_toRat (a : Fraction) : ofRat a.toRat = a :=
  toRat_inj.mp (toRat_ofRat a.toRat)

/-- Fractions and rational numbers are the same field. -/
def ratEquiv : Fraction ≃+* ℚ where
  toFun := toRat
  invFun := ofRat
  left_inv := ofRat_toRat
  right_inv := toRat_ofRat
  map_add' := toRat_add
  map_mul' := toRat_mul

/-- What the operations and the comparison of two fractions come to. -/
structure ExactOperations (a b : Fraction) : Prop where
  add : (a + b).toRat = a.toRat + b.toRat
  sub : (a - b).toRat = a.toRat - b.toRat
  mul : (a * b).toRat = a.toRat * b.toRat
  neg : (-a).toRat = -a.toRat
  div : b.toRat ≠ 0 → ∃ q, Operator.divide.apply a b = .ok q ∧ q.toRat = a.toRat / b.toRat
  div_fault : ∀ f, Operator.divide.apply a b = .error f ↔ b.toRat = 0 ∧ f = .divisionByZero
  equal : Operand.isEqual (.fraction a) (.fraction b) = true ↔ a.toRat = b.toRat
  equal_pair : a = b ↔ a.num = b.num ∧ a.den = b.den

theorem exactOperations (a b : Fraction) : ExactOperations a b where
  add := toRat_add a b
  sub := toRat_sub a b
  mul := toRat_mul a b
  neg := toRat_neg a
  div := divide_apply_of_ne_zero
  div_fault := divide_apply_eq_error_iff a b
  equal := isEqual_iff_toRat_eq a b
  equal_pair := Fraction.ext_iff

/-- The laws of a field. The equality is that of numerators and denominators. -/
structure FieldLaws (a b c : Fraction) : Prop where
  add_assoc : a + b + c = a + (b + c)
  add_comm : a + b = b + a
  zero_add : zero + a = a
  neg_add_cancel : -a + a = zero
  sub_eq_add_neg : a - b = a + -b
  mul_assoc : a * b * c = a * (b * c)
  mul_comm : a * b = b * a
  one_mul : ofInt 1 * a = a
  mul_add : a * (b + c) = a * b + a * c
  zero_ne_one : zero ≠ ofInt 1
  mul_inv_cancel : a ≠ zero → ∃ i, Operator.divide.apply (ofInt 1) a = .ok i ∧ a * i = ofInt 1
  div_eq_mul_inv : ∀ q, Operator.divide.apply a b = .ok q →
    ∃ i, Operator.divide.apply (ofInt 1) b = .ok i ∧ q = a * i

theorem toRat_of_divide_apply {a b q : Fraction} (h : Operator.divide.apply a b = .ok q) :
    b.toRat ≠ 0 ∧ q.toRat = a.toRat / b.toRat := by
  have hb : b.toRat ≠ 0 := by
    intro hb
    rw [(divide_apply_eq_error_iff a b .divisionByZero).mpr ⟨hb, rfl⟩] at h
    contradiction
  obtain ⟨r, hr, hv⟩ := divide_apply_of_ne_zero (a := a) hb
  rw [hr] at h
  obtain rfl := Except.ok.inj h
  exact ⟨hb, hv⟩

theorem fieldLaws (a b c : Fraction) : FieldLaws a b c where
  add_assoc := toRat_inj.mp (by simp only [toRat_add]; ring)
  add_comm := toRat_inj.mp (by simp only [toRat_add]; ring)
  zero_add := toRat_inj.mp (by simp)
  neg_add_cancel := toRat_inj.mp (by simp)
  sub_eq_add_neg := toRat_inj.mp (by simp only [toRat_sub, toRat_add, toRat_neg]; ring)
  mul_assoc := toRat_inj.mp (by simp only [toRat_mul]; ring)
  mul_comm := toRat_inj.mp (by simp only [toRat_mul]; ring)
  one_mul := toRat_inj.mp (by simp)
  mul_add := toRat_inj.mp (by simp only [toRat_mul, toRat_add]; ring)
  zero_ne_one := by decide
  mul_inv_cancel := by
    intro ha
    have ha' : a.toRat ≠ 0 := fun h => ha ((toRat_eq_zero_iff a).mp h)
    obtain ⟨i, hi, hv⟩ := divide_apply_of_ne_zero (a := ofInt 1) ha'
    refine ⟨i, hi, toRat_inj.mp ?_⟩
    rw [toRat_mul, hv, toRat_ofInt]
    field_simp
  div_eq_mul_inv := by
    intro q hq
    obtain ⟨hb, hv⟩ := toRat_of_divide_apply hq
    obtain ⟨i, hi, hw⟩ := divide_apply_of_ne_zero (a := ofInt 1) hb
    refine ⟨i, hi, toRat_inj.mp ?_⟩
    rw [toRat_mul, hv, hw, toRat_ofInt]
    field_simp
    simp

/-- Fractions are a faithful copy of the rational numbers: construction over any denominator but
zero is exact and in lowest terms, and so are the operations; fractions obey the laws of a field
as pairs; and the value is an isomorphism. -/
theorem exact_rational_field :
    (∀ n d : Int, d ≠ 0 → ∃ f, build n d = .ok f ∧ 0 < f.den ∧ f.num.natAbs.Coprime f.den ∧
      f.toRat = n / d) ∧
    (∀ a b : Fraction, ExactOperations a b) ∧
    (∀ a b c : Fraction, FieldLaws a b c) ∧
    ∃ e : Fraction ≃+* ℚ, ∀ a, e a = a.toRat := by
  refine ⟨?_, exactOperations, fieldLaws, ratEquiv, fun _ => rfl⟩
  intro n d hd
  have hf := build_of_ne_zero n hd
  exact ⟨_, hf, den_pos _, coprime _, toRat_ofRatio n d hd⟩

/-- At a negative denominator and at a negative divisor. -/
theorem exact_rational_field_at :
    ((-8 : Int) ≠ 0 ∧ ∃ f, build 6 (-8) = .ok f ∧ 0 < f.den ∧ f.num.natAbs.Coprime f.den ∧
      f.toRat = (6 : Int) / (-8 : Int)) ∧
    ((ofInt (-2)).toRat ≠ 0 ∧ ∃ q, Operator.divide.apply (ofInt 3) (ofInt (-2)) = .ok q ∧
      q.toRat = (ofInt 3).toRat / (ofInt (-2)).toRat) := by
  obtain ⟨hbuild, hops, -, -⟩ := exact_rational_field
  have hd : (-8 : Int) ≠ 0 := by decide
  have hb : (ofInt (-2)).toRat ≠ 0 := by norm_num
  exact ⟨⟨hd, hbuild 6 (-8) hd⟩, hb, (hops (ofInt 3) (ofInt (-2))).div hb⟩

end Fraction

end RationalCalculator
