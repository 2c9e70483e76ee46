import RationalCalculator.Proofs.Fraction.Rational

/-!
# Distinct values

Fractions, integers and truth values stand for rational numbers, and two of them are equal exactly
if they stand for the same number and are not a truth value and a fraction. What is equal has the
same hash key. Since equality is not transitive, the values that remain of a list depend on its
order, but only within the values of one number: values of other numbers neither equal them nor keep
them out (`ofValue_remaining`). Of the values of one number an integer in front keeps out all others.
Anything else in front keeps out all but the first value that is apart from it, and the two keep out
the rest. So each number counts once, and 0 and 1 count twice if they are so divided.
-/

namespace RationalCalculator

/-- An operand that stands for a rational number. -/
inductive Exact where
  | fraction (f : Fraction)
  | integer (n : Int)
  | truth (b : Bool)
  deriving DecidableEq

namespace Exact

def operand : Exact → Operand
  | fraction f => .fraction f
  | integer n => .integer n
  | truth b => .truth b

def value : Exact → ℚ
  | fraction f => f.toRat
  | integer n => n
  | truth b => Operand.ofTruth b

def isFraction : Exact → Bool
  | fraction _ => true
  | _ => false

def isInteger : Exact → Bool
  | integer _ => true
  | _ => false

def isTruth : Exact → Bool
  | truth _ => true
  | _ => false

/-- A truth value and a fraction are never equal. -/
def apart : Exact → Exact → Bool
  | truth _, fraction _ | fraction _, truth _ => true
  | _, _ => false

def equal (x y : Exact) : Bool := x.operand.isEqual y.operand

theorem ofTruth_inj (a b : Bool) : Operand.ofTruth a = Operand.ofTruth b ↔ a = b := by
  cases a <;> cases b <;> decide

/-- Truth values and fractions aside, equality is that of the numbers. -/
theorem equal_iff (x y : Exact) : equal x y = true ↔ x.value = y.value ∧ apart x y = false := by
  have hwhole (f : Fraction) (n : ℤ) : f = .ofInt n ↔ f.toRat = n := by
    rw [← Fraction.toRat_inj, Fraction.toRat_ofInt]
  cases x with
  | fraction f =>
    cases y with
    | fraction g => simp [equal, operand, Operand.isEqual, value, apart, Fraction.toRat_inj]
    | integer n => simp [equal, operand, Operand.isEqual, value, apart, hwhole]
    | truth b => simp [equal, operand, Operand.isEqual, value, apart]
  | integer m =>
    cases y with
    | fraction g => simp [equal, operand, Operand.isEqual, value, apart, hwhole, @eq_comm ℚ m]
    | integer n => simp [equal, operand, Operand.isEqual, value, apart]
    | truth b => simp [equal, operand, Operand.isEqual, value, apart]
  | truth a =>
    cases y with
    | fraction g => simp [equal, operand, Operand.isEqual, value, apart]
    | integer n => simp [equal, operand, Operand.isEqual, value, apart, @eq_comm ℤ n]
    | truth b => simp [equal, operand, Operand.isEqual, value, apart, ofTruth_inj]

theorem hashKey?_of_value {x : Exact} {n : ℤ} (h : x.value = n) :
    x.operand.hashKey? = some (.whole (Operand.integerKey n)) := by
  cases x with
  | fraction f =>
    obtain rfl : f = .ofInt n := by
      rw [← Fraction.toRat_inj, Fraction.toRat_ofInt]
      exact h
    exact Operand.hashKey?_ofInt n
  | integer m =>
    obtain rfl : m = n := Int.cast_injective h
    rfl
  | truth b =>
    obtain rfl : Operand.ofTruth b = n := Int.cast_injective h
    cases b <;> rfl

/-- The hash key depends on the number alone. -/
theorem exists_hashKey? {x y : Exact} (h : x.value = y.value) :
    ∃ k, x.operand.hashKey? = some k ∧ y.operand.hashKey? = some k := by
  cases x with
  | integer n => exact ⟨_, rfl, hashKey?_of_value h.symm⟩
  | truth b => exact ⟨_, hashKey?_of_value rfl, hashKey?_of_value h.symm⟩
  | fraction f =>
    cases y with
    | integer n => exact ⟨_, hashKey?_of_value h, rfl⟩
    | truth b => exact ⟨_, hashKey?_of_value h, hashKey?_of_value rfl⟩
    | fraction g =>
      obtain rfl : f = g := Fraction.toRat_inj.mp h
      exact ⟨_, rfl, rfl⟩

/-- Keep a value unless an equal one has been kept before. -/
def keep (kept : List Exact) (x : Exact) : List Exact :=
  if kept.any (equal x) then kept else kept ++ [x]

def remaining (xs : List Exact) : List Exact := xs.foldl keep []

theorem keep_of_any {kept : List Exact} {x : Exact} (h : kept.any (equal x) = true) :
    keep kept x = kept := if_pos h

theorem keep_of_not_any {kept : List Exact} {x : Exact} (h : kept.any (equal x) = false) :
    keep kept x = kept ++ [x] := by
  rw [keep, h]
  rfl

theorem operand_keep (kept : List Exact) (x : Exact) :
    (keep kept x).map operand = Operand.keep (kept.map operand) x.operand := by
  have hany : (kept.map operand).any x.operand.isEqual = kept.any (equal x) := by
    rw [List.any_map]
    rfl
  rw [keep, Operand.keep, hany]
  split
  · rfl
  · rw [List.map_append, List.map_singleton]

theorem distinctCount_eq (xs : List Exact) :
    Operand.distinctCount (xs.map operand) = (remaining xs).length := by
  have hfold (kept : List Exact) : (xs.map operand).foldl Operand.keep (kept.map operand)
      = (xs.foldl keep kept).map operand := by
    rw [List.foldl_map]
    induction xs generalizing kept with
    | nil => rfl
    | cons x xs ih => rw [List.foldl_cons, List.foldl_cons, ← operand_keep, ih]
  have hlength := congrArg List.length (hfold [])
  rwa [List.length_map] at hlength

/-- The values of one number. -/
def ofValue (q : ℚ) (xs : List Exact) : List Exact := xs.filter (·.value = q)

theorem any_ofValue (x : Exact) (kept : List Exact) :
    (ofValue x.value kept).any (equal x) = kept.any (equal x) := by
  have hsame (y : Exact) : (decide (y.value = x.value) && equal x y) = equal x y := by
    cases h : equal x y with
    | false => rw [Bool.and_false]
    | true => simpa using ((equal_iff x y).mp h).1.symm
  rw [ofValue, List.any_filter]
  simp only [hsame]

/-- Values of other numbers are neither kept out nor keep out. -/
theorem ofValue_keep (q : ℚ) (kept : List Exact) (x : Exact) :
    ofValue q (keep kept x) = (ofValue q [x]).foldl keep (ofValue q kept) := by
  by_cases hx : x.value = q
  · subst hx
    have hone : ofValue x.value [x] = [x] := by simp [ofValue]
    rw [hone, List.foldl_cons, List.foldl_nil, keep, keep, any_ofValue]
    split
    · rfl
    · rw [ofValue, List.filter_append]
      exact congrArg _ hone
  · have hnone : ofValue q [x] = [] := by simp [ofValue, hx]
    rw [hnone, List.foldl_nil, keep]
    split
    · rfl
    · rw [ofValue, List.filter_append]
      exact (congrArg _ hnone).trans (List.append_nil _)

theorem ofValue_foldl_keep (q : ℚ) (kept xs : List Exact) :
    ofValue q (xs.foldl keep kept) = (ofValue q xs).foldl keep (ofValue q kept) := by
  induction xs generalizing kept with
  | nil => rfl
  | cons x xs ih =>
    have hsplit : ofValue q (x :: xs) = ofValue q [x] ++ ofValue q xs :=
      List.filter_append [x] xs
    rw [List.foldl_cons, ih, ofValue_keep, hsplit, List.foldl_append]

theorem ofValue_remaining (q : ℚ) (xs : List Exact) :
    ofValue q (remaining xs) = remaining (ofValue q xs) :=
  ofValue_foldl_keep q [] xs

/-- What equals something kept is not kept again. -/
theorem foldl_keep_of_any {kept xs : List Exact} (h : ∀ x ∈ xs, kept.any (equal x) = true) :
    xs.foldl keep kept = kept := by
  induction xs with
  | nil => rfl
  | cons x xs ih =>
    rw [List.foldl_cons, keep_of_any (h x List.mem_cons_self)]
    exact ih fun y hy => h y (List.mem_cons_of_mem _ hy)

/-- Of two values that are apart every other value is joined to one. -/
theorem not_apart_or {x y : Exact} (h : apart x y = true) (z : Exact) :
    apart z x = false ∨ apart z y = false := by
  cases x <;> cases y <;> cases z <;> simp_all [apart]

theorem apart_comm (x y : Exact) : apart x y = apart y x := by
  cases x <;> cases y <;> rfl

/-- Among values of one number the first one keeps out the others up to the first that is apart
from it, and from there on the two keep out everything. -/
theorem length_foldl_keep {x : Exact} {xs : List Exact} (h : ∀ y ∈ xs, y.value = x.value) :
    (xs.foldl keep [x]).length = 1 + if xs.any (apart x) then 1 else 0 := by
  induction xs with
  | nil => rfl
  | cons y xs ih =>
    have hy := h y List.mem_cons_self
    have hxs : ∀ z ∈ xs, z.value = x.value := fun z hz => h z (List.mem_cons_of_mem _ hz)
    rw [List.foldl_cons, List.any_cons]
    cases hap : apart x y with
    | false =>
      -- the first value keeps this one out and still stands alone
      have heq : equal y x = true := (equal_iff y x).mpr ⟨hy, (apart_comm y x).trans hap⟩
      rw [keep_of_any (by simp [heq]), ih hxs, Bool.false_or]
    | true =>
      have hne : equal y x = false := by
        rw [Bool.eq_false_iff, Ne, equal_iff, apart_comm, hap]
        simp
      have hall : ∀ z ∈ xs, [x, y].any (equal z) = true := by
        intro z hz
        rw [List.any_cons, List.any_cons, List.any_nil, Bool.or_false, Bool.or_eq_true, equal_iff,
          equal_iff, hxs z hz, hy]
        exact (not_apart_or hap z).imp (⟨rfl, ·⟩) (⟨rfl, ·⟩)
      -- from here on the induction is not needed, since the two keep out all that is left
      rw [keep_of_not_any (by simp [hne]), List.singleton_append, foldl_keep_of_any hall]
      rfl

/-- There is a truth value and a fraction, and the first value is no integer. -/
def isDivided (xs : List Exact) : Bool :=
  xs.any isTruth && xs.any isFraction && !xs.head?.any isInteger

theorem isDivided_cons (x : Exact) (xs : List Exact) : isDivided (x :: xs) = xs.any (apart x) := by
  have hfraction (f : Fraction) : apart (fraction f) = isTruth := by
    funext y
    cases y <;> rfl
  have htruth (b : Bool) : apart (truth b) = isFraction := by
    funext y
    cases y <;> rfl
  have hinteger (n : ℤ) : apart (integer n) = fun _ => false := by
    funext y
    cases y <;> rfl
  cases x with
  | fraction f => simp [isDivided, hfraction, isTruth, isFraction, isInteger]
  | integer n => simp [isDivided, hinteger, isInteger]
  | truth b => simp [isDivided, htruth, isTruth, isFraction, isInteger]

theorem length_remaining_of_value {q : ℚ} {xs : List Exact} (hne : xs ≠ [])
    (h : ∀ x ∈ xs, x.value = q) :
    (remaining xs).length = 1 + if isDivided xs then 1 else 0 := by
  cases xs with
  | nil => contradiction
  | cons x xs =>
    have hx := h x List.mem_cons_self
    rw [isDivided_cons]
    exact length_foldl_keep fun y hy => (h y (List.mem_cons_of_mem _ hy)).trans hx.symm

/-- The numbers that values of the list stand for. -/
def values (xs : List Exact) : Finset ℚ := (xs.map value).toFinset

theorem ofValue_ne_nil_iff (q : ℚ) (xs : List Exact) : ofValue q xs ≠ [] ↔ q ∈ values xs := by
  simp [ofValue, values]

/-- A list is as long as the lists of its values of one number are together. -/
theorem length_eq_sum (xs : List Exact) {s : Finset ℚ} (h : ∀ x ∈ xs, x.value ∈ s) :
    xs.length = ∑ q ∈ s, (ofValue q xs).length := by
  have hcount (q : ℚ) : (ofValue q xs).length = (xs.map value : Multiset ℚ).count q := by
    rw [Multiset.coe_count, List.count, List.countP_map, ofValue, ← List.countP_eq_length_filter]
    rfl
  have hsum := Multiset.sum_count_eq_card (s := s) (m := (xs.map value : Multiset ℚ)) (by simpa using h)
  simp only [hcount, hsum, Multiset.coe_card, List.length_map]

theorem value_mem_of_remaining {xs : List Exact} {x : Exact} (h : x ∈ remaining xs) :
    x.value ∈ values xs := by
  rw [← ofValue_ne_nil_iff]
  intro hnil
  have hx : x ∈ ofValue x.value (remaining xs) := List.mem_filter.mpr ⟨h, decide_eq_true rfl⟩
  rw [ofValue_remaining, hnil] at hx
  contradiction

/-- Every number counts once, and once more if its values are divided. -/
theorem length_remaining (xs : List Exact) :
    (remaining xs).length = (values xs).card
      + ((values xs).filter fun q => isDivided (ofValue q xs)).card := by
  have hone : ∀ q ∈ values xs, (ofValue q (remaining xs)).length
      = 1 + if isDivided (ofValue q xs) then 1 else 0 := by
    intro q hq
    have hvalue : ∀ x ∈ ofValue q xs, x.value = q := fun x hx =>
      of_decide_eq_true (List.mem_filter.mp hx).2
    rw [ofValue_remaining, length_remaining_of_value ((ofValue_ne_nil_iff q xs).mpr hq) hvalue]
  rw [length_eq_sum _ fun x => value_mem_of_remaining, Finset.sum_congr rfl hone,
    Finset.sum_add_distrib, Finset.card_filter, Finset.card_eq_sum_ones]

theorem value_of_isTruth {x : Exact} (h : x.isTruth = true) : x.value = 0 ∨ x.value = 1 := by
  cases x with
  | fraction f => contradiction
  | integer n => contradiction
  | truth b => cases b <;> simp [value, Operand.ofTruth]

/-- Only 0 and 1 have truth values among their values. -/
theorem filter_isDivided (xs : List Exact) :
    ((values xs).filter fun q => isDivided (ofValue q xs))
      = ({0, 1} : Finset ℚ).filter fun q => isDivided (ofValue q xs) := by
  ext q
  rw [Finset.mem_filter, Finset.mem_filter]
  refine and_congr_left fun h => ?_
  simp only [isDivided, Bool.and_eq_true, List.any_eq_true] at h
  obtain ⟨⟨⟨x, hx, ht⟩, -⟩, -⟩ := h
  have hq : x.value = q := of_decide_eq_true (List.mem_filter.mp hx).2
  have hmem : q ∈ values xs := (ofValue_ne_nil_iff q xs).mp (List.ne_nil_of_mem hx)
  refine iff_of_true hmem ?_
  rw [Finset.mem_insert, Finset.mem_singleton, ← hq]
  exact value_of_isTruth ht

theorem not_isDivided {xs : List Exact} (q : ℚ)
    (h : (∀ x ∈ xs, x.isTruth = false) ∨ ∀ x ∈ xs, x.isFraction = false) :
    isDivided (ofValue q xs) = false := by
  have hany {p : Exact → Bool} (hp : ∀ x ∈ xs, p x = false) : (ofValue q xs).any p = false := by
    rw [List.any_eq_false]
    intro x hx
    simp [hp x (List.mem_of_mem_filter hx)]
  rcases h with h | h
  · rw [isDivided, hany h, Bool.false_and, Bool.false_and]
  · rw [isDivided, hany h, Bool.and_false, Bool.false_and]

theorem distinctCount_map (xs : List Exact) : Operand.distinctCount (xs.map operand)
    = (values xs).card + (({0, 1} : Finset ℚ).filter fun q => isDivided (ofValue q xs)).card := by
  rw [distinctCount_eq, length_remaining, filter_isDivided]

example : Operand.distinctCount [.truth true, .fraction (.ofInt 1), .integer 1] = 2 ∧
    Operand.distinctCount [.integer 1, .truth true, .fraction (.ofInt 1)] = 1 := by
  decide

/-- Without truth values, or without fractions, the numbers are counted. -/
theorem distinctCount_of_not_both {xs : List Exact}
    (h : (∀ x ∈ xs, x.isTruth = false) ∨ ∀ x ∈ xs, x.isFraction = false) :
    Operand.distinctCount (xs.map operand) = (values xs).card := by
  rw [distinctCount_map, Finset.filter_false_of_mem, Finset.card_empty, Nat.add_zero]
  intro q _
  rw [not_isDivided q h]
  exact Bool.false_ne_true

theorem values_perm {xs ys : List Exact} (h : xs.Perm ys) : values xs = values ys :=
  List.toFinset_eq_of_perm _ _ (h.map value)

/-- Equal values have the same hash key. A fraction equals the fractions and integers that are the
same number and no truth value. The distinct values of a list are as many as its numbers, and one
more for each of 0 and 1 that is there as a truth value and as a fraction, with no integer in front
of both. So without truth values, or without fractions, their count does not depend on the order. -/
theorem equality_and_distinctCount :
    (∀ x y : Exact, x.operand.isEqual y.operand = true →
      ∃ k, x.operand.hashKey? = some k ∧ y.operand.hashKey? = some k) ∧
    (∀ f g : Fraction, Operand.isEqual (.fraction f) (.fraction g) = true ↔ f.toRat = g.toRat) ∧
    (∀ (f : Fraction) (n : ℤ), (Operand.isEqual (.fraction f) (.integer n) = true ↔ f.toRat = n) ∧
      (Operand.isEqual (.integer n) (.fraction f) = true ↔ f.toRat = n)) ∧
    (∀ (f : Fraction) (b : Bool), Operand.isEqual (.fraction f) (.truth b) = false ∧
      Operand.isEqual (.truth b) (.fraction f) = false) ∧
    (∀ xs : List Exact, Operand.distinctCount (xs.map operand) = (values xs).card
      + (({0, 1} : Finset ℚ).filter fun q => isDivided (ofValue q xs)).card) ∧
    (∀ xs ys : List Exact, xs.Perm ys →
      ((∀ x ∈ xs, x.isTruth = false) ∨ ∀ x ∈ xs, x.isFraction = false) →
      Operand.distinctCount (xs.map operand) = Operand.distinctCount (ys.map operand)) := by
  refine ⟨?_, Fraction.isEqual_iff_toRat_eq, ?_, fun f b => ⟨rfl, rfl⟩, distinctCount_map, ?_⟩
  · intro x y h
    exact exists_hashKey? ((equal_iff x y).mp h).1
  · intro f n
    have h : Operand.isEqual (.fraction f) (.integer n) = true ↔ f.toRat = n := by
      rw [Operand.isEqual_fraction_integer, Fraction.isEqual_iff_toRat_eq, Fraction.toRat_ofInt]
    exact ⟨h, h⟩
  · intro xs ys hperm h
    have hys : (∀ x ∈ ys, x.isTruth = false) ∨ ∀ x ∈ ys, x.isFraction = false := by
      simpa only [hperm.mem_iff] using h
    rw [distinctCount_of_not_both h, distinctCount_of_not_both hys, values_perm hperm]

/-- The truth value and the integer 1, and a list without truth values in two orders. -/
theorem equality_and_distinctCount_at :
    let half := fraction (.reduce 1 2 (by decide))
    let two := fraction (.ofInt 2)
    (truth true).operand.isEqual (integer 1).operand = true ∧
    (∃ k, (truth true).operand.hashKey? = some k ∧ (integer 1).operand.hashKey? = some k) ∧
    [half, two, integer 2].Perm [integer 2, half, two] ∧
    (∀ x ∈ [half, two, integer 2], x.isTruth = false) ∧
    Operand.distinctCount ([half, two, integer 2].map operand)
      = Operand.distinctCount ([integer 2, half, two].map operand) := by
  intro half two
  have hequal : (truth true).operand.isEqual (integer 1).operand = true := by decide
  have hperm : [half, two, integer 2].Perm [integer 2, half, two] := by decide
  have hno : ∀ x ∈ [half, two, integer 2], x.isTruth = false := by decide
  obtain ⟨hkey, -, -, -, -, horder⟩ := equality_and_distinctCount
  exact ⟨hequal, hkey _ _ hequal, hperm, hno, horder _ _ hperm (.inl hno)⟩

end Exact

end RationalCalculator
