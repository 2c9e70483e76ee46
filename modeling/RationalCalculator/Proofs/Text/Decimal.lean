import RationalCalculator.Proofs.Text.Numeral
import RationalCalculator.Significant

/-!
# Decimal numbers as texts

A decimal number has digits, perhaps a minus sign in front of them, perhaps a point with more
digits behind them, and perhaps an exponent with a sign. Whatever the style and the quotient, the
text with significant digits is such a number (`isDecimal_text`).
-/

namespace RationalCalculator

open Numeral (isDigits)

/-- Nothing, or a point with digits behind it. -/
inductive IsDecimalPart : List Char → Prop where
  | none : IsDecimalPart []
  | digits (ds : List Char) (h : isDigits ds = true) : IsDecimalPart ('.' :: ds)

/-- Nothing, or an exponent with its sign. -/
inductive IsDecimalExponent : List Char → Prop where
  | none : IsDecimalExponent []
  | digits (sign : Char) (ds : List Char) (hsign : sign = '+' ∨ sign = '-')
      (h : isDigits ds = true) : IsDecimalExponent ('e' :: sign :: ds)

/-- The text of a decimal number. -/
def IsDecimal (text : String) : Prop :=
  ∃ sign whole part exponent, text.toList = sign ++ whole ++ part ++ exponent ∧
    (sign = [] ∨ sign = ['-']) ∧ isDigits whole = true ∧ IsDecimalPart part ∧
    IsDecimalExponent exponent

namespace SignificantStyle

theorem isDigits_of_forall {ds : List Char} (hne : ds ≠ []) (h : ∀ c ∈ ds, c.isDigit = true) :
    isDigits ds = true := by
  simpa [isDigits, hne] using h

theorem isDigit_of_mem_zeros_append {k : Nat} {ds : List Char} (h : ∀ c ∈ ds, c.isDigit = true) :
    ∀ c ∈ List.replicate k '0' ++ ds, c.isDigit = true := by
  intro c hc
  rcases List.mem_append.mp hc with hzero | hdigit
  · obtain rfl := List.eq_of_mem_replicate hzero
    rfl
  · exact h c hdigit

theorem mem_of_mem_trimZeros {ds : List Char} {c : Char} (h : c ∈ trimZeros ds) : c ∈ ds := by
  rw [trimZeros, List.mem_reverse] at h
  exact List.mem_reverse.mp ((List.dropWhile_suffix _).subset h)

theorem exists_joinPoint (whole : List Char) {part : List Char}
    (h : ∀ c ∈ part, c.isDigit = true) :
    ∃ p, joinPoint whole part = whole ++ p ∧ IsDecimalPart p := by
  by_cases hpart : part = []
  · exact ⟨[], by simp [joinPoint, hpart], .none⟩
  · exact ⟨'.' :: part, by simp [joinPoint, hpart], .digits part (isDigits_of_forall hpart h)⟩

theorem isDecimalExponent_exponentText (style : SignificantStyle) (x : Int) :
    IsDecimalExponent (style.exponentText x) := by
  rw [exponentText, List.cons_append, List.cons_append]
  have hdigits := Numeral.isDigits_toDigits x.natAbs
  refine .digits _ _ (by split <;> simp) (isDigits_of_forall ?_ ?_)
  · simp [Nat.toDigits_ne_nil]
  · exact isDigit_of_mem_zeros_append fun c hc => Numeral.isDigit_of_isDigits hdigits hc

/-- Digits that are laid out make a number without a sign. -/
theorem exists_layout (style : SignificantStyle) {ds : List Char} (h : isDigits ds = true)
    (x : Int) : ∃ whole part exponent, style.layout ds x = whole ++ part ++ exponent ∧
      isDigits whole = true ∧ IsDecimalPart part ∧ IsDecimalExponent exponent := by
  have hne : ds ≠ [] := by
    rintro rfl
    contradiction
  have hdigit : ∀ c ∈ ds, c.isDigit = true := fun c hc => Numeral.isDigit_of_isDigits h hc
  -- What stands before the point is never empty, as at least one digit is taken.
  have htake (k : Nat) : isDigits (ds.take (k + 1)) = true :=
    isDigits_of_forall (by simp [hne]) fun c hc => hdigit c (List.mem_of_mem_take hc)
  have hdrop (k : Nat) : ∀ c ∈ trimZeros (ds.drop k), c.isDigit = true := fun c hc =>
    hdigit c (List.mem_of_mem_drop (mem_of_mem_trimZeros hc))
  have hsmall : ∀ c ∈ List.replicate (-x - 1).toNat '0' ++ trimZeros ds, c.isDigit = true :=
    isDigit_of_mem_zeros_append fun c hc => hdigit c (mem_of_mem_trimZeros hc)
  unfold layout
  split
  · split
    · obtain ⟨p, hp, hpart⟩ := exists_joinPoint ['0'] hsmall
      exact ⟨['0'], p, [], by rw [hp, List.append_nil], rfl, hpart, .none⟩
    · obtain ⟨p, hp, hpart⟩ := exists_joinPoint (ds.take (x.toNat + 1)) (hdrop (x.toNat + 1))
      exact ⟨_, p, [], by rw [hp, List.append_nil], htake _, hpart, .none⟩
  · obtain ⟨p, hp, hpart⟩ := exists_joinPoint (ds.take 1) (hdrop 1)
    exact ⟨_, p, _, by rw [hp], htake 0, hpart, isDecimalExponent_exponentText style x⟩

/-- The text with significant digits is a decimal number. -/
theorem isDecimal_text (style : SignificantStyle) (negative : Bool) (n d : Nat) :
    IsDecimal (style.text negative n d) := by
  have hbody : ∃ whole part exponent, (if n = 0 then ['0'] else
      style.layout (Nat.toDigits 10 (style.round n d).1) (style.round n d).2)
        = whole ++ part ++ exponent ∧
      isDigits whole = true ∧ IsDecimalPart part ∧ IsDecimalExponent exponent := by
    split
    · exact ⟨['0'], [], [], rfl, rfl, .none, .none⟩
    · exact exists_layout style (Numeral.isDigits_toDigits _) _
  obtain ⟨whole, part, exponent, hb, hwhole, hpart, hexponent⟩ := hbody
  cases negative with
  | false =>
    refine ⟨[], whole, part, exponent, ?_, .inl rfl, hwhole, hpart, hexponent⟩
    rw [text, String.toList_ofList, if_neg Bool.false_ne_true]
    exact hb
  | true =>
    refine ⟨['-'], whole, part, exponent, ?_, .inr rfl, hwhole, hpart, hexponent⟩
    rw [text, String.toList_ofList, if_pos rfl]
    exact congrArg ('-' :: ·) hb

end SignificantStyle

end RationalCalculator
