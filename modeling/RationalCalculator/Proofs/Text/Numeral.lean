import Mathlib
import RationalCalculator.Numeral
import RationalCalculator.Text.Blank
import RationalCalculator.Text.Letter

/-!
# What is read as a numeral

A text is read as an integer exactly if it is an optional sign before at least one and at most
`digitLimit` digits. Its characters are then neither blanks nor slashes, and if it is a single
character this is no letter. The digits bound the value, so what has been read can be written.
-/

namespace RationalCalculator

/-- There are ten digits. -/
theorem Text.exists_digitChar {c : Char} (h : c.isDigit = true) :
    ∃ d < 10, c = Nat.digitChar d := by
  obtain ⟨hlo, hhi⟩ := Char.isDigit_iff_toNat.mp h
  have hz : '0'.toNat = 48 ∧ '9'.toNat = 57 := ⟨rfl, rfl⟩
  have hdigits : ∀ k < 10, Char.ofNat (48 + k) = Nat.digitChar k := by decide
  refine ⟨c.toNat - 48, by omega, ?_⟩
  rw [← hdigits _ (by omega), Nat.add_sub_of_le (by omega), Char.ofNat_toNat]

theorem Text.not_isBlank_of_isDigit {c : Char} (h : c.isDigit = true) : isBlank c = false := by
  have hdigits : ∀ d < 10, isBlank (Nat.digitChar d) = false := by decide
  obtain ⟨d, hd, rfl⟩ := exists_digitChar h
  exact hdigits d hd

theorem Text.not_isLetter_of_isDigit {c : Char} (h : c.isDigit = true) : isLetter c = false := by
  have hdigits : ∀ d < 10, isLetter (Nat.digitChar d) = false := by decide +kernel
  obtain ⟨d, hd, rfl⟩ := exists_digitChar h
  exact hdigits d hd

namespace Numeral

/-- A text is its sign, if it has one, and the rest. -/
theorem splitSign_cases (cs : List Char) :
    splitSign cs = (false, cs) ∨ (∃ ds, cs = '+' :: ds ∧ splitSign cs = (false, ds)) ∨
      ∃ ds, cs = '-' :: ds ∧ splitSign cs = (true, ds) := by
  unfold splitSign
  split
  next ds => exact .inr (.inr ⟨ds, rfl, rfl⟩)
  next ds => exact .inr (.inl ⟨ds, rfl, rfl⟩)
  next => exact .inl rfl

theorem readChars_eq_ok_iff (cs : List Char) (n : Int) :
    readChars cs = .ok n ↔ isDigits (splitSign cs).2 = true ∧
      (splitSign cs).2.length ≤ digitLimit ∧ ofDigits (splitSign cs).1 (splitSign cs).2 = n := by
  rw [readChars]
  by_cases hd : isDigits (splitSign cs).2 = true
  · by_cases hl : digitLimit < (splitSign cs).2.length
    · simp [hd, hl, Nat.not_le.mpr hl]
    · simp [hd, hl, Nat.not_lt.mp hl]
  · simp [hd]

theorem isDigit_of_isDigits {ds : List Char} (h : isDigits ds = true) {c : Char} (hc : c ∈ ds) :
    c.isDigit = true := by
  simp only [isDigits, Bool.and_eq_true, List.all_eq_true] at h
  exact h.2 c hc

/-- The characters of a numeral are digits and signs. -/
theorem mem_of_readChars {cs : List Char} {n : Int} (h : readChars cs = .ok n) {c : Char}
    (hc : c ∈ cs) : c.isDigit = true ∨ c = '+' ∨ c = '-' := by
  obtain ⟨hd, -, -⟩ := (readChars_eq_ok_iff cs n).mp h
  rcases splitSign_cases cs with hs | ⟨ds, rfl, hs⟩ | ⟨ds, rfl, hs⟩ <;> rw [hs] at hd
  · exact .inl (isDigit_of_isDigits hd hc)
  · rcases List.mem_cons.mp hc with rfl | hc
    · exact .inr (.inl rfl)
    · exact .inl (isDigit_of_isDigits hd hc)
  · rcases List.mem_cons.mp hc with rfl | hc
    · exact .inr (.inr rfl)
    · exact .inl (isDigit_of_isDigits hd hc)

theorem ne_nil_of_readChars {cs : List Char} {n : Int} (h : readChars cs = .ok n) : cs ≠ [] := by
  rintro rfl
  contradiction

theorem slash_not_mem_of_readChars {cs : List Char} {n : Int} (h : readChars cs = .ok n) :
    '/' ∉ cs := by
  intro hc
  rcases mem_of_readChars h hc with hd | he | he <;> contradiction

theorem not_isBlank_of_readChars {cs : List Char} {n : Int} (h : readChars cs = .ok n) {c : Char}
    (hc : c ∈ cs) : Text.isBlank c = false := by
  rcases mem_of_readChars h hc with hd | rfl | rfl
  · exact Text.not_isBlank_of_isDigit hd
  · decide
  · decide

/-- A numeral of one character is a digit. -/
theorem not_isLetter_of_readChars {c : Char} {n : Int} (h : readChars [c] = .ok n) :
    Text.isLetter c = false := by
  rcases mem_of_readChars h List.mem_cons_self with hd | rfl | rfl
  · exact Text.not_isLetter_of_isDigit hd
  · contradiction
  · contradiction

theorem isDigit_digitChar {d : Nat} (hd : d < 10) :
    (Nat.digitChar d).isDigit = true ∧ (Nat.digitChar d).toNat - '0'.toNat = d := by
  have h : ∀ k < 10, (Nat.digitChar k).isDigit = true ∧ (Nat.digitChar k).toNat - '0'.toNat = k := by
    decide
  exact h d hd

theorem ofDigitChars_concat (ds : List Char) (c : Char) :
    Nat.ofDigitChars 10 (ds ++ [c]) 0
      = 10 * Nat.ofDigitChars 10 ds 0 + (c.toNat - '0'.toNat) := by
  simp [Nat.ofDigitChars, List.foldl_append]

/-- The value of digits is below the power of ten that their number gives. -/
theorem ofDigitChars_lt {ds : List Char} (h : ∀ c ∈ ds, c.isDigit = true) :
    Nat.ofDigitChars 10 ds 0 < Nat.pow 10 ds.length := by
  induction ds using List.reverseRecOn with
  | nil => simp [Nat.ofDigitChars]
  | append_singleton ds c ih =>
    have hlt := ih fun d hd => h d (List.mem_append_left _ hd)
    obtain ⟨d, hd, rfl⟩ := Text.exists_digitChar (h c (by simp))
    have hpow : Nat.pow 10 (ds.length + 1) = Nat.pow 10 ds.length * 10 := rfl
    rw [ofDigitChars_concat, (isDigit_digitChar hd).2, List.length_append, List.length_singleton,
      hpow]
    omega

theorem natAbs_ofDigits (negative : Bool) (ds : List Char) :
    (ofDigits negative ds).natAbs = Nat.ofDigitChars 10 ds 0 := by
  cases negative with
  | false => exact Int.natAbs_natCast _
  | true => exact (Int.natAbs_neg _).trans (Int.natAbs_natCast _)

/-- An integer that has been read is within the limit of what is written. -/
theorem isWritable_of_readChars {cs : List Char} {n : Int} (h : readChars cs = .ok n) :
    isWritable n = true := by
  obtain ⟨hd, hl, rfl⟩ := (readChars_eq_ok_iff cs n).mp h
  have hlt := ofDigitChars_lt fun c hc => isDigit_of_isDigits hd hc
  rw [← natAbs_ofDigits (splitSign cs).1] at hlt
  exact ((write_eq_ok_iff _ _).mp (write_of_lt_pow hlt hl)).1

/-- An integer of smaller size is within the limit too. -/
theorem isWritable_of_natAbs_le {m n : Int} (h : isWritable n = true) (hle : m.natAbs ≤ n.natAbs) :
    isWritable m = true := by
  rw [isWritable, decide_eq_true_eq] at h ⊢
  exact hle.trans_lt h

end Numeral

end RationalCalculator
