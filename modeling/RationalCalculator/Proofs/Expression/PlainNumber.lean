import RationalCalculator.Proofs.Expression.Plausibility

/-!
# Plain numbers and literals

A plain number is made of digits, with a minus sign in front or not, and with a slash and more digits
behind or not. The literals are another set of words: a literal has no denominator of zero and no
numeral beyond the digit limit, but it may have plus signs. A plus sign is all that keeps a literal
from being a plain number, so two literals clash unless there is one in them.
-/

namespace RationalCalculator

open Numeral (isDigits)

theorem Numeral.isDigits_iff (ds : List Char) :
    isDigits ds = true ↔ ds ≠ [] ∧ ∀ c ∈ ds, c.isDigit = true := by
  simp [isDigits]

/-- Digits, or digits on both sides of a slash. -/
inductive IsUnsigned : List Char → Prop where
  | whole {ds : List Char} (h : isDigits ds = true) : IsUnsigned ds
  | quotient {num den : List Char} (hn : isDigits num = true) (hd : isDigits den = true) :
      IsUnsigned (num ++ '/' :: den)

/-- The characters of a plain number. -/
inductive IsPlain : List Char → Prop where
  | unsigned {cs : List Char} (h : IsUnsigned cs) : IsPlain cs
  | minus {cs : List Char} (h : IsUnsigned cs) : IsPlain ('-' :: cs)

theorem mem_of_isUnsigned {cs : List Char} (h : IsUnsigned cs) {c : Char} (hc : c ∈ cs) :
    c.isDigit = true ∨ c = '/' := by
  cases h with
  | whole h => exact .inl (Numeral.isDigit_of_isDigits h hc)
  | quotient hn hd =>
    rcases List.mem_append.mp hc with hc | hc
    · exact .inl (Numeral.isDigit_of_isDigits hn hc)
    rcases List.mem_cons.mp hc with rfl | hc
    · exact .inr rfl
    · exact .inl (Numeral.isDigit_of_isDigits hd hc)

theorem not_isUnsigned_minus (cs : List Char) : ¬ IsUnsigned ('-' :: cs) := by
  intro h
  rcases mem_of_isUnsigned h List.mem_cons_self with hd | hs <;> contradiction

theorem takeWhile_isDigit_append {ds : List Char} (h : isDigits ds = true) (cs : List Char) :
    (ds ++ '/' :: cs).takeWhile Char.isDigit = ds := by
  rw [List.takeWhile_append_of_pos ((Numeral.isDigits_iff ds).mp h).2,
    List.takeWhile_cons_of_neg (by decide), List.append_nil]

/-- The digits in front decide where the slash has to be. -/
theorem isUnsigned_iff (cs : List Char) :
    IsUnsigned cs ↔ cs.takeWhile Char.isDigit ≠ [] ∧
      (cs.drop (cs.takeWhile Char.isDigit).length = [] ∨
        ∃ ds, cs.drop (cs.takeWhile Char.isDigit).length = '/' :: ds ∧ isDigits ds = true) := by
  have hfront : cs.takeWhile Char.isDigit ++ cs.drop (cs.takeWhile Char.isDigit).length = cs :=
    List.prefix_iff_eq_append.mp (List.takeWhile_prefix _)
  constructor
  · rintro (h | ⟨hn, hd⟩)
    · obtain ⟨hne, hdigit⟩ := (Numeral.isDigits_iff cs).mp h
      rw [List.takeWhile_eq_self_iff.mpr hdigit, List.drop_length]
      exact ⟨hne, .inl rfl⟩
    · rw [takeWhile_isDigit_append hn, List.drop_left]
      exact ⟨((Numeral.isDigits_iff _).mp hn).1, .inr ⟨_, rfl, hd⟩⟩
  · rintro ⟨hne, hrest⟩
    have hdigits : isDigits (cs.takeWhile Char.isDigit) = true :=
      (Numeral.isDigits_iff _).mpr ⟨hne, fun c => List.mem_takeWhile_imp⟩
    rcases hrest with hnil | ⟨ds, hslash, hds⟩
    · rw [hnil, List.append_nil] at hfront
      exact .whole (hfront ▸ hdigits)
    · rw [hslash] at hfront
      rw [← hfront]
      exact .quotient hdigits hds

theorem isPlain_minus_iff (cs : List Char) : IsPlain ('-' :: cs) ↔ IsUnsigned cs := by
  refine ⟨fun h => ?_, .minus⟩
  cases h with
  | minus h => exact h
  | unsigned h => exact absurd h (not_isUnsigned_minus cs)

theorem isPlain_iff_of_ne_minus {cs : List Char} (hno : ∀ ds, cs = '-' :: ds → False) :
    IsPlain cs ↔ IsUnsigned cs := by
  refine ⟨fun h => ?_, .unsigned⟩
  cases h with
  | minus h => exact absurd rfl (hno _)
  | unsigned h => exact h

theorem isPlainNumber_iff (word : String) :
    isPlainNumber word = true ↔ IsPlain word.toList := by
  unfold isPlainNumber
  split
  next cs hcs =>
    rw [hcs, isPlain_minus_iff, isUnsigned_iff]
    dsimp only
    cases cs.drop (cs.takeWhile Char.isDigit).length <;> simp
  next hno =>
    rw [isPlain_iff_of_ne_minus hno, isUnsigned_iff]
    dsimp only
    cases word.toList.drop (word.toList.takeWhile Char.isDigit).length <;> simp

theorem isPlainNumber_of_isAlpha {word : String} {c : Char} (hc : c ∈ word.toList)
    (halpha : c.isAlpha = true) (hminus : '-' ∉ word.toList) : isPlainNumber word = false := by
  rw [Bool.eq_false_iff, ne_eq, isPlainNumber_iff]
  generalize word.toList = cs at hc hminus
  rintro (h | h)
  · rcases mem_of_isUnsigned h hc with hd | rfl
    · have hletter := Text.isLetter_of_isAlpha halpha
      rw [Text.not_isLetter_of_isDigit hd] at hletter
      contradiction
    · contradiction
  · exact hminus List.mem_cons_self

/-- There is no plus sign in a plain number. -/
theorem plus_not_mem_of_isPlain {cs : List Char} (h : IsPlain cs) : '+' ∉ cs := by
  have hno {ds : List Char} (hds : IsUnsigned ds) : '+' ∉ ds := by
    intro hmem
    rcases mem_of_isUnsigned hds hmem with hd | hs <;> contradiction
  cases h with
  | unsigned h => exact hno h
  | minus h => simpa using hno h

namespace Numeral

/-- A numeral without a plus sign is digits, or a minus sign and digits, which is not positive. -/
theorem digits_or_minus_of_readChars {cs : List Char} {n : Int} (h : readChars cs = .ok n)
    (hplus : '+' ∉ cs) :
    isDigits cs = true ∨ ∃ ds, cs = '-' :: ds ∧ isDigits ds = true ∧ n ≤ 0 := by
  obtain ⟨hd, -, hn⟩ := (readChars_eq_ok_iff cs n).mp h
  rcases splitSign_cases cs with hs | ⟨ds, rfl, hs⟩ | ⟨ds, rfl, hs⟩
  · exact .inl (by rwa [hs] at hd)
  · exact absurd List.mem_cons_self hplus
  · rw [hs] at hd hn
    refine .inr ⟨ds, rfl, hd, ?_⟩
    rw [← hn, ofDigits, if_pos rfl]
    omega

end Numeral

namespace Token

theorem isPlain_of_literal? {word : String} {v : Fraction} (h : (ofWord word).literal? = some v)
    (hplus : '+' ∉ word.toList) : IsPlain word.toList := by
  rcases (literal?_ofWord_iff word v).mp h with h | ⟨n, h, -⟩
  · obtain ⟨num, den, hs, -, hv⟩ := (Fraction.parse_eq_ok_iff word v).mp h
    obtain ⟨n, d, hn, hd, hpos, -⟩ := (Fraction.ofNumerals_eq_ok_iff word num den v).mp hv
    rw [hs] at hplus ⊢
    have hnum : '+' ∉ num := fun hmem => hplus (List.mem_append_left _ hmem)
    have hden : '+' ∉ den := fun hmem =>
      hplus (List.mem_append_right _ (List.mem_cons_of_mem _ hmem))
    have hdigits : isDigits den = true := by
      rcases Numeral.digits_or_minus_of_readChars hd hden with hd | ⟨-, -, -, hneg⟩
      · exact hd
      · omega
    rcases Numeral.digits_or_minus_of_readChars hn hnum with hn | ⟨ds, rfl, hn, -⟩
    · exact .unsigned (.quotient hn hdigits)
    · exact .minus (.quotient hn hdigits)
  · rcases Numeral.digits_or_minus_of_readChars h hplus with h | ⟨ds, hds, h, -⟩
    · exact .unsigned (.whole h)
    · rw [hds]
      exact .minus (.whole h)

theorem isPlainNumber_of_literal?_iff {word : String} {v : Fraction}
    (h : (ofWord word).literal? = some v) :
    isPlainNumber word = true ↔ '+' ∉ word.toList := by
  rw [isPlainNumber_iff]
  exact ⟨plus_not_mem_of_isPlain, isPlain_of_literal? h⟩

theorem not_isOperatorSymbol_of_literal? {word : String} {v : Fraction}
    (h : (ofWord word).literal? = some v) : isOperatorSymbol word = false := by
  rw [Bool.eq_false_iff, ne_eq, isOperatorSymbol_iff]
  rintro ⟨op, hop⟩
  rw [hop] at h
  contradiction

/-- Two literals clash unless there is a plus sign in them. -/
theorem clash_of_literals_iff {a b : String} {v w : Fraction} (ha : (ofWord a).literal? = some v)
    (hb : (ofWord b).literal? = some w) :
    clash a b = true ↔ '+' ∉ a.toList ∧ '+' ∉ b.toList := by
  rw [clash, not_isOperatorSymbol_of_literal? ha, Bool.false_and, Bool.or_false, Bool.and_eq_true,
    isPlainNumber_of_literal?_iff ha, isPlainNumber_of_literal?_iff hb]

theorem clash_of_operators {a b : String} {op op' : Operator} (ha : ofWord a = .operator op)
    (hb : ofWord b = .operator op') : clash a b = true := by
  have ha' : isOperatorSymbol a = true := (isOperatorSymbol_iff a).mpr ⟨op, ha⟩
  have hb' : isOperatorSymbol b = true := (isOperatorSymbol_iff b).mpr ⟨op', hb⟩
  rw [clash, ha', hb', Bool.true_and, Bool.or_true]

end Token

end RationalCalculator
