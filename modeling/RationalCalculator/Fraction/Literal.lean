import RationalCalculator.Fault
import RationalCalculator.Fraction.Basic

/-!
# Fractions as text

A fraction literal is two numerals joined by a slash, the second one positive; it need not be in
lowest terms. A fraction is written as its numerator alone if it is whole, and otherwise as the
literal of its lowest terms. What is written reads back as the same fraction
(`parse_of_text`, `read_of_text`).
-/

namespace RationalCalculator

namespace Fraction

/-- `num / den` from two integers, with a fault that shows the numerator if `den` is zero. -/
def build (num den : Int) : Except Failure Fraction :=
  if h : den = 0 then
    match Numeral.write num with
    | .ok numerator => .error (.fault (.zeroDenominator numerator))
    | .error _ => .error .overlong
  else .ok (ofRatio num den h)

/-- The fraction with these two numerals, read from the literal `text`. -/
def ofNumerals (text : String) (num den : List Char) : Except Fault Fraction :=
  match Numeral.readChars num, Numeral.readChars den with
  | .ok n, .ok d =>
    if h : 0 < d.toNat then .ok (reduce n d.toNat h) else .error (.nonPositiveDenominator text)
  | _, _ => .error (.malformedFraction text)

/-- Read a fraction literal. The first slash divides it. -/
def parse (text : String) : Except Fault Fraction :=
  match text.toList.dropWhile (· != '/') with
  | [] => .error (.malformedFraction text)
  | _ :: den => ofNumerals text (text.toList.takeWhile (· != '/')) den

def text (f : Fraction) : Except Numeral.Overlong String := do
  let num ← Numeral.write f.num
  if f.isWhole then return num
  let den ← Numeral.write f.den
  return num ++ "/" ++ den

/-- Write a fraction as an expression that builds it. -/
def buildText (f : Fraction) : Except Numeral.Overlong String := do
  let num ← Numeral.write f.num
  let den ← Numeral.write f.den
  return s!"BigFraction({num}, {den})"

theorem slash_not_mem_repr (n : Int) : '/' ∉ n.repr.toList := by
  have hd : ∀ m : Nat, '/' ∉ Nat.toDigits 10 m := fun m h => by
    have := Nat.isDigit_of_mem_toDigits (by decide) (by decide) h
    exact absurd this (by decide)
  cases n with
  | ofNat m => rw [show (Int.ofNat m).repr.toList = _ from Numeral.toList_repr_of_nonneg m]
               exact hd m
  | negSucc m =>
    rw [Numeral.toList_repr_of_neg]
    simp only [List.mem_cons, not_or]
    exact ⟨by decide, hd (m + 1)⟩

theorem parse_append {num den : List Char} (h : '/' ∉ num) (s : String)
    (hs : s.toList = num ++ '/' :: den) : parse s = ofNumerals s num den := by
  have hp : ∀ c ∈ num, (c != '/') = true := fun c hc => by
    simp only [bne_iff_ne, ne_eq]
    rintro rfl
    exact h hc
  have hdrop : s.toList.dropWhile (· != '/') = '/' :: den := by
    rw [hs, List.dropWhile_append_of_pos hp]
    simp
  have htake : s.toList.takeWhile (· != '/') = num := by
    rw [hs, List.takeWhile_append_of_pos hp]
    simp
  rw [parse, hdrop, htake]

theorem text_eq_ok_of_isWhole {f : Fraction} (h : f.isWhole = true) :
    f.text = Numeral.write f.num := by
  cases hn : Numeral.write f.num <;> simp [text, hn, h, bind, Except.bind, pure, Except.pure]

/-- The text of a fraction that is not whole is the literal of its lowest terms. -/
theorem text_eq_ok_iff {f : Fraction} (h : f.isWhole = false) (s : String) :
    f.text = .ok s ↔ Numeral.isWritable f.num = true ∧ Numeral.isWritable f.den = true ∧
      f.num.repr ++ "/" ++ (f.den : Int).repr = s := by
  by_cases hn : Numeral.isWritable f.num = true <;>
    by_cases hd : Numeral.isWritable (f.den : Int) = true <;>
    simp [text, Numeral.write, h, hn, hd, bind, Except.bind, pure, Except.pure]

/-- A whole fraction is written as an integer that reads back. -/
theorem read_of_text {f : Fraction} {s : String} (hw : f.isWhole = true) (h : f.text = .ok s) :
    Numeral.read s = .ok f.num :=
  Numeral.read_of_write (by rw [← text_eq_ok_of_isWhole hw, h])

/-- A fraction that is not whole is written as a literal that reads back. -/
theorem parse_of_text {f : Fraction} {s : String} (hw : f.isWhole = false) (h : f.text = .ok s) :
    parse s = .ok f := by
  obtain ⟨hn, hd, rfl⟩ := (text_eq_ok_iff hw s).1 h
  have hs : (f.num.repr ++ "/" ++ (f.den : Int).repr).toList
      = f.num.repr.toList ++ '/' :: (f.den : Int).repr.toList := by
    simp
  rw [parse_append (slash_not_mem_repr f.num) _ hs, ofNumerals]
  have hnum : Numeral.readChars f.num.repr.toList = .ok f.num :=
    Numeral.read_of_write ((Numeral.write_eq_ok_iff _ _).2 ⟨hn, rfl⟩)
  have hden : Numeral.readChars (f.den : Int).repr.toList = .ok (f.den : Int) :=
    Numeral.read_of_write ((Numeral.write_eq_ok_iff _ _).2 ⟨hd, rfl⟩)
  rw [hnum, hden]
  simp [f.den_pos, reduce_num_den]

end Fraction

end RationalCalculator
