import RationalCalculator.Proofs.Expression.Failures

/-!
# The languages of words

There are four languages of words, given by grammars of their own: the operators are four symbols, a
register is one letter, an integer is an optional sign before at most `digitLimit` digits, and a
fraction is an integer, a slash and a positive integer. A word is classified by trying one language
after the other. No word is in two of them (`describes_iff`), so the order in which they are tried
does not matter, and a word is invalid exactly if it is in none.
-/

namespace RationalCalculator

namespace Numeral

/-- Decimal digits and the number they write. -/
inductive Digits : List Char → ℕ → Prop where
  | one {d : ℕ} (hd : d < 10) : Digits [Nat.digitChar d] d
  | append {ds : List Char} {n d : ℕ} (hds : Digits ds n) (hd : d < 10) :
      Digits (ds ++ [Nat.digitChar d]) (10 * n + d)

/-- An optional sign before digits within the limit, and the integer they write. -/
inductive Writes : List Char → ℤ → Prop where
  | unsigned {ds : List Char} {n : ℕ} (hds : Digits ds n) (hl : ds.length ≤ digitLimit) :
      Writes ds n
  | plus {ds : List Char} {n : ℕ} (hds : Digits ds n) (hl : ds.length ≤ digitLimit) :
      Writes ('+' :: ds) n
  | minus {ds : List Char} {n : ℕ} (hds : Digits ds n) (hl : ds.length ≤ digitLimit) :
      Writes ('-' :: ds) (-n)

theorem isDigits_concat {ds : List Char} (h : ds ≠ []) (c : Char) :
    isDigits (ds ++ [c]) = true ↔ isDigits ds = true ∧ c.isDigit = true := by
  simp [isDigits, h]

/-- The digits by which a numeral is read are those of the grammar. -/
theorem digits_iff (ds : List Char) (n : ℕ) :
    Digits ds n ↔ isDigits ds = true ∧ Nat.ofDigitChars 10 ds 0 = n := by
  constructor
  · intro h
    induction h with
    | one hd =>
      obtain ⟨hdigit, hvalue⟩ := isDigit_digitChar hd
      exact ⟨by simp [isDigits, hdigit], (ofDigitChars_concat [] _).trans (by simpa using hvalue)⟩
    | @append ds n d hds hd ih =>
      obtain ⟨hdigit, hvalue⟩ := isDigit_digitChar hd
      obtain ⟨hall, hn⟩ := ih
      have hne : ds ≠ [] := by
        rintro rfl
        contradiction
      exact ⟨(isDigits_concat hne _).mpr ⟨hall, hdigit⟩, by rw [ofDigitChars_concat, hn, hvalue]⟩
  · rintro ⟨hall, rfl⟩
    -- from the end, where the grammar appends the digit of least weight
    induction ds using List.reverseRecOn with
    | nil => contradiction
    | append_singleton ds c ih =>
      have hc : c.isDigit = true := isDigit_of_isDigits hall (by simp)
      obtain ⟨d, hd, rfl⟩ := Text.exists_digitChar hc
      rw [ofDigitChars_concat, (isDigit_digitChar hd).2]
      by_cases hne : ds = []
      · subst hne
        simpa using Digits.one hd
      · exact .append (ih ((isDigits_concat hne _).mp hall).1) hd

/-- A numeral is read exactly if the grammar has it, and as the integer it writes. -/
theorem readChars_eq_ok_iff_writes (cs : List Char) (n : ℤ) :
    readChars cs = .ok n ↔ Writes cs n := by
  rw [readChars_eq_ok_iff]
  constructor
  · rintro ⟨hall, hl, rfl⟩
    have hds := (digits_iff _ _).mpr ⟨hall, rfl⟩
    rcases splitSign_cases cs with hs | ⟨ds, rfl, hs⟩ | ⟨ds, rfl, hs⟩ <;> rw [hs] at hds hl ⊢
    · exact .unsigned hds hl
    · exact .plus hds hl
    · exact .minus hds hl
  · intro h
    cases h with
    | unsigned hds hl =>
      obtain ⟨hall, rfl⟩ := (digits_iff _ _).mp hds
      rw [splitSign_of_isDigits hall]
      exact ⟨hall, hl, rfl⟩
    | plus hds hl =>
      obtain ⟨hall, rfl⟩ := (digits_iff _ _).mp hds
      exact ⟨hall, hl, rfl⟩
    | minus hds hl =>
      obtain ⟨hall, rfl⟩ := (digits_iff _ _).mp hds
      exact ⟨hall, hl, rfl⟩

end Numeral

/-- An integer, a slash and a positive integer, and their quotient. -/
inductive Fraction.Writes : List Char → Fraction → Prop where
  | quotient {a b : List Char} {n d : ℤ} {v : Fraction} (ha : Numeral.Writes a n)
      (hb : Numeral.Writes b d) (hd : 0 < d) (hv : v.toRat = n / d) : Writes (a ++ '/' :: b) v

theorem cast_toNat {d : ℤ} (hd : 0 < d) : (d.toNat : ℚ) = d := by
  have h : (d.toNat : ℤ) = d := Int.toNat_of_nonneg hd.le
  exact_mod_cast h

/-- A fraction literal is read exactly if the grammar has it, and as the quotient in lowest terms. -/
theorem Fraction.parse_eq_ok_iff_writes (word : String) (v : Fraction) :
    parse word = .ok v ↔ Writes word.toList v := by
  rw [parse_eq_ok_iff]
  constructor
  · rintro ⟨a, b, hs, -, h⟩
    obtain ⟨n, d, ha, hb, hd, rfl⟩ := (ofNumerals_eq_ok_iff word a b v).mp h
    rw [Numeral.readChars_eq_ok_iff_writes] at ha hb
    rw [hs]
    refine .quotient ha hb (Int.pos_iff_toNat_pos.mpr hd) ?_
    rw [toRat_reduce, cast_toNat (Int.pos_iff_toNat_pos.mpr hd)]
  · generalize hs : word.toList = cs
    intro h
    cases h with
    | @quotient a b n d v ha hb hd hv =>
      rw [← Numeral.readChars_eq_ok_iff_writes] at ha hb
      refine ⟨a, b, rfl, Numeral.slash_not_mem_of_readChars ha, ?_⟩
      rw [ofNumerals_eq_ok_iff]
      refine ⟨n, d, ha, hb, by omega, ?_⟩
      rw [← toRat_inj, toRat_reduce, hv, cast_toNat hd]

namespace Token

/-- The languages of words. -/
inductive Shape where
  | operator
  | register
  | fraction
  | integer
  deriving DecidableEq

def Shape.Describes : Shape → String → Prop
  | operator, word => word = "+" ∨ word = "-" ∨ word = "*" ∨ word = "/"
  | register, word => ∃ c, word = String.singleton c ∧ Text.isLetter c = true
  | fraction, word => ∃ v, Fraction.Writes word.toList v
  | integer, word => ∃ n, Numeral.Writes word.toList n

/-- The token of a word, if the word is of the shape. -/
def probe : Shape → String → Option Token
  | .operator, word => (Operator.ofSymbol? word).map .operator
  | .register, word => (letter? word).map .register
  | .fraction, word => (Fraction.parse word).toOption.map (.fraction word)
  | .integer, word => (Numeral.read word).toOption.map (.integer word)

def shape? : Token → Option Shape
  | .operator _ => some .operator
  | .register _ => some .register
  | .fraction _ _ => some .fraction
  | .integer _ _ => some .integer
  | .invalid _ => none

theorem toOption_eq_some_iff {ε α : Type} (r : Except ε α) (a : α) :
    r.toOption = some a ↔ r = .ok a := by
  cases r <;> simp [Except.toOption]

theorem ofWord_eq_fraction_iff (word text : String) (v : Fraction) :
    ofWord word = .fraction text v ↔ text = word ∧ Fraction.parse word = .ok v := by
  constructor
  · intro h
    have htext : text = word := by rw [← text_ofWord word, h, Token.text]
    have hlit : (ofWord word).literal? = some v := by rw [h, literal?]
    rcases (literal?_ofWord_iff word v).mp hlit with hv | ⟨n, hn, -⟩
    · exact ⟨htext, hv⟩
    · rw [ofWord_of_read hn] at h
      contradiction
  · rintro ⟨rfl, h⟩
    exact ofWord_of_parse h

theorem ofWord_eq_integer_iff (word text : String) (n : ℤ) :
    ofWord word = .integer text n ↔ text = word ∧ Numeral.read word = .ok n := by
  constructor
  · intro h
    have htext : text = word := by rw [← text_ofWord word, h, Token.text]
    have hlit : (ofWord word).literal? = some (.ofInt n) := by rw [h, literal?]
    rcases (literal?_ofWord_iff word _).mp hlit with hv | ⟨m, hm, -⟩
    · rw [ofWord_of_parse hv] at h
      contradiction
    · rw [ofWord_of_read hm] at h
      exact ⟨htext, (Token.integer.inj h).2 ▸ hm⟩
  · rintro ⟨rfl, h⟩
    exact ofWord_of_read h

/-- A test by itself finds the token that the word is, if it is of the shape. -/
theorem probe_eq_some_iff (s : Shape) (word : String) (t : Token) :
    probe s word = some t ↔ ofWord word = t ∧ t.shape? = some s := by
  cases s with
  | operator =>
    simp only [probe, Option.map_eq_some_iff, Operator.ofSymbol?_eq_some_iff,
      ← ofWord_eq_operator_iff]
    cases t <;> simp [shape?]
  | register =>
    have hletter (c : Char) : letter? word = some c ↔ ofWord word = .register c := by
      rw [letter?_eq_some_iff, ofWord_eq_register_iff, ← String.toList_inj, String.toList_singleton]
    simp only [probe, Option.map_eq_some_iff, hletter]
    cases t <;> simp [shape?]
  | fraction =>
    simp only [probe, Option.map_eq_some_iff, toOption_eq_some_iff]
    constructor
    · rintro ⟨v, hv, rfl⟩
      exact ⟨ofWord_of_parse hv, rfl⟩
    · rintro ⟨h, hs⟩
      cases t with
      | fraction text v =>
        obtain ⟨rfl, hv⟩ := (ofWord_eq_fraction_iff word text v).mp h
        exact ⟨v, hv, rfl⟩
      | _ => simp [shape?] at hs
  | integer =>
    simp only [probe, Option.map_eq_some_iff, toOption_eq_some_iff]
    constructor
    · rintro ⟨n, hn, rfl⟩
      exact ⟨ofWord_of_read hn, rfl⟩
    · rintro ⟨h, hs⟩
      cases t with
      | integer text n =>
        obtain ⟨rfl, hn⟩ := (ofWord_eq_integer_iff word text n).mp h
        exact ⟨n, hn, rfl⟩
      | _ => simp [shape?] at hs

theorem exists_probe_iff (s : Shape) (word : String) :
    (∃ t, probe s word = some t) ↔ (ofWord word).shape? = some s := by
  simp only [probe_eq_some_iff, exists_eq_left']

/-- Each test is passed by the words of its language. -/
theorem describes_iff_probe (s : Shape) (word : String) :
    s.Describes word ↔ ∃ t, probe s word = some t := by
  simp only [← Option.isSome_iff_exists]
  cases s <;> rw [probe, Option.isSome_map, Option.isSome_iff_exists]
  case operator =>
    simp only [Operator.ofSymbol?_eq_some_iff]
    constructor
    · rintro (rfl | rfl | rfl | rfl)
      · exact ⟨.add, rfl⟩
      · exact ⟨.subtract, rfl⟩
      · exact ⟨.multiply, rfl⟩
      · exact ⟨.divide, rfl⟩
    · rintro ⟨op, rfl⟩
      cases op <;> simp [Shape.Describes, Operator.symbol]
  case register =>
    simp only [letter?_eq_some_iff, Shape.Describes, ← String.toList_inj, String.toList_singleton]
  case fraction =>
    simp only [toOption_eq_some_iff, Fraction.parse_eq_ok_iff_writes, Shape.Describes]
  case integer =>
    simp only [toOption_eq_some_iff, Numeral.read, Numeral.readChars_eq_ok_iff_writes,
      Shape.Describes]

/-- The shape of a word is the language it is in. -/
theorem describes_iff (s : Shape) (word : String) :
    s.Describes word ↔ (ofWord word).shape? = some s := by
  rw [describes_iff_probe, exists_probe_iff]

theorem ofWord_eq_invalid_iff (word text : String) :
    ofWord word = .invalid text ↔ text = word ∧ ∀ s : Shape, ¬ s.Describes word := by
  simp only [describes_iff]
  constructor
  · intro h
    refine ⟨by rw [← text_ofWord word, h, Token.text], fun s hs => ?_⟩
    rw [h] at hs
    contradiction
  · rintro ⟨rfl, h⟩
    cases ht : ofWord text with
    | invalid word =>
      have hword := text_ofWord text
      rw [ht, Token.text] at hword
      rw [hword]
    | _ => exact absurd (congrArg shape? ht) (h _)

/-- Whatever the order of the tests, the first that is passed finds the token of the word. -/
theorem findSome?_probe {order : List Shape} (h : ∀ s, s ∈ order) (word : String) :
    (order.findSome? (probe · word)).getD (.invalid word) = ofWord word := by
  cases hfind : order.findSome? (probe · word) with
  | some t =>
    obtain ⟨s, -, hs⟩ := List.exists_of_findSome?_eq_some hfind
    exact ((probe_eq_some_iff s word t).mp hs).1.symm
  | none =>
    rw [Option.getD_none, eq_comm, ofWord_eq_invalid_iff]
    refine ⟨rfl, fun s hs => ?_⟩
    obtain ⟨t, ht⟩ := (describes_iff_probe s word).mp hs
    rw [List.findSome?_eq_none_iff.mp hfind s (h s)] at ht
    contradiction

/-- Every word is classified as its language says: it is in at most one of the four languages and is
invalid if it is in none, whatever the order of the tests. The value of a literal is the one that it
writes, and nothing else has a value. A text that is no fraction literal is at fault for its format
and for nothing else. -/
theorem classified_by_language (word : String) :
    (∀ op : Operator, ofWord word = .operator op ↔ word = op.symbol) ∧
    (∀ c, ofWord word = .register c ↔ word = String.singleton c ∧ Text.isLetter c = true) ∧
    (∀ text v, ofWord word = .fraction text v ↔ text = word ∧ Fraction.Writes word.toList v) ∧
    (∀ text n, ofWord word = .integer text n ↔ text = word ∧ Numeral.Writes word.toList n) ∧
    (∀ text, ofWord word = .invalid text ↔ text = word ∧ ∀ s : Shape, ¬ s.Describes word) ∧
    (∀ v, (ofWord word).literal? = some v ↔ Fraction.Writes word.toList v ∨
      ∃ n, Numeral.Writes word.toList n ∧ .ofInt n = v) ∧
    (∀ s t : Shape, s.Describes word → t.Describes word → s = t) ∧
    (∀ order : List Shape, (∀ s, s ∈ order) →
      (order.findSome? (probe · word)).getD (.invalid word) = ofWord word) ∧
    (∀ f, Fraction.parse word = .error f → f.kind = .format) := by
  simp only [← Fraction.parse_eq_ok_iff_writes, ← Numeral.readChars_eq_ok_iff_writes]
  refine ⟨ofWord_eq_operator_iff word, ofWord_eq_register_iff word, ofWord_eq_fraction_iff word,
    ofWord_eq_integer_iff word, ofWord_eq_invalid_iff word, literal?_ofWord_iff word, ?_,
    fun order h => findSome?_probe h word, ?_⟩
  · intro s t hs ht
    rw [describes_iff] at hs ht
    exact Option.some.inj (hs.symm.trans ht)
  · intro f hf
    rcases Fraction.parse_cases word with ⟨v, hv⟩ | h | h
    · rw [hv] at hf
      contradiction
    · rw [h] at hf
      exact Except.error.inj hf ▸ rfl
    · rw [h] at hf
      exact Except.error.inj hf ▸ rfl

/-- A fraction with a sign and a zero in front, with the tests in reverse order. -/
theorem classified_by_language_at_signed_fraction :
    Shape.fraction.Describes "+6/08" ∧ ¬ Shape.integer.Describes "+6/08" ∧
    (∀ s, s ∈ [Shape.integer, .fraction, .register, .operator]) ∧
    ([Shape.integer, .fraction, .register, .operator].findSome? (probe · "+6/08")).getD
      (.invalid "+6/08") = ofWord "+6/08" := by
  obtain ⟨-, -, -, -, -, -, hone, horder, -⟩ := classified_by_language "+6/08"
  have hfraction : Shape.fraction.Describes "+6/08" := by
    rw [describes_iff]
    decide +kernel
  have hall : ∀ s, s ∈ [Shape.integer, .fraction, .register, .operator] := by
    intro s
    cases s <;> decide
  refine ⟨hfraction, fun hinteger => ?_, hall, horder _ hall⟩
  exact absurd (hone _ _ hfraction hinteger) (by decide)

end Token

end RationalCalculator
