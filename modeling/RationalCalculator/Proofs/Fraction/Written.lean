import RationalCalculator.Proofs.Expression.Meaning
import RationalCalculator.Proofs.Text.Join
import RationalCalculator.Proofs.Text.Numeral

/-!
# Fractions written and read back

A fraction has a text exactly if its numerator and its denominator are within the digit limit.
The text is one word, and this word is an integer literal or a fraction literal of the same
fraction, so as a line it has this value. Conversely a literal may be written with signs and
zeros in front and need not be in lowest terms, but its value always has a text: reduction makes
numerator and denominator no larger.
-/

namespace RationalCalculator

namespace Fraction

/-- Numerator and denominator have no more digits than are written. -/
structure WithinLimit (f : Fraction) : Prop where
  num : (Nat.toDigits 10 f.num.natAbs).length ≤ Numeral.digitLimit
  den : (Nat.toDigits 10 f.den).length ≤ Numeral.digitLimit

theorem withinLimit_iff (f : Fraction) :
    f.WithinLimit ↔ Numeral.isWritable f.num = true ∧ Numeral.isWritable f.den = true := by
  rw [Numeral.isWritable_iff, Numeral.isWritable_iff, Int.natAbs_natCast]
  exact ⟨fun h => ⟨h.num, h.den⟩, fun h => ⟨h.1, h.2⟩⟩

theorem isWritable_one : Numeral.isWritable 1 = true := (Numeral.isWritable_iff 1).mpr (by decide)

theorem exists_text_iff (f : Fraction) : (∃ s, f.text = .ok s) ↔ f.WithinLimit := by
  rw [withinLimit_iff]
  cases hw : f.isWhole with
  | true =>
    have hd : f.den = 1 := by simpa [isWhole] using hw
    rw [text_eq_ok_of_isWhole hw, hd]
    simp [Numeral.write_eq_ok_iff, isWritable_one]
  | false =>
    simp only [text_eq_ok_iff hw]
    exact ⟨fun ⟨_, hn, hd, _⟩ => ⟨hn, hd⟩, fun ⟨hn, hd⟩ => ⟨_, hn, hd, rfl⟩⟩

theorem text_eq_error_iff (f : Fraction) (e : Numeral.Overlong) :
    f.text = .error e ↔ ¬ f.WithinLimit := by
  rw [← exists_text_iff]
  cases f.text with
  | error e' => simp
  | ok s => simp

theorem natAbs_num_reduce_le (n : Int) (d : Nat) (h : 0 < d) :
    (reduce n d h).num.natAbs ≤ n.natAbs := by
  have hn := congrArg Int.natAbs (num_reduce_mul n d h)
  rw [Int.natAbs_mul, Int.natAbs_natCast] at hn
  have hg : 0 < n.natAbs.gcd d := Nat.gcd_pos_of_pos_right _ h
  exact hn ▸ Nat.le_mul_of_pos_right _ hg

theorem den_reduce_le (n : Int) (d : Nat) (h : 0 < d) : (reduce n d h).den ≤ d :=
  Nat.div_le_self d _

/-- A fraction read from two numerals is within the limit, since reduction adds no digits. -/
theorem withinLimit_reduce {num den : List Char} {n d : Int} (hn : Numeral.readChars num = .ok n)
    (hd : Numeral.readChars den = .ok d) (h : 0 < d.toNat) :
    (reduce n d.toNat h).WithinLimit := by
  rw [withinLimit_iff]
  refine ⟨Numeral.isWritable_of_natAbs_le (Numeral.isWritable_of_readChars hn)
    (natAbs_num_reduce_le n _ h), Numeral.isWritable_of_natAbs_le
    (Numeral.isWritable_of_readChars hd) ?_⟩
  have hle := den_reduce_le n d.toNat h
  omega

theorem ofNumerals_eq_ok_iff (text : String) (num den : List Char) (v : Fraction) :
    ofNumerals text num den = .ok v ↔ ∃ n d, Numeral.readChars num = .ok n ∧
      Numeral.readChars den = .ok d ∧ ∃ h : 0 < d.toNat, reduce n d.toNat h = v := by
  unfold ofNumerals
  split
  next n d hn hd =>
    constructor
    · intro hv
      split at hv
      next h => exact ⟨n, d, hn, hd, h, Except.ok.inj hv⟩
      next => contradiction
    · rintro ⟨n', d', hn', hd', h, rfl⟩
      obtain rfl := Except.ok.inj (hn.symm.trans hn')
      obtain rfl := Except.ok.inj (hd.symm.trans hd')
      rw [dif_pos h]
  next hno =>
    refine ⟨fun h => by contradiction, ?_⟩
    rintro ⟨n, d, hn, hd, -⟩
    exact (hno n d hn hd).elim

/-- A fraction literal is two numerals and the first slash between them. -/
theorem parse_eq_ok_iff (text : String) (v : Fraction) :
    parse text = .ok v ↔ ∃ num den, text.toList = num ++ '/' :: den ∧ '/' ∉ num ∧
      ofNumerals text num den = .ok v := by
  constructor
  · intro h
    rw [parse] at h
    split at h
    · contradiction
    next c den hdrop =>
      have hsplit := List.takeWhile_append_dropWhile (p := (· != '/')) (l := text.toList)
      have hc : c = '/' := by
        have hhead := List.head?_dropWhile_not (· != '/') text.toList
        simpa [hdrop] using hhead
      rw [hdrop, hc] at hsplit
      refine ⟨_, den, hsplit.symm, ?_, h⟩
      intro hmem
      simpa using List.mem_takeWhile_imp hmem
  · rintro ⟨num, den, hs, hnum, h⟩
    rw [parse_append hnum text hs, h]

end Fraction

namespace Token

theorem value_of_literal? {t : Token} {v : Fraction} (h : t.literal? = some v)
    (registers : Registers) : t.value registers = .ok v := by
  cases t with
  | integer text n => exact congrArg Except.ok (Option.some.inj h)
  | fraction text w => exact congrArg Except.ok (Option.some.inj h)
  | operator op => contradiction
  | register c => contradiction
  | invalid text => contradiction

theorem ofWord_of_ne {word : String} (hop : ∀ op : Operator, word ≠ op.symbol)
    (hc : ∀ c, word.toList = [c] → Text.isLetter c = false) : ofWord word = ofLiteral word := by
  have hno : Operator.ofSymbol? word = none := by
    cases h : Operator.ofSymbol? word with
    | none => rfl
    | some op => exact absurd ((Operator.ofSymbol?_eq_some_iff word op).mp h) (hop op)
  have hlet : letter? word = none := by
    cases h : letter? word with
    | none => rfl
    | some c =>
      obtain ⟨hword, hl⟩ := (letter?_eq_some_iff word c).mp h
      rw [hc c hword] at hl
      contradiction
  rw [ofWord, hno, hlet]

/-- A numeral is an integer literal: no operator and no register looks like one. -/
theorem ofWord_of_read {word : String} {n : Int} (h : Numeral.read word = .ok n) :
    ofWord word = .integer word n := by
  have hparse : ∀ v, Fraction.parse word ≠ .ok v := by
    intro v hv
    obtain ⟨num, den, hs, -, -⟩ := (Fraction.parse_eq_ok_iff word v).mp hv
    exact Numeral.slash_not_mem_of_readChars h (by simp [hs])
  rw [ofWord_of_ne]
  · rw [ofLiteral]
    split
    next v hv => exact absurd hv (hparse v)
    next => rw [h]
  · rintro op rfl
    cases op <;> contradiction
  · intro c hc
    rw [Numeral.read, hc] at h
    exact Numeral.not_isLetter_of_readChars h

theorem ofWord_of_parse {word : String} {v : Fraction} (h : Fraction.parse word = .ok v) :
    ofWord word = .fraction word v := by
  obtain ⟨num, den, hs, -, hv⟩ := (Fraction.parse_eq_ok_iff word v).mp h
  obtain ⟨n, d, hn, hd, -⟩ := (Fraction.ofNumerals_eq_ok_iff word num den v).mp hv
  have hlen : 2 < word.toList.length := by
    have hnum := List.length_pos_of_ne_nil (Numeral.ne_nil_of_readChars hn)
    have hden := List.length_pos_of_ne_nil (Numeral.ne_nil_of_readChars hd)
    rw [hs, List.length_append, List.length_cons]
    omega
  rw [ofWord_of_ne, ofLiteral, h]
  · rintro op rfl
    cases op <;> contradiction
  · intro c hc
    simp [hc] at hlen

/-- The literals are the fraction literals and the numerals. -/
theorem literal?_ofWord_iff (word : String) (v : Fraction) :
    (ofWord word).literal? = some v ↔
      Fraction.parse word = .ok v ∨ ∃ n, Numeral.read word = .ok n ∧ .ofInt n = v := by
  constructor
  · intro h
    unfold ofWord ofLiteral at h
    split at h
    · contradiction
    split at h
    · contradiction
    split at h
    next w hw => exact .inl (Option.some.inj h ▸ hw)
    split at h
    next n hn => exact .inr ⟨n, hn, Option.some.inj h⟩
    · contradiction
  · rintro (h | ⟨n, h, rfl⟩)
    · rw [ofWord_of_parse h, literal?]
    · rw [ofWord_of_read h, literal?]

theorem isWord_of_literal? {word : String} {v : Fraction} (h : (ofWord word).literal? = some v) :
    Text.IsWord word := by
  rw [Text.IsWord, Ne, ← String.toList_eq_nil_iff]
  rcases (literal?_ofWord_iff word v).mp h with h | ⟨n, h, -⟩
  · obtain ⟨num, den, hs, -, hv⟩ := (Fraction.parse_eq_ok_iff word v).mp h
    obtain ⟨n, d, hn, hd, -⟩ := (Fraction.ofNumerals_eq_ok_iff word num den v).mp hv
    rw [hs]
    refine ⟨by simp, fun c hc => ?_⟩
    rcases List.mem_append.mp hc with hc | hc
    · exact Numeral.not_isBlank_of_readChars hn hc
    rcases List.mem_cons.mp hc with rfl | hc
    · decide
    · exact Numeral.not_isBlank_of_readChars hd hc
  · exact ⟨Numeral.ne_nil_of_readChars h, fun c => Numeral.not_isBlank_of_readChars h⟩

/-- The value of a literal has a text. -/
theorem withinLimit_of_literal? {word : String} {v : Fraction}
    (h : (ofWord word).literal? = some v) : v.WithinLimit := by
  rcases (literal?_ofWord_iff word v).mp h with h | ⟨n, hn, rfl⟩
  · obtain ⟨num, den, -, -, hv⟩ := (Fraction.parse_eq_ok_iff word v).mp h
    obtain ⟨n, d, hn, hd, hpos, rfl⟩ := (Fraction.ofNumerals_eq_ok_iff word num den v).mp hv
    exact Fraction.withinLimit_reduce hn hd hpos
  · exact (Fraction.withinLimit_iff _).mpr
      ⟨Numeral.isWritable_of_readChars hn, Fraction.isWritable_one⟩

/-- A literal that is alone on a line gives the line its value. -/
theorem evaluate_of_literal? {word : String} {v : Fraction} (h : (ofWord word).literal? = some v)
    (registers : Registers) (strict : Bool) : evaluate registers strict word = .ok v := by
  obtain ⟨a, ha, hd, hv⟩ := Atom.of_value_token (value_of_literal? h registers)
  rw [evaluate_eq_ok_iff]
  refine ⟨.term (.atom a), [], ?_, Reading.stops_nil, fun _ => rfl, hd, hv⟩
  rw [scan, Text.split_of_isWord (isWord_of_literal? h), List.map_singleton, ← ha]
  rfl

end Token

namespace Fraction

theorem literal?_of_text {f : Fraction} {s : String} (h : f.text = .ok s) :
    (Token.ofWord s).literal? = some f := by
  rw [Token.literal?_ofWord_iff]
  cases hw : f.isWhole with
  | false => exact .inl (parse_of_text hw h)
  | true =>
    have hd : f.den = 1 := by simpa [isWhole] using hw
    exact .inr ⟨f.num, read_of_text hw h, Fraction.ext rfl hd.symm⟩

/-- The text is an integer literal or a fraction literal, as the denominator says. -/
theorem ofWord_of_text {f : Fraction} {s : String} (h : f.text = .ok s) :
    Token.ofWord s = if f.den = 1 then .integer s f.num else .fraction s f := by
  by_cases hd : f.den = 1
  · have hw : f.isWhole = true := by simpa [isWhole] using hd
    rw [if_pos hd, Token.ofWord_of_read (read_of_text hw h)]
  · have hw : f.isWhole = false := by simpa [isWhole] using hd
    rw [if_neg hd, Token.ofWord_of_parse (parse_of_text hw h)]

/-- The text is one word, and read as a token or as a line it stands for the fraction. -/
structure StandsFor (s : String) (f : Fraction) : Prop where
  word : Text.IsWord s
  split : Text.split s = [s]
  literal : (Token.ofWord s).literal? = some f
  integer_iff : (∃ n, Token.ofWord s = .integer s n) ↔ f.den = 1
  fraction_iff : (∃ v, Token.ofWord s = .fraction s v) ↔ f.den ≠ 1
  value : ∀ registers strict, evaluate registers strict s = .ok f

theorem standsFor_of_text {f : Fraction} {s : String} (h : f.text = .ok s) : StandsFor s f where
  word := Token.isWord_of_literal? (literal?_of_text h)
  split := Text.split_of_isWord (Token.isWord_of_literal? (literal?_of_text h))
  literal := literal?_of_text h
  integer_iff := by
    rw [ofWord_of_text h]
    split <;> simp_all
  fraction_iff := by
    rw [ofWord_of_text h]
    split <;> simp_all
  value := Token.evaluate_of_literal? (literal?_of_text h)

/-- A fraction within the limit has a text that stands for it and for no other fraction. A text
that is read as a literal may differ from that of its value, but the value has a text, which is a
literal of the same value. -/
theorem text_inverts_reading :
    (∀ f : Fraction, f.WithinLimit → ∃ s, f.text = .ok s ∧ StandsFor s f) ∧
    (∀ f g : Fraction, f.WithinLimit → g.WithinLimit → f.text = g.text → f = g) ∧
    (∀ (word : String) (v : Fraction), (Token.ofWord word).literal? = some v →
      ∃ s, v.text = .ok s ∧ (Token.ofWord s).literal? = some v) := by
  refine ⟨?_, ?_, ?_⟩
  · intro f hf
    obtain ⟨s, hs⟩ := (exists_text_iff f).mpr hf
    exact ⟨s, hs, standsFor_of_text hs⟩
  · intro f g hf _ heq
    obtain ⟨s, hs⟩ := (exists_text_iff f).mpr hf
    have hg := literal?_of_text (heq ▸ hs)
    rw [literal?_of_text hs] at hg
    exact Option.some.inj hg
  · intro word v h
    obtain ⟨s, hs⟩ := (exists_text_iff v).mpr (Token.withinLimit_of_literal? h)
    exact ⟨s, hs, literal?_of_text hs⟩

/-- A negative fraction, and a literal with a sign and zeros in front that is not in lowest
terms. -/
theorem text_inverts_reading_at :
    (∃ s, (reduce (-3) 4 (by decide)).text = .ok s ∧ StandsFor s (reduce (-3) 4 (by decide))) ∧
    (Token.ofWord "+006/008").literal? = some (reduce 3 4 (by decide)) ∧
    ∃ s, (reduce 3 4 (by decide)).text = .ok s ∧
      (Token.ofWord s).literal? = some (reduce 3 4 (by decide)) := by
  have hlimit : (reduce (-3) 4 (by decide)).WithinLimit := ⟨by decide, by decide⟩
  have hliteral : (Token.ofWord "+006/008").literal? = some (reduce 3 4 (by decide)) := by
    decide +kernel
  obtain ⟨hstands, -, hvalue⟩ := text_inverts_reading
  exact ⟨hstands _ hlimit, hliteral, hvalue _ _ hliteral⟩

end Fraction

end RationalCalculator
