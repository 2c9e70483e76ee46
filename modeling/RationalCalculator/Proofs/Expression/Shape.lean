import RationalCalculator.Proofs.Expression.Descent
import RationalCalculator.Proofs.Expression.LeftmostFault
import RationalCalculator.Proofs.Fraction.Written
import RationalCalculator.Proofs.Text.Strip

/-!
# The shapes of words

Which token a word becomes can be told from the word: the operators are the four symbols, the
registers are the words of a single letter, and no word that starts with a letter is a literal.
So a line holds an operator or a register as a token exactly if it holds the word. A line of a
single word comes to what the word stands for.
-/

namespace RationalCalculator

/-- A symbol is a single character, and not a letter. -/
theorem Operator.exists_symbol_eq (op : Operator) :
    ∃ d, op.symbol = String.singleton d ∧ Text.isLetter d = false := by
  cases op with
  | add => exact ⟨'+', rfl, by decide +kernel⟩
  | subtract => exact ⟨'-', rfl, by decide +kernel⟩
  | multiply => exact ⟨'*', rfl, by decide +kernel⟩
  | divide => exact ⟨'/', rfl, by decide +kernel⟩

theorem Operator.symbol_ne_singleton (op : Operator) {c : Char} (h : Text.isLetter c = true) :
    op.symbol ≠ String.singleton c := by
  intro hs
  obtain ⟨d, hd, hno⟩ := op.exists_symbol_eq
  obtain rfl : d = c := by simpa [← String.toList_inj] using hd.symm.trans hs
  rw [h] at hno
  contradiction

theorem Text.isWord_singleton {c : Char} (h : isBlank c = false) :
    IsWord (String.singleton c) := by
  refine ⟨by simp [← String.toList_eq_nil_iff], fun d hd => ?_⟩
  obtain rfl : d = c := by simpa using hd
  exact h

theorem Text.split_singleton {c : Char} (h : isBlank c = false) :
    split (String.singleton c) = [String.singleton c] :=
  split_of_isWord (isWord_singleton h)

namespace Token

theorem ofWord_symbol (op : Operator) : ofWord op.symbol = .operator op := by
  rw [ofWord, (Operator.ofSymbol?_eq_some_iff op.symbol op).mpr rfl]

theorem ofWord_singleton {c : Char} (h : Text.isLetter c = true) :
    ofWord (String.singleton c) = .register c := by
  have hop : Operator.ofSymbol? (String.singleton c) = none := by
    rw [Option.eq_none_iff_forall_ne_some]
    intro op ho
    exact op.symbol_ne_singleton h ((Operator.ofSymbol?_eq_some_iff _ op).mp ho).symm
  have hletter := (letter?_eq_some_iff (String.singleton c) c).mpr ⟨by simp, h⟩
  simp only [ofWord, hop, hletter]

theorem scan_singleton {c : Char} (h : Text.isLetter c = true) :
    scan (String.singleton c) = [.register c] := by
  rw [scan, Text.split_singleton (Text.not_isBlank_of_isLetter h), List.map_singleton,
    ofWord_singleton h]

theorem ofWord_eq_operator_iff (word : String) (op : Operator) :
    ofWord word = .operator op ↔ word = op.symbol := by
  constructor
  · intro h
    rw [← text_ofWord word, h, text]
  · rintro rfl
    exact ofWord_symbol op

theorem ofWord_eq_register_iff (word : String) (c : Char) :
    ofWord word = .register c ↔ word = String.singleton c ∧ Text.isLetter c = true := by
  constructor
  · intro h
    refine ⟨by rw [← text_ofWord word, h, text], ?_⟩
    unfold ofWord ofLiteral at h
    split at h
    · contradiction
    split at h
    next d hd =>
      obtain rfl := Token.register.inj h
      exact ((letter?_eq_some_iff word d).mp hd).2
    split at h
    · contradiction
    split at h <;> contradiction
  · rintro ⟨rfl, h⟩
    exact ofWord_singleton h

theorem operator_mem_scan_iff (line : String) (op : Operator) :
    .operator op ∈ scan line ↔ op.symbol ∈ Text.split line := by
  simp only [scan, List.mem_map, ofWord_eq_operator_iff, exists_eq_right]

theorem register_mem_scan_iff (line : String) (c : Char) :
    .register c ∈ scan line ↔ String.singleton c ∈ Text.split line ∧ Text.isLetter c = true := by
  simp only [scan, List.mem_map, ofWord_eq_register_iff]
  constructor
  · rintro ⟨w, hw, rfl, hc⟩
    exact ⟨hw, hc⟩
  · rintro ⟨hw, hc⟩
    exact ⟨_, hw, rfl, hc⟩

/-- The characters of a literal are digits, signs and slashes. -/
theorem mem_of_literal? {word : String} {v : Fraction} (h : (ofWord word).literal? = some v)
    {c : Char} (hc : c ∈ word.toList) : c.isDigit = true ∨ c = '+' ∨ c = '-' ∨ c = '/' := by
  have hread {cs : List Char} {n : Int} (hcs : Numeral.readChars cs = .ok n) (hmem : c ∈ cs) :
      c.isDigit = true ∨ c = '+' ∨ c = '-' ∨ c = '/' :=
    (Numeral.mem_of_readChars hcs hmem).imp_right (Or.imp_right .inl)
  rcases (literal?_ofWord_iff word v).mp h with h | ⟨n, h, -⟩
  · obtain ⟨num, den, hs, -, hv⟩ := (Fraction.parse_eq_ok_iff word v).mp h
    obtain ⟨n, d, hn, hd, -⟩ := (Fraction.ofNumerals_eq_ok_iff word num den v).mp hv
    rw [hs, List.mem_append, List.mem_cons] at hc
    rcases hc with hc | hc | hc
    · exact hread hn hc
    · exact .inr (.inr (.inr hc))
    · exact hread hd hc
  · exact hread h hc

theorem not_isAlpha_of_literal? {word : String} {v : Fraction}
    (h : (ofWord word).literal? = some v) {c : Char} (hc : c ∈ word.toList) :
    c.isAlpha = false := by
  rcases mem_of_literal? h hc with hd | rfl | rfl | rfl
  · rw [Bool.eq_false_iff]
    intro ha
    have hletter := Text.isLetter_of_isAlpha ha
    rw [Text.not_isLetter_of_isDigit hd] at hletter
    contradiction
  · rfl
  · rfl
  · rfl

/-- A literal of one character is a digit: a sign or a slash alone is an operator. -/
theorem isDigit_of_literal?_singleton {c : Char} {v : Fraction}
    (h : (ofWord (String.singleton c)).literal? = some v) : c.isDigit = true := by
  have hno (op : Operator) : (ofWord op.symbol).literal? ≠ some v := by
    rw [ofWord_symbol]
    exact nofun
  have hc : c ∈ (String.singleton c).toList := by simp
  rcases mem_of_literal? h hc with hd | rfl | rfl | rfl
  · exact hd
  · exact absurd h (hno .add)
  · exact absurd h (hno .subtract)
  · exact absurd h (hno .divide)

theorem literal?_singleton_of_isDigit {c : Char} (h : c.isDigit = true) :
    (ofWord (String.singleton c)).literal? = some (.ofInt (c.toNat - '0'.toNat : Nat)) := by
  have hdigits : Numeral.isDigits [c] = true := by simp [Numeral.isDigits, h]
  have hlen : [c].length ≤ Numeral.digitLimit := by simp [Numeral.digitLimit]
  have hread := Numeral.readChars_of_isDigits hdigits hlen
  rw [literal?_ofWord_iff, Numeral.read]
  refine .inr ⟨_, ?_, rfl⟩
  rw [String.toList_singleton, hread]
  simp [Nat.ofDigitChars]

/-- A token without a value is no operand, or a register that holds nothing. -/
theorem kind_of_value {registers : Registers} {t : Token} {f : Fault}
    (h : t.value registers = .error f) : f.kind = .invalidOperand ∨ f.kind = .unknownRegister := by
  cases t with
  | operator op => exact .inl (Except.error.inj h ▸ rfl)
  | invalid text => exact .inl (Except.error.inj h ▸ rfl)
  | fraction text v => contradiction
  | integer text n => contradiction
  | register c =>
    cases hc : registers.get? c with
    | none =>
      simp only [value, hc, Except.error.injEq] at h
      exact .inr (h ▸ rfl)
    | some v => simp [value, hc] at h

/-- A token without a value is at fault for being read as an operand. -/
theorem isReadingFault_of_value {registers : Registers} {t : Token} {f : Fault}
    (h : t.value registers = .error f) : f.isReadingFault = true := by
  rcases kind_of_value h with hk | hk <;> rw [Fault.isReadingFault, hk]

/-- A token with a value is a register or a literal. -/
theorem register_or_literal?_of_value {registers : Registers} {t : Token} {v : Fraction}
    (h : t.value registers = .ok v) :
    (∃ c, t = .register c ∧ registers.get? c = some v) ∨ t.literal? = some v := by
  cases t with
  | operator op => contradiction
  | invalid text => contradiction
  | fraction text w => exact .inr (congrArg some (Except.ok.inj h))
  | integer text n => exact .inr (congrArg some (Except.ok.inj h))
  | register c =>
    refine .inl ⟨c, rfl, ?_⟩
    cases hw : registers.get? c with
    | none => simp [value, hw] at h
    | some w =>
      simp only [value, hw, Except.ok.injEq] at h
      rw [h]

end Token

theorem evaluate_of_scan_cons {line : String} {t : Token} {rest : List Token}
    (h : Token.scan line = t :: rest) (registers : Registers) (strict : Bool) :
    evaluate registers strict line
      = ((Reading.read .expression registers t rest).complete strict).value := by
  rw [evaluate, h]

/-- A line whose first token is no operand is at fault for it. -/
theorem evaluate_of_scan_cons_of_error {line : String} {t : Token} {rest : List Token}
    {registers : Registers} {f : Fault} (h : Token.scan line = t :: rest)
    (hv : t.value registers = .error f) (strict : Bool) :
    evaluate registers strict line = .error f := by
  have hf : (Reading.operand registers t rest).value = .error f := hv
  rw [evaluate_of_scan_cons h, Reading.read]
  simp only [hv, Reading.complete_of_error hf, hf]

theorem evaluate_of_scan_singleton {line : String} {t : Token} (h : Token.scan line = [t])
    (registers : Registers) (strict : Bool) :
    evaluate registers strict line = t.value registers := by
  cases hv : t.value registers with
  | error f => exact evaluate_of_scan_cons_of_error h hv strict
  | ok v =>
    have hstart : (Partial.start v).value = v := Partial.value_start_with v v
    rw [evaluate_of_scan_cons h, Reading.read, hv]
    simp only [Reading.walk, Reading.complete, hstart]

/-- What strict mode accepts has the tokens of a tree. -/
theorem exists_tree_of_evaluate_strict {registers : Registers} {line : String} {v : Fraction}
    (h : evaluate registers true line = .ok v) :
    ∃ e : Expression, e.tokens = Token.scan line ∧ e.Defined registers ∧
      v.toRat = e.value registers := by
  obtain ⟨e, r, hts, -, hr, hd, hv⟩ := (evaluate_eq_ok_iff registers true line v).mp h
  rw [hr rfl, List.append_nil] at hts
  exact ⟨e, hts.symm, hd, hv⟩

end RationalCalculator
