import RationalCalculator.Display
import RationalCalculator.Proofs.Session.Recall
import RationalCalculator.Session.Outcome

/-!
# Values are no longer than their lines

Literals are the only source of digits in a line without registers. A number has width `k` if it
is a quotient of two integers of at most `k` digits. An operation on numbers of widths `j` and `k`
stays within `j + k` digits, or within one digit more if it adds, and this digit is paid for by the
character of the operator. By induction over the syntax tree, the width of its value is at most the
number of characters of its tokens, hence of the line, blanks not counted. Reduction to lowest terms
only takes digits away.
-/

namespace RationalCalculator

/-- The number is a quotient of integers that have at most `k` digits. -/
def HasWidth (k : ℕ) (q : ℚ) : Prop :=
  ∃ n d : ℤ, d ≠ 0 ∧ q = n / d ∧ n.natAbs < 10 ^ k ∧ d.natAbs < 10 ^ k

namespace HasWidth

variable {j k : ℕ} {p q : ℚ}

theorem mono (h : HasWidth j q) (hjk : j ≤ k) : HasWidth k q := by
  obtain ⟨n, d, hd, hq, hnj, hdj⟩ := h
  have hpow : 10 ^ j ≤ 10 ^ k := Nat.pow_le_pow_right (by decide) hjk
  exact ⟨n, d, hd, hq, hnj.trans_le hpow, hdj.trans_le hpow⟩

theorem neg (h : HasWidth k q) : HasWidth k (-q) := by
  obtain ⟨n, d, hd, rfl, hn, hdk⟩ := h
  refine ⟨-n, d, hd, ?_, ?_, hdk⟩
  · rw [Int.cast_neg, neg_div]
  · rwa [Int.natAbs_neg]

theorem natAbs_mul_lt {a b : ℤ} (ha : a.natAbs < 10 ^ j) (hb : b.natAbs < 10 ^ k) :
    (a * b).natAbs < 10 ^ (j + k) := by
  rw [Int.natAbs_mul, pow_add]
  exact Nat.mul_lt_mul'' ha hb

/-- The two cross products of a sum may carry into one more digit. -/
theorem add (hp : HasWidth j p) (hq : HasWidth k q) : HasWidth (j + 1 + k) (p + q) := by
  obtain ⟨a, b, hb, rfl, haj, hbj⟩ := hp
  obtain ⟨c, d, hd, rfl, hck, hdk⟩ := hq
  have hb' : (b : ℚ) ≠ 0 := Int.cast_ne_zero.mpr hb
  have hd' : (d : ℚ) ≠ 0 := Int.cast_ne_zero.mpr hd
  have hpow : 10 ^ (j + 1 + k) = 10 * 10 ^ (j + k) := by ring
  have had := natAbs_mul_lt haj hdk
  have hbc := natAbs_mul_lt hbj hck
  have hbd := natAbs_mul_lt hbj hdk
  refine ⟨a * d + b * c, b * d, mul_ne_zero hb hd, ?_, ?_, ?_⟩
  · rw [div_add_div _ _ hb' hd']
    push_cast
    rfl
  · -- two numbers below the power add up to less than twice the power
    have hsum := Int.natAbs_add_le (a * d) (b * c)
    omega
  · omega

theorem sub (hp : HasWidth j p) (hq : HasWidth k q) : HasWidth (j + 1 + k) (p - q) := by
  rw [sub_eq_add_neg]
  exact hp.add hq.neg

theorem mul (hp : HasWidth j p) (hq : HasWidth k q) : HasWidth (j + k) (p * q) := by
  obtain ⟨a, b, hb, rfl, haj, hbj⟩ := hp
  obtain ⟨c, d, hd, rfl, hck, hdk⟩ := hq
  refine ⟨a * c, b * d, mul_ne_zero hb hd, ?_, natAbs_mul_lt haj hck, natAbs_mul_lt hbj hdk⟩
  rw [div_mul_div_comm]
  push_cast
  rfl

/-- A quotient is the product with the divisor upside down. -/
theorem div (hp : HasWidth j p) (hq : HasWidth k q) (h : q ≠ 0) : HasWidth (j + k) (p / q) := by
  have hinv : HasWidth k q⁻¹ := by
    obtain ⟨c, d, hd, rfl, hck, hdk⟩ := hq
    refine ⟨d, c, ?_, inv_div _ _, hdk, hck⟩
    rintro rfl
    simp at h
  rw [div_eq_mul_inv]
  exact hp.mul hinv

/-- Lowest terms have the fewest digits of all quotients of the same value. -/
theorem lt_pow {f : Fraction} (h : HasWidth k f.toRat) :
    f.num.natAbs < 10 ^ k ∧ f.den < 10 ^ k := by
  obtain ⟨n, d, hd, hf, hn, hdk⟩ := h
  obtain rfl : f = .ofRatio n d hd := by
    rw [← Fraction.toRat_inj, Fraction.toRat_ofRatio, hf]
  have hnum := Fraction.natAbs_num_reduce_le (d.sign * n) d.natAbs (Int.natAbs_pos.mpr hd)
  have hden := Fraction.den_reduce_le (d.sign * n) d.natAbs (Int.natAbs_pos.mpr hd)
  rw [Int.natAbs_mul, Int.natAbs_sign_of_ne_zero hd, one_mul] at hnum
  exact ⟨hnum.trans_lt hn, hden.trans_lt hdk⟩

end HasWidth

namespace Text

/-- The number of characters that are no blanks. -/
def countInk (line : String) : ℕ := line.toList.countP (!isBlank ·)

/-- The words hold all characters but the blanks, in their order. -/
theorem flatten_words (cs : List Char) : (words cs).flatten = cs.filter (!isBlank ·) := by
  fun_induction words cs with
  | case1 => rfl
  | case2 c cs hc ih => rw [ih, List.filter_cons_of_neg (by simp [hc])]
  | case3 c cs hc hend ih =>
    rw [List.flatten_cons, ih, List.filter_cons_of_pos (by simpa using hc), List.singleton_append]
  | case4 c cs hc hend hw ih =>
    rw [hw] at ih
    rw [List.filter_cons_of_pos (by simpa using hc), ← ih]
    rfl
  | case5 c cs hc hend w ws hw ih =>
    rw [hw] at ih
    rw [List.filter_cons_of_pos (by simpa using hc), ← ih]
    rfl

theorem sum_length_split (line : String) : ((split line).map String.length).sum = countInk line := by
  have h := congrArg List.length (flatten_words line.toList)
  rw [List.length_flatten, ← List.countP_eq_length_filter] at h
  rw [countInk, ← h, split, List.map_map]
  simp only [Function.comp_def, String.length_ofList]

end Text

namespace Token

/-- The number of characters of tokens. -/
def width (ts : List Token) : ℕ := (ts.map fun t => t.text.length).sum

theorem width_nil : width [] = 0 := rfl

theorem width_cons (t : Token) (ts : List Token) : width (t :: ts) = t.text.length + width ts := by
  rw [width, List.map_cons, List.sum_cons, width]

theorem width_append (ts us : List Token) : width (ts ++ us) = width ts + width us := by
  rw [width, List.map_append, List.sum_append, width, width]

theorem width_scan (line : String) : width (scan line) = Text.countInk line := by
  rw [← Text.sum_length_split, width, scan, List.map_map]
  simp only [Function.comp_def, text_ofWord]

/-- A token that is what its text stands for, and no register. -/
structure IsPlain (t : Token) : Prop where
  written : ofWord t.text = t
  noRegister : ∀ c, t ≠ .register c

theorem isPlain_of_mem_scan {line : String} {t : Token} (ht : t ∈ scan line)
    (hno : ∀ c, .register c ∉ scan line) : t.IsPlain where
  written := by
    obtain ⟨w, -, rfl⟩ := List.mem_map.mp ht
    rw [text_ofWord]
  noRegister := by
    rintro c rfl
    exact hno c ht

end Token

theorem Numeral.natAbs_lt_of_readChars {cs : List Char} {n : ℤ} (h : readChars cs = .ok n) :
    n.natAbs < 10 ^ cs.length := by
  obtain ⟨hd, -, rfl⟩ := (readChars_eq_ok_iff cs n).mp h
  have hlt := ofDigitChars_lt fun c hc => isDigit_of_isDigits hd hc
  have hlen : (splitSign cs).2.length ≤ cs.length := by
    rcases splitSign_cases cs with hs | ⟨ds, rfl, hs⟩ | ⟨ds, rfl, hs⟩ <;> rw [hs] <;> simp
  rw [natAbs_ofDigits]
  exact hlt.trans_le (Nat.pow_le_pow_right (by decide) hlen)

/-- The value of a literal is no wider than its word. -/
theorem Token.hasWidth_of_literal? {word : String} {v : Fraction}
    (h : (ofWord word).literal? = some v) : HasWidth word.length v.toRat := by
  rw [← String.length_toList]
  rcases (literal?_ofWord_iff word v).mp h with h | ⟨n, hn, rfl⟩
  · obtain ⟨num, den, hs, -, hv⟩ := (Fraction.parse_eq_ok_iff word v).mp h
    obtain ⟨n, d, hn, hd, hpos, rfl⟩ := (Fraction.ofNumerals_eq_ok_iff word num den v).mp hv
    have hlen : word.toList.length = num.length + (den.length + 1) := by
      rw [hs, List.length_append, List.length_cons]
    have hnum := Numeral.natAbs_lt_of_readChars hn
    have hden := Numeral.natAbs_lt_of_readChars hd
    refine ⟨n, d.toNat, by omega, Fraction.toRat_reduce n _ hpos, ?_, ?_⟩
    · exact hnum.trans_le (Nat.pow_le_pow_right (by decide) (by omega))
    · have hd' : ((d.toNat : ℕ) : ℤ).natAbs = d.natAbs := by omega
      rw [hd']
      exact hden.trans_le (Nat.pow_le_pow_right (by decide) (by omega))
  · have hnum : n.natAbs < 10 ^ word.toList.length := Numeral.natAbs_lt_of_readChars hn
    have hpos := List.length_pos_of_ne_nil (Numeral.ne_nil_of_readChars hn)
    refine ⟨n, 1, one_ne_zero, ?_, hnum, Nat.one_lt_pow hpos.ne' (by decide)⟩
    rw [Fraction.toRat_ofInt, Int.cast_one, div_one]

theorem Operator.length_symbol (op : Operator) : op.symbol.length = 1 := by
  cases op <;> rfl

variable {registers : Registers}

theorem Atom.hasWidth {a : Atom} (h : a.token.IsPlain) :
    HasWidth a.token.text.length (a.value registers) := by
  have hword : Token.ofWord a.token.text = a.token := h.written
  cases a with
  | integer text n =>
    have hlit : (Token.ofWord text).literal? = some (.ofInt n) := congrArg Token.literal? hword
    have hwidth := Token.hasWidth_of_literal? hlit
    rwa [Fraction.toRat_ofInt] at hwidth
  | fraction text v => exact Token.hasWidth_of_literal? (congrArg Token.literal? hword)
  | register c => exact absurd rfl (h.noRegister c)

/-- Factors and divisors leave the character of the operator unused. -/
theorem Term.hasWidth {t : Term} (hp : ∀ u ∈ t.tokens, u.IsPlain) (hd : t.Defined registers) :
    HasWidth (Token.width t.tokens) (t.value registers) := by
  induction t with
  | atom a =>
    rw [tokens, Token.width_cons, Token.width_nil]
    exact Atom.hasWidth (hp _ List.mem_cons_self)
  | times t a ih =>
    have ht := ih (fun u hu => hp u (by simp [tokens, hu])) hd.1
    have ha : HasWidth _ (a.value registers) := Atom.hasWidth (hp _ (by simp [tokens]))
    refine (ht.mul ha).mono ?_
    simp only [tokens, Token.width_append, Token.width_cons, Token.width_nil]
    omega
  | dividedBy t a ih =>
    have ht := ih (fun u hu => hp u (by simp [tokens, hu])) hd.1
    have ha : HasWidth _ (a.value registers) := Atom.hasWidth (hp _ (by simp [tokens]))
    refine (ht.div ha hd.2.2).mono ?_
    simp only [tokens, Token.width_append, Token.width_cons, Token.width_nil]
    omega

/-- A sum or difference needs the character of its operator. -/
theorem Expression.hasWidth {e : Expression} (hp : ∀ u ∈ e.tokens, u.IsPlain)
    (hd : e.Defined registers) : HasWidth (Token.width e.tokens) (e.value registers) := by
  induction e with
  | term t => exact Term.hasWidth hp hd
  | plus e t ih =>
    have he := ih (fun u hu => hp u (by simp [tokens, hu])) hd.1
    have ht := Term.hasWidth (fun u hu => hp u (by simp [tokens, hu])) hd.2
    refine (he.add ht).mono ?_
    simp only [tokens, Token.width_append, Token.width_cons, Token.text, Operator.length_symbol]
    omega
  | minus e t ih =>
    have he := ih (fun u hu => hp u (by simp [tokens, hu])) hd.1
    have ht := Term.hasWidth (fun u hu => hp u (by simp [tokens, hu])) hd.2
    refine (he.sub ht).mono ?_
    simp only [tokens, Token.width_append, Token.width_cons, Token.text, Operator.length_symbol]
    omega

variable {line : String} {strict : Bool} {v : Fraction}

/-- What is read of a line, if not all of it, is no wider than the line. -/
theorem hasWidth_of_evaluate (h : evaluate registers strict line = .ok v)
    (hno : ∀ c, .register c ∉ Token.scan line) : HasWidth (Text.countInk line) v.toRat := by
  obtain ⟨e, r, hts, -, -, hd, hv⟩ := (evaluate_eq_ok_iff registers strict line v).mp h
  have hp : ∀ t ∈ e.tokens, t.IsPlain := fun t ht =>
    Token.isPlain_of_mem_scan (by rw [hts]; exact List.mem_append_left _ ht) hno
  rw [hv, ← Token.width_scan, hts, Token.width_append]
  exact (Expression.hasWidth hp hd).mono (Nat.le_add_right _ _)

/-- A line with a value and without registers is not a word of letters. -/
theorem recalled?_eq_none_of_evaluate (h : evaluate registers strict line = .ok v)
    (hno : ∀ c, .register c ∉ Token.scan line) : Session.recalled? line = none := by
  rw [Option.eq_none_iff_forall_ne_some]
  intro c hc
  obtain ⟨cs, hsplit, hall⟩ := (Session.recalled?_eq_some_iff line c).mp hc
  have hscan : Token.scan line = [Token.ofWord (String.ofList (c :: cs))] := by
    rw [Token.scan, hsplit, List.map_singleton]
  rw [evaluate_of_scan_singleton hscan] at h
  rcases Token.register_or_literal?_of_value h with ⟨d, hd, -⟩ | hlit
  · exact hno d (by rw [hscan, hd]; exact List.mem_cons_self)
  · have hletter := hall c List.mem_cons_self
    rw [Token.not_isAlpha_of_literal? hlit (by simp)] at hletter
    contradiction

namespace Fraction

/-- The fraction can be written, as the message of an outcome and as a result on display. -/
structure Shown (f : Fraction) : Prop where
  text : ∃ s, f.text = .ok s
  message : ∃ s, (Outcome.success f).message = .ok s
  display : ∀ approximate, ∃ s, display approximate f = .ok s

theorem WithinLimit.shown {f : Fraction} (h : f.WithinLimit) : f.Shown := by
  obtain ⟨s, hs⟩ := (exists_text_iff f).mpr h
  refine ⟨⟨s, hs⟩, ⟨s, hs⟩, fun approximate => ⟨s ++ approximationNote approximate f, ?_⟩⟩
  rw [RationalCalculator.display, hs]
  rfl

theorem withinLimit_of_lt_pow {f : Fraction} {k : ℕ} (hnum : f.num.natAbs < 10 ^ k)
    (hden : f.den < 10 ^ k) (hk : k ≤ Numeral.digitLimit) : f.WithinLimit := by
  have hd : (f.den : ℤ).natAbs < 10 ^ k := hden
  rw [withinLimit_iff]
  exact ⟨((Numeral.write_eq_ok_iff _ _).mp (Numeral.write_of_lt_pow hnum hk)).1,
    ((Numeral.write_eq_ok_iff _ _).mp (Numeral.write_of_lt_pow hd hk)).1⟩

end Fraction

/-- A line without registers cannot outgrow itself: numerator and denominator of its value have at
most as many digits as the line has characters that are no blanks. A session reports the value, and
if the line is within the digit limit, then nothing that shows the value fails. -/
theorem evaluate_lt_pow_countInk (registers : Registers) (strict : Bool) (line : String)
    (v : Fraction) (h : evaluate registers strict line = .ok v)
    (hno : ∀ c, .register c ∉ Token.scan line) :
    v.num.natAbs < 10 ^ Text.countInk line ∧ v.den < 10 ^ Text.countInk line ∧
    (∀ s : Session, s.registers = registers → s.strict = strict →
      (s.tryEvaluate line).outcome = .success v) ∧
    (Text.countInk line ≤ Numeral.digitLimit → v.Shown) := by
  obtain ⟨hnum, hden⟩ := (hasWidth_of_evaluate h hno).lt_pow
  refine ⟨hnum, hden, ?_, fun hk => (Fraction.withinLimit_of_lt_pow hnum hden hk).shown⟩
  intro s hregisters hstrict
  subst hregisters hstrict
  have hvalue : s.value line = .ok v := by
    rw [Session.value_of_not_recalled (recalled?_eq_none_of_evaluate h hno), h]
  rw [Session.tryEvaluate, Session.evaluate]
  simp only [hvalue]

/-- A sum that carries, and a token left over. -/
theorem evaluate_lt_pow_countInk_at_carry :
    evaluate .empty false "9/7 + 9/8 5" = .ok (.reduce 135 56 (by decide)) ∧
    (∀ c, .register c ∉ Token.scan "9/7 + 9/8 5") ∧ Text.countInk "9/7 + 9/8 5" = 8 ∧
    135 < 10 ^ 8 ∧ 56 < 10 ^ 8 ∧ (Fraction.reduce 135 56 (by decide)).Shown := by
  have h : evaluate .empty false "9/7 + 9/8 5" = .ok (.reduce 135 56 (by decide)) := by
    decide +kernel
  have hno : ∀ c, .register c ∉ Token.scan "9/7 + 9/8 5" := by
    have hscan : Token.scan "9/7 + 9/8 5" = [.fraction "9/7" (.reduce 9 7 (by decide)),
        .operator .add, .fraction "9/8" (.reduce 9 8 (by decide)), .integer "5" 5] := by
      decide +kernel
    rw [hscan]
    simp
  have hink : Text.countInk "9/7 + 9/8 5" = 8 := by decide +kernel
  obtain ⟨hnum, hden, -, hshown⟩ := evaluate_lt_pow_countInk .empty false _ _ h hno
  rw [hink] at hnum hden hshown
  exact ⟨h, hno, hink, hnum, hden, hshown (by decide)⟩

end RationalCalculator
