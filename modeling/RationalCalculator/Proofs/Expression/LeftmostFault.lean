import RationalCalculator.Proofs.Expression.Meaning

/-!
# The leftmost fault of a line

Operands are due at the even positions of a line and operators at the odd ones. What can be wrong
at an even position is said by `FaultAt`, by looking at the tokens alone. A line is reached up to
a position if the odd positions before it hold operators, and its first fault is the one at the
least even position that is reached and holds one. The walk reports this fault and no other: it
either stops at a first fault or passes every operand up to an odd position that holds no
operator (`walk_outcome`), and only one of the two can be the case of a line.
-/

namespace RationalCalculator

/-- The kind of a fault and its wording. -/
def Fault.report (f : Fault) : Fault.Kind × String := (f.kind, f.message)

namespace Reading

variable {registers : Registers} {ts : List Token}

/-- What is wrong where an operand is due. -/
inductive FaultAt (registers : Registers) (ts : List Token) : Nat → Fault → Prop where
  | missing {k : Nat} {t : Token} (hk : k + 1 = ts.length) (ht : ts[k]? = some t) :
      FaultAt registers ts (k + 1) (.missingOperand t.text)
  | operator {k : Nat} {op : Operator} (ht : ts[k]? = some (.operator op)) :
      FaultAt registers ts k (.invalidOperand op.symbol)
  | invalid {k : Nat} {text : String} (ht : ts[k]? = some (.invalid text)) :
      FaultAt registers ts k (.invalidOperand text)
  | unknown {k : Nat} {c : Char} (ht : ts[k]? = some (.register c))
      (hc : registers.get? c = none) :
      FaultAt registers ts k (.unknownRegister (String.singleton c))
  | zeroDivisor {k : Nat} {a : Atom} (hop : ts[k]? = some (.operator .divide))
      (ha : ts[k + 1]? = some a.token) (hd : a.Defined registers) (hz : a.value registers = 0) :
      FaultAt registers ts (k + 1) .divisionByZero

/-- Every odd position below `k` holds an operator. -/
def Reached (ts : List Token) (k : Nat) : Prop :=
  ∀ i < k, i % 2 = 1 → ∃ op, ts[i]? = some (.operator op)

/-- No even position below `k` is at fault. -/
def FaultFree (registers : Registers) (ts : List Token) (k : Nat) : Prop :=
  ∀ i < k, i % 2 = 0 → ∀ f, ¬ FaultAt registers ts i f

structure FirstFault (registers : Registers) (ts : List Token) (k : Nat) (f : Fault) : Prop where
  even : k % 2 = 0
  reached : Reached ts k
  fault : FaultAt registers ts k f
  first : FaultFree registers ts k

/-- The walk stands at `j` behind an operand and has met no fault. -/
structure Passed (registers : Registers) (ts : List Token) (j : Nat) : Prop where
  odd : j % 2 = 1
  le : j ≤ ts.length
  reached : Reached ts j
  free : FaultFree registers ts j

/-- The walk ends at `j`, where it finds no operator. -/
structure EndsAt (registers : Registers) (ts : List Token) (j : Nat) : Prop
    extends Passed registers ts j where
  ends : ∀ op, ts[j]? ≠ some (.operator op)

theorem faultAt_of_value {k : Nat} {t : Token} {f : Fault} (ht : ts[k]? = some t)
    (hf : t.value registers = .error f) : FaultAt registers ts k f := by
  cases t with
  | operator op =>
    obtain rfl := Except.error.inj hf
    exact .operator ht
  | invalid text =>
    obtain rfl := Except.error.inj hf
    exact .invalid ht
  | integer text n => contradiction
  | fraction text v => contradiction
  | register c =>
    cases hc : registers.get? c with
    | none =>
      simp only [Token.value, hc, Except.error.injEq] at hf
      exact hf ▸ .unknown ht hc
    | some v => simp [Token.value, hc] at hf

/-- A token is at fault if it has no value or if it is a divisor of value zero. -/
theorem FaultAt.of_some {k : Nat} {t : Token} {f : Fault} (h : FaultAt registers ts k f)
    (ht : ts[k]? = some t) :
    t.value registers = .error f ∨
      ∃ i, k = i + 1 ∧ ts[i]? = some (.operator .divide) ∧ t.value registers = .ok .zero ∧
        f = .divisionByZero := by
  cases h with
  | missing hk _ =>
    rw [List.getElem?_eq_none hk.ge] at ht
    contradiction
  | operator ho =>
    obtain rfl := Option.some.inj (ho.symm.trans ht)
    exact .inl rfl
  | invalid hi =>
    obtain rfl := Option.some.inj (hi.symm.trans ht)
    exact .inl rfl
  | unknown hr hc =>
    obtain rfl := Option.some.inj (hr.symm.trans ht)
    rw [Token.value, hc]
    exact .inl rfl
  | @zeroDivisor i a hop ha hd hz =>
    obtain rfl := Option.some.inj (ha.symm.trans ht)
    obtain ⟨v, hv, hva⟩ := Atom.exists_value_token hd
    obtain rfl := (Fraction.toRat_eq_zero_iff v).mp (hva.trans hz)
    exact .inr ⟨i, rfl, hop, hv, rfl⟩

/-- Past the end of the line only an operand can be missing. -/
theorem FaultAt.of_none {k : Nat} {f : Fault} (h : FaultAt registers ts k f)
    (ht : ts[k]? = none) : ∃ i t, k = i + 1 ∧ ts[i]? = some t ∧ f = .missingOperand t.text := by
  cases h with
  | @missing i t hk hi => exact ⟨i, t, rfl, hi, rfl⟩
  | operator ho => simp [ht] at ho
  | invalid hi => simp [ht] at hi
  | unknown hr _ => simp [ht] at hr
  | zeroDivisor _ ha _ _ => simp [ht] at ha

theorem faultAt_unique {k : Nat} {f g : Fault} (hf : FaultAt registers ts k f)
    (hg : FaultAt registers ts k g) : f = g := by
  cases ht : ts[k]? with
  | none =>
    obtain ⟨i, t, hi, hti, rfl⟩ := hf.of_none ht
    obtain ⟨j, u, hj, huj, rfl⟩ := hg.of_none ht
    have hij : i = j := by omega
    rw [hij, huj, Option.some.injEq] at hti
    rw [hti]
  | some t =>
    rcases hf.of_some ht with hf | ⟨i, -, -, hv, rfl⟩
    · rcases hg.of_some ht with hg | ⟨j, -, -, hv, rfl⟩
      · exact Except.error.inj (hf.symm.trans hg)
      · rw [hf] at hv
        contradiction
    · rcases hg.of_some ht with hg | ⟨j, -, -, hv', rfl⟩
      · rw [hg] at hv
        contradiction
      · rfl

theorem getElem?_eq_of_take_eq {us : List Token} {k i : Nat} (h : us.take k = ts.take k)
    (hi : i < k) : us[i]? = ts[i]? := by
  rw [← List.getElem?_take_of_lt hi, h, List.getElem?_take_of_lt hi]

/-- A fault depends on the tokens up to its position. -/
theorem FaultAt.of_take_eq {us : List Token} {k : Nat} {f : Fault} (h : FaultAt registers ts k f)
    (ht : us.take (k + 1) = ts.take (k + 1)) : FaultAt registers us k f := by
  have hget : ∀ i < k + 1, us[i]? = ts[i]? := fun i => getElem?_eq_of_take_eq ht
  cases h with
  | @missing i t hk hi =>
    have hlen := congrArg List.length ht
    rw [List.length_take, List.length_take] at hlen
    exact .missing (by omega) ((hget i (by omega)).trans hi)
  | operator ho => exact .operator ((hget k (by omega)).trans ho)
  | invalid hi => exact .invalid ((hget k (by omega)).trans hi)
  | unknown hr hc => exact .unknown ((hget k (by omega)).trans hr) hc
  | @zeroDivisor i a hop ha hd hz =>
    exact .zeroDivisor ((hget i (by omega)).trans hop) ((hget _ (by omega)).trans ha) hd hz

theorem FirstFault.of_take_eq {us : List Token} {k : Nat} {f : Fault}
    (h : FirstFault registers ts k f) (ht : us.take (k + 1) = ts.take (k + 1)) :
    FirstFault registers us k f where
  even := h.even
  fault := h.fault.of_take_eq ht
  reached := by
    intro i hi hodd
    obtain ⟨op, hop⟩ := h.reached i hi hodd
    exact ⟨op, (getElem?_eq_of_take_eq ht (by omega)).trans hop⟩
  first := by
    intro i hi heven g hg
    have hti : ts.take (i + 1) = us.take (i + 1) := by
      have hle : i + 1 ≤ k + 1 := by omega
      rw [← Nat.min_eq_left hle, ← List.take_take, ← ht, List.take_take]
    exact h.first i hi heven g (hg.of_take_eq hti)

/-- A line has at most one first fault. -/
theorem FirstFault.unique {k j : Nat} {f g : Fault} (hf : FirstFault registers ts k f)
    (hg : FirstFault registers ts j g) : k = j ∧ f = g := by
  rcases Nat.lt_trichotomy k j with hlt | rfl | hgt
  · exact absurd hf.fault (hg.first k hlt hf.even f)
  · exact ⟨rfl, faultAt_unique hf.fault hg.fault⟩
  · exact absurd hg.fault (hf.first j hgt hg.even g)

/-- A walk that ends without a fault ends before any fault is reached. -/
theorem EndsAt.not_firstFault {k j : Nat} {f : Fault} (he : EndsAt registers ts j)
    (hf : FirstFault registers ts k f) : False := by
  have hk := hf.even
  have hj := he.odd
  rcases Nat.lt_trichotomy k j with hlt | rfl | hgt
  · exact he.free k hlt hk f hf.fault
  · omega
  · obtain ⟨op, hop⟩ := hf.reached j hgt hj
    exact he.ends op hop

theorem EndsAt.unique {j k : Nat} (hj : EndsAt registers ts j) (hk : EndsAt registers ts k) :
    j = k := by
  rcases Nat.lt_trichotomy j k with hlt | rfl | hgt
  · obtain ⟨op, hop⟩ := hk.reached j hlt hj.odd
    exact absurd hop (hj.ends op)
  · rfl
  · obtain ⟨op, hop⟩ := hj.reached k hgt hk.odd
    exact absurd hop (hk.ends op)

theorem Reached.succ {k : Nat} {op : Operator} (h : Reached ts k)
    (hop : ts[k]? = some (.operator op)) : Reached ts (k + 1) := by
  intro i hi hodd
  by_cases hlt : i < k
  · exact h i hlt hodd
  · have heq : i = k := by omega
    exact ⟨op, heq ▸ hop⟩

/-- The first operand is passed if it has a value. -/
theorem passed_one {t : Token} {rest : List Token} {v : Fraction}
    (hv : t.value registers = .ok v) : Passed registers (t :: rest) 1 where
  odd := rfl
  le := by simp
  reached := by
    intro i hi hodd
    omega
  free := by
    intro i hi _ f hf
    have h0 : i = 0 := by omega
    rcases hf.of_some (t := t) (by rw [h0]; rfl) with hf | ⟨j, hj, -⟩
    · rw [hv] at hf
      contradiction
    · omega

/-- At an operator the walk passes the operand after it or meets a fault. -/
theorem Passed.firstFault {j : Nat} {op : Operator} {f : Fault} (h : Passed registers ts j)
    (hop : ts[j]? = some (.operator op)) (hf : FaultAt registers ts (j + 1) f) :
    FirstFault registers ts (j + 1) f where
  even := by
    have hodd := h.odd
    omega
  reached := h.reached.succ hop
  fault := hf
  first := by
    intro i hi heven
    have hodd := h.odd
    exact h.free i (by omega) heven

theorem Passed.step {j : Nat} {op : Operator} {u : Token} {v : Fraction} {p q : Partial}
    (h : Passed registers ts j) (hop : ts[j]? = some (.operator op)) (hu : ts[j + 1]? = some u)
    (hv : u.value registers = .ok v) (hq : p.extend op v = .ok q) :
    Passed registers ts (j + 2) where
  odd := by
    have hodd := h.odd
    omega
  le := by
    have hlt := (List.getElem?_eq_some_iff.mp hu).1
    omega
  reached := by
    intro i hi hodd
    have hj := h.odd
    exact h.reached.succ hop i (by omega) hodd
  free := by
    intro i hi heven f hf
    have hj := h.odd
    by_cases hlt : i < j
    · exact h.free i hlt heven f hf
    have heq : i = j + 1 := by omega
    rw [heq] at hf
    rcases hf.of_some hu with hf | ⟨k, hk, hdiv, hz, -⟩
    · rw [hv] at hf
      contradiction
    · obtain rfl : k = j := by omega
      obtain rfl := Token.operator.inj (Option.some.inj (hop.symm.trans hdiv))
      obtain rfl := Except.ok.inj (hv.symm.trans hz)
      have herr := (Partial.extend_eq_error_iff (p := p) .divide .zero _).mpr ⟨rfl, rfl, rfl⟩
      rw [hq] at herr
      contradiction

/-- A walk that stands at `j` goes on to the first fault of the line, or to its end. -/
theorem walk_outcome {j : Nat} (h : Passed registers ts j) (p : Partial) :
    (∃ k f, FirstFault registers ts k f ∧
      (walk .expression registers p (ts.drop j)).value = .error f) ∨
    (∃ k v, EndsAt registers ts k ∧
      walk .expression registers p (ts.drop j) = ⟨.ok v, ts.drop k⟩) := by
  generalize hus : ts.drop j = us
  have hget : ∀ i, ts[j + i]? = us[i]? := by
    intro i
    rw [← hus, List.getElem?_drop]
  fun_induction walk Part.expression registers p us generalizing j with
  | case1 p =>
    refine .inr ⟨j, p.value, ⟨h, ?_⟩, by rw [hus]⟩
    intro op hop
    rw [← Nat.add_zero j, hget 0] at hop
    contradiction
  | case2 p t rest ht =>
    refine .inr ⟨j, p.value, ⟨h, ?_⟩, by rw [hus]⟩
    intro op hop
    rw [← Nat.add_zero j, hget 0] at hop
    obtain rfl := Option.some.inj hop
    contradiction
  | case3 p t op ht hc =>
    obtain rfl := Token.eq_operator ht
    have hop : ts[j]? = some (.operator op) := hget 0
    have hlen := congrArg List.length hus
    rw [List.length_drop, List.length_singleton] at hlen
    exact .inl ⟨j + 1, _, h.firstFault hop (.missing (by omega) hop), rfl⟩
  | case4 p t op ht hc u rest f hf =>
    obtain rfl := Token.eq_operator ht
    have hop : ts[j]? = some (.operator op) := hget 0
    exact .inl ⟨j + 1, f, h.firstFault hop (faultAt_of_value (hget 1) hf), hf⟩
  | case5 p t op ht hc u rest v hv f hf =>
    obtain rfl := Token.eq_operator ht
    have hop : ts[j]? = some (.operator op) := hget 0
    obtain ⟨rfl, rfl, rfl⟩ := (Partial.extend_eq_error_iff op v f).mp hf
    obtain ⟨a, rfl, ha, hva⟩ := Atom.of_value_token hv
    have hz : a.value registers = 0 := hva.symm.trans Fraction.toRat_zero
    exact .inl ⟨j + 1, _, h.firstFault hop (.zeroDivisor hop (hget 1) ha hz), rfl⟩
  | case6 p t op ht hc u rest v hv q hq ih =>
    obtain rfl := Token.eq_operator ht
    have hrest : ts.drop (j + 2) = rest := by
      rw [← List.drop_drop, hus]
      rfl
    refine ih (h.step (hget 0) (hget 1) hv hq) hrest ?_
    intro i
    rw [← hrest, List.getElem?_drop]
  | case7 p t rest op ht hc => simp [Part.continues] at hc

theorem read_outcome (registers : Registers) (t : Token) (rest : List Token) :
    (∃ k f, FirstFault registers (t :: rest) k f ∧
      (read .expression registers t rest).value = .error f) ∨
    (∃ k v, EndsAt registers (t :: rest) k ∧
      read .expression registers t rest = ⟨.ok v, (t :: rest).drop k⟩) := by
  rw [read]
  split
  next f hf =>
    refine .inl ⟨0, f, ⟨rfl, ?_, faultAt_of_value rfl hf, ?_⟩, hf⟩
    · intro i hi
      omega
    · intro i hi
      omega
  next v hv => exact walk_outcome (passed_one hv) (.start v)

theorem complete_of_error {r : Reading} {f : Fault} (h : r.value = .error f) (strict : Bool) :
    r.complete strict = r := by
  rw [complete, h]

theorem FirstFault.ne_nil {k : Nat} {f : Fault} (h : FirstFault registers ts k f) : ts ≠ [] := by
  rintro rfl
  obtain ⟨i, t, -, hi, -⟩ := h.fault.of_none rfl
  contradiction

theorem EndsAt.ne_nil {j : Nat} (h : EndsAt registers ts j) : ts ≠ [] := by
  rintro rfl
  have hodd := h.odd
  have hle := h.le
  rw [List.length_nil] at hle
  omega

/-- What evaluating a line can come to, in both modes. -/
inductive Verdict (registers : Registers) (line : String) : Prop where
  | empty (hn : Token.scan line = [])
      (he : ∀ strict, evaluate registers strict line = .error .emptyExpression)
  | fault {k : Nat} {f : Fault} (hf : FirstFault registers (Token.scan line) k f)
      (he : ∀ strict, evaluate registers strict line = .error f)
  | complete {v : Fraction} (hj : EndsAt registers (Token.scan line) (Token.scan line).length)
      (he : ∀ strict, evaluate registers strict line = .ok v)
  | leftOver {j : Nat} {t : Token} {v : Fraction} (hj : EndsAt registers (Token.scan line) j)
      (ht : (Token.scan line)[j]? = some t) (hl : evaluate registers false line = .ok v)
      (hs : evaluate registers true line = .error (.unexpectedToken t.text))

theorem verdict (registers : Registers) (line : String) : Verdict registers line := by
  cases hts : Token.scan line with
  | nil =>
    refine .empty hts fun strict => ?_
    rw [evaluate, hts]
  | cons t rest =>
    have heval : ∀ strict, evaluate registers strict line
        = ((read .expression registers t rest).complete strict).value := by
      intro strict
      rw [evaluate, hts]
    rcases read_outcome registers t rest with ⟨k, f, hf, hv⟩ | ⟨k, v, hk, hv⟩
    · refine .fault (hts ▸ hf) fun strict => ?_
      rw [heval, complete_of_error hv, hv]
    rw [← hts] at hk hv
    cases hdrop : (Token.scan line).drop k with
    | nil =>
      have hlen : k = (Token.scan line).length :=
        Nat.le_antisymm hk.le (List.drop_eq_nil_iff.mp hdrop)
      refine .complete (v := v) (hlen ▸ hk) fun strict => ?_
      rw [heval, hv, hdrop]
      rfl
    | cons u us =>
      have hu : (Token.scan line)[k]? = some u := by
        rw [← Nat.add_zero k, ← List.getElem?_drop, hdrop]
        rfl
      refine .leftOver (v := v) hk hu ?_ ?_
      · rw [heval, hv, hdrop]
        rfl
      · rw [heval, hv, hdrop]
        rfl

theorem evaluate_of_firstFault {line : String} {k : Nat} {f : Fault}
    (h : FirstFault registers (Token.scan line) k f) (strict : Bool) :
    evaluate registers strict line = .error f := by
  cases verdict registers line with
  | empty hn _ => exact absurd hn h.ne_nil
  | fault hf he =>
    obtain ⟨-, rfl⟩ := hf.unique h
    exact he strict
  | complete hj _ => exact (hj.not_firstFault h).elim
  | leftOver hj _ _ _ => exact (hj.not_firstFault h).elim

theorem evaluate_strict_of_endsAt {line : String} {j : Nat} {t : Token}
    (h : EndsAt registers (Token.scan line) j) (ht : (Token.scan line)[j]? = some t) :
    evaluate registers true line = .error (.unexpectedToken t.text) := by
  cases verdict registers line with
  | empty hn _ => exact absurd hn h.ne_nil
  | fault hf _ => exact (h.not_firstFault hf).elim
  | complete hj _ =>
    have hlt := (List.getElem?_eq_some_iff.mp ht).1
    have heq := hj.unique h
    omega
  | leftOver hj hu _ hs =>
    rw [hj.unique h, ht] at hu
    rw [hs, Option.some.inj hu]

end Reading

open Reading

/-- Evaluation fails exactly with the first fault of the line. A line without tokens and, in
strict mode, a token that is left over are the only other failures. The tokens behind the first
fault do not matter. -/
theorem evaluate_eq_error_iff (registers : Registers) (strict : Bool) (line : String) (f : Fault) :
    (evaluate registers strict line = .error f ↔
      (Token.scan line = [] ∧ f = .emptyExpression) ∨
      (∃ k, FirstFault registers (Token.scan line) k f) ∨
      (strict = true ∧ ∃ j t, EndsAt registers (Token.scan line) j ∧
        (Token.scan line)[j]? = some t ∧ f = .unexpectedToken t.text)) ∧
    (∀ k, FirstFault registers (Token.scan line) k f → ∀ (strict' : Bool) (line' : String),
      (Token.scan line').take (k + 1) = (Token.scan line).take (k + 1) →
        evaluate registers strict' line' = .error f) ∧
    Fault.emptyExpression.report = (.emptyExpression, "Empty expression") ∧
    (∀ s, (Fault.missingOperand s).report = (.invalidOperand, "Missing operand after: " ++ s)) ∧
    (∀ s, (Fault.invalidOperand s).report = (.invalidOperand, "Invalid operand: " ++ s)) ∧
    (∀ s, (Fault.unknownRegister s).report = (.unknownRegister, "Variable not found: " ++ s)) ∧
    Fault.divisionByZero.report = (.divisionByZero, "Division by zero is not allowed.") ∧
    (∀ s, (Fault.unexpectedToken s).report = (.invalidOperand, "Unexpected token: " ++ s)) := by
  refine ⟨⟨?_, ?_⟩, ?_, rfl, fun _ => rfl, fun _ => rfl, fun _ => rfl, rfl, fun _ => rfl⟩
  · intro h
    cases verdict registers line with
    | empty hn he =>
      rw [he] at h
      exact .inl ⟨hn, (Except.error.inj h).symm⟩
    | @fault k g hg he =>
      rw [he] at h
      obtain rfl := Except.error.inj h
      exact .inr (.inl ⟨k, hg⟩)
    | complete _ he =>
      rw [he] at h
      contradiction
    | @leftOver j t v hj ht hl hs =>
      cases strict with
      | false =>
        rw [hl] at h
        contradiction
      | true =>
        rw [hs] at h
        exact .inr (.inr ⟨rfl, j, t, hj, ht, (Except.error.inj h).symm⟩)
  · rintro (⟨hn, rfl⟩ | ⟨k, hk⟩ | ⟨rfl, j, t, hj, ht, rfl⟩)
    · rw [evaluate, hn]
    · exact evaluate_of_firstFault hk strict
    · exact evaluate_strict_of_endsAt hj ht
  · intro k hk strict' line' ht
    exact evaluate_of_firstFault (hk.of_take_eq ht) strict'

/-- A division by zero hides an unknown register and a misplaced operator behind it. -/
theorem evaluate_hides_after_first_fault :
    FirstFault .empty (Token.scan "1 / 0 + ?") 2 .divisionByZero ∧
    (Token.scan "1 / 0 x *").take 3 = (Token.scan "1 / 0 + ?").take 3 ∧
    evaluate .empty true "1 / 0 x *" = .error .divisionByZero := by
  have hs : Token.scan "1 / 0 + ?" = [.integer "1" 1, .operator .divide, .integer "0" 0,
      .operator .add, .invalid "?"] := by decide +kernel
  have htake : (Token.scan "1 / 0 x *").take 3 = (Token.scan "1 / 0 + ?").take 3 := by
    decide +kernel
  have hf : FirstFault .empty (Token.scan "1 / 0 + ?") 2 .divisionByZero := by
    rw [hs]
    refine ⟨rfl, ?_, .zeroDivisor (a := .integer "0" 0) rfl rfl trivial Int.cast_zero, ?_⟩
    · intro i hi hodd
      obtain rfl : i = 1 := by omega
      exact ⟨.divide, rfl⟩
    · intro i hi heven f h
      obtain rfl : i = 0 := by omega
      rcases h.of_some rfl with h | ⟨j, hj, -⟩
      · cases h
      · omega
  exact ⟨hf, htake, (evaluate_eq_error_iff .empty false "1 / 0 + ?" .divisionByZero).2.1 2 hf
    true "1 / 0 x *" htake⟩

end RationalCalculator
