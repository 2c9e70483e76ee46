import RationalCalculator.Expression.Cursor
import RationalCalculator.Proofs.Expression.LeftmostFault
import RationalCalculator.Session.Outcome

/-!
# What a session answers

Evaluating a line ends in one of three ways, whatever the session has been through: in a value,
which becomes the last result, in the report that the line is invalid, or in a division by zero.
The two faults leave the session as it was. A division by zero is reported exactly if the line is
read as an expression and its first fault is a divisor of value zero; a line of letters is not
read at all. What is tried answers alike and leaves the same session.
-/

namespace RationalCalculator

namespace Reading

variable {registers : Registers} {ts : List Token}

/-- At `k` stands a division by zero, and the walk over the tokens comes that far. -/
structure ZeroDivisorAt (registers : Registers) (ts : List Token) (k : Nat) : Prop where
  odd : k % 2 = 1
  reached : Reached ts k
  free : FaultFree registers ts k
  division : ts[k]? = some (.operator .divide)
  divisor : ∃ a : Atom, ts[k + 1]? = some a.token ∧ a.Defined registers ∧ a.value registers = 0

theorem ZeroDivisorAt.firstFault {k : Nat} (h : ZeroDivisorAt registers ts k) :
    FirstFault registers ts (k + 1) .divisionByZero where
  even := by
    have hodd := h.odd
    omega
  reached := h.reached.succ h.division
  fault := by
    obtain ⟨a, ha, hd, hz⟩ := h.divisor
    exact .zeroDivisor h.division ha hd hz
  first := by
    intro i hi heven
    have hodd := h.odd
    exact h.free i (by omega) heven

theorem FirstFault.zeroDivisorAt {k : Nat} (h : FirstFault registers ts k .divisionByZero) :
    ∃ j, ZeroDivisorAt registers ts j := by
  obtain ⟨heven, hreached, hfault, hfree⟩ := h
  cases hfault with
  | @zeroDivisor j a hop ha hd hz =>
    refine ⟨j, by omega, fun i hi => hreached i (by omega), fun i hi => hfree i (by omega), hop,
      a, ha, hd, hz⟩

theorem FaultAt.isReadingFault_or {k : Nat} {f : Fault} (h : FaultAt registers ts k f) :
    f.isReadingFault = true ∨ f = .divisionByZero := by
  cases h with
  | missing => exact .inl rfl
  | operator => exact .inl rfl
  | invalid => exact .inl rfl
  | unknown => exact .inl rfl
  | zeroDivisor => exact .inr rfl

/-- A fault of a line is one of reading or the first fault that a walk over its tokens meets. -/
theorem isReadingFault_or_firstFault {strict : Bool} {line : String} {f : Fault}
    (h : evaluate registers strict line = .error f) :
    f.isReadingFault = true ∨ ∃ k, FirstFault registers (Token.scan line) k f := by
  cases verdict registers line with
  | empty _ he =>
    rw [he] at h
    exact .inl (Except.error.inj h ▸ rfl)
  | @fault k f' hf he =>
    rw [he] at h
    exact .inr ⟨k, Except.error.inj h ▸ hf⟩
  | complete _ he =>
    rw [he] at h
    contradiction
  | leftOver _ _ hl hs =>
    cases strict with
    | false =>
      rw [hl] at h
      contradiction
    | true =>
      rw [hs] at h
      exact .inl (Except.error.inj h ▸ rfl)

/-- Reading a line meets no other faults than those of reading and a division by zero. -/
theorem isReadingFault_or_of_evaluate {strict : Bool} {line : String} {f : Fault}
    (h : evaluate registers strict line = .error f) :
    f.isReadingFault = true ∨ f = .divisionByZero := by
  rcases isReadingFault_or_firstFault h with hf | ⟨k, hk⟩
  · exact .inl hf
  · exact hk.fault.isReadingFault_or

theorem evaluate_eq_divisionByZero_iff (registers : Registers) (strict : Bool) (line : String) :
    evaluate registers strict line = .error .divisionByZero ↔
      ∃ k, ZeroDivisorAt registers (Token.scan line) k := by
  constructor
  · intro h
    rcases isReadingFault_or_firstFault h with hf | ⟨k, hk⟩
    · contradiction
    · exact hk.zeroDivisorAt
  · rintro ⟨k, hk⟩
    exact evaluate_of_firstFault hk.firstFault strict

/-- A cursor at the start of a line that is asked for all of it fails with faults only. -/
theorem answer_whole_ofLine (registers : Registers) (strict : Bool) (line : String) :
    ((Cursor.ofLine line).answer registers strict .whole).1
      = (evaluate registers strict line).mapError .fault := by
  have hrest : (Cursor.ofLine line).rest = Token.scan line := rfl
  have htokens : (Cursor.ofLine line).tokens = Token.scan line := rfl
  rw [Cursor.answer, evaluate, hrest]
  cases hts : Token.scan line with
  | nil => simp [Cursor.atEnd, htokens, hts, Except.mapError]
  | cons t rest => rfl

end Reading

namespace Session

open Reading

/-- Apart from blanks at its ends, the line has ASCII letters only. -/
def IsRecall (line : String) : Prop :=
  Text.strip line.toList ≠ [] ∧ ∀ c ∈ Text.strip line.toList, c.isAlpha = true

theorem recalled?_eq_none_iff (line : String) : recalled? line = none ↔ ¬ IsRecall line := by
  unfold recalled? IsRecall
  split
  next h => simp [h]
  next c cs h => rw [h]; simp

variable {s : Session} {line selector : String}

theorem fetch_eq_error {registers : Registers} {name : Char} {f : Fault}
    (h : fetch registers name = .error f) : f = .unknownRegister (String.singleton name) := by
  unfold fetch at h
  split at h
  · contradiction
  · exact (Except.error.inj h).symm

theorem isReadingFault_or_of_value {f : Fault} (h : s.value line = .error f) :
    f.isReadingFault = true ∨ f = .divisionByZero := by
  unfold value at h
  split at h
  · exact .inl (fetch_eq_error h ▸ rfl)
  · exact isReadingFault_or_of_evaluate h

theorem value_eq_divisionByZero_iff :
    s.value line = .error .divisionByZero ↔
      ¬ IsRecall line ∧ ∃ k, ZeroDivisorAt s.registers (Token.scan line) k := by
  rw [← recalled?_eq_none_iff, ← evaluate_eq_divisionByZero_iff _ s.strict, value]
  split
  next c hc =>
    refine ⟨fun h => ?_, fun h => ?_⟩
    · have hf := fetch_eq_error h
      contradiction
    · rw [hc] at h
      exact absurd h.1 (by simp)
  next hc => simp [hc]

theorem evaluate_of_value {v : Fraction} (h : s.value line = .ok v) :
    s.evaluate line = ⟨.ok v, { s with lastResult := some v }, [.evaluated line v]⟩ := by
  rw [evaluate, h]

theorem evaluate_of_fault {f : Fault} (h : s.value line = .error f) :
    s.evaluate line = ⟨.error (reported line f), s,
      if f.isReadingFault then [.rejected line f] else []⟩ := by
  rw [evaluate, h]

theorem evaluate_of_readingFault {f : Fault} (h : s.value line = .error f)
    (hf : f.isReadingFault = true) :
    s.evaluate line = ⟨.error (.invalidExpression line), s, [.rejected line f]⟩ := by
  simp only [evaluate, h, reported, hf, if_true]

theorem evaluate_of_divisionByZero (h : s.value line = .error .divisionByZero) :
    s.evaluate line = ⟨.error .divisionByZero, s, []⟩ := by
  rw [evaluate, h]
  rfl

/-- How evaluating a line ends, and in which session. -/
inductive Evaluated (s : Session) (line : String) : Prop where
  | value (v : Fraction) (result : (s.evaluate line).result = .ok v)
      (session : (s.evaluate line).session = { s with lastResult := some v })
  | invalid (result : (s.evaluate line).result = .error (.invalidExpression line))
      (session : (s.evaluate line).session = s)
  | divided (result : (s.evaluate line).result = .error .divisionByZero)
      (session : (s.evaluate line).session = s)

theorem evaluated (s : Session) (line : String) : Evaluated s line := by
  cases hv : s.value line with
  | ok v =>
    have he := evaluate_of_value hv
    exact .value v (by rw [he]) (by rw [he])
  | error f =>
    rcases isReadingFault_or_of_value hv with hf | rfl
    · have he := evaluate_of_readingFault hv hf
      exact .invalid (by rw [he]) (by rw [he])
    · have he := evaluate_of_divisionByZero hv
      exact .divided (by rw [he]) (by rw [he])

theorem result_evaluate_eq_divisionByZero_iff :
    (s.evaluate line).result = .error .divisionByZero ↔
      ¬ IsRecall line ∧ ∃ k, ZeroDivisorAt s.registers (Token.scan line) k := by
  rw [← value_eq_divisionByZero_iff]
  cases hv : s.value line with
  | ok v => simp [evaluate_of_value hv]
  | error f =>
    rcases isReadingFault_or_of_value hv with hf | rfl
    · rw [evaluate_of_readingFault hv hf]
      constructor
      · intro h
        cases h
      · intro h
        rw [Except.error.inj h] at hf
        contradiction
    · simp [evaluate_of_divisionByZero hv]

/-- An attempt reports what the request itself would have answered. -/
structure Reports (t : Tried) {α : Type} (r : Reply α) (value : α → Option Fraction) : Prop where
  success : ∀ a, r.result = .ok a → t.outcome = .success (value a)
  failure : ∀ f, r.result = .error f → t.outcome = .failure (some f)
  session : t.session = r.session
  events : t.events = r.events

theorem reports_tryEvaluate (s : Session) (line : String) :
    Reports (s.tryEvaluate line) (s.evaluate line) some where
  success a h := by simp only [tryEvaluate, h]
  failure f h := by simp only [tryEvaluate, h]
  session := session_tryEvaluate s line
  events := by
    simp only [tryEvaluate]
    split <;> rfl

theorem reports_tryStore (s : Session) (selector : String) :
    Reports (s.tryStore selector) (s.store selector) fun _ => s.lastResult where
  success a h := by simp only [tryStore, h, lastResult_store]
  failure f h := by simp only [tryStore, h]
  session := session_tryStore s selector
  events := by
    simp only [tryStore]
    split <;> rfl

/-- Evaluating a line gives a value, which becomes the last result, or one of two faults, which
leave the session alone: the line is invalid, or it divides by zero. It divides by zero exactly if
it is read as an expression and comes to a divisor of value zero, so never if it has letters
only. The reading itself fails with a fault or not at all. Attempts report the same. -/
theorem evaluate_answers (s : Session) (line : String) :
    Evaluated s line ∧
    ((s.evaluate line).result = .error .divisionByZero ↔
      ¬ IsRecall line ∧ ∃ k, ZeroDivisorAt s.registers (Token.scan line) k) ∧
    ((Cursor.ofLine line).answer s.registers s.strict .whole).1
      = (RationalCalculator.evaluate s.registers s.strict line).mapError .fault ∧
    (Fault.invalidExpression line).expression? = some line ∧
    Fault.divisionByZero.report = (.divisionByZero, "Division by zero is not allowed.") ∧
    Reports (s.tryEvaluate line) (s.evaluate line) some ∧
    ∀ selector, Reports (s.tryStore selector) (s.store selector) fun _ => s.lastResult :=
  ⟨evaluated s line, result_evaluate_eq_divisionByZero_iff, answer_whole_ofLine _ _ line, rfl, rfl,
    reports_tryEvaluate s line, reports_tryStore s⟩

end Session

end RationalCalculator
