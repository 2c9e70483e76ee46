import RationalCalculator.Expression.Cursor
import RationalCalculator.Proofs.Expression.Shape

/-!
# How the core can fail

Fractions are built from integers, read from literals and asked for at a cursor in a line. What
stands against it is a fault in all but two cases, and each of the three has its own kinds of fault.
The two cases are a zero denominator under a numerator too long to be shown in the message, and a
part that is asked of a line without tokens, where the message would name the token before it.
-/

namespace RationalCalculator

namespace Fraction

/-- A zero denominator is at fault, but the numerator has to be shown. -/
theorem build_zero (n : Int) :
    build n 0 = .error (if Numeral.isWritable n then .fault (.zeroDenominator n.repr)
      else .overlong) := by
  rw [build, dif_pos rfl, Numeral.write]
  by_cases h : Numeral.isWritable n = true
  · rw [if_pos h, if_pos h]
  · rw [if_neg h, if_neg h]

theorem exists_build_iff (n d : Int) : (∃ v, build n d = .ok v) ↔ d ≠ 0 := by
  constructor
  · rintro ⟨v, hv⟩ rfl
    rw [build_zero] at hv
    cases hv
  · intro h
    exact ⟨_, build_of_ne_zero n h⟩

theorem ofNumerals_cases (text : String) (num den : List Char) :
    (∃ v, ofNumerals text num den = .ok v) ∨
      ofNumerals text num den = .error (.malformedFraction text) ∨
      ofNumerals text num den = .error (.nonPositiveDenominator text) := by
  unfold ofNumerals
  split
  · split
    · exact .inl ⟨_, rfl⟩
    · exact .inr (.inr rfl)
  · exact .inr (.inl rfl)

/-- A text is a literal, or it is at fault as a whole. -/
theorem parse_cases (text : String) :
    (∃ v, parse text = .ok v) ∨ parse text = .error (.malformedFraction text) ∨
      parse text = .error (.nonPositiveDenominator text) := by
  unfold parse
  split
  · exact .inr (.inl rfl)
  · exact ofNumerals_cases text _ _

end Fraction

namespace Reading

variable {registers : Registers} {part : Part} {f : Fault}

/-- The kinds of fault that the tokens of a line can cause. -/
def faultKinds : List Fault.Kind := [.invalidOperand, .unknownRegister, .divisionByZero]

theorem kind_of_value {t : Token} (h : t.value registers = .error f) : f.kind ∈ faultKinds := by
  rcases t.kind_of_value h with hk | hk <;> simp [faultKinds, hk]

theorem kind_walk {p : Partial} {ts : List Token} (h : (walk part registers p ts).value = .error f) :
    f.kind ∈ faultKinds := by
  fun_induction walk part registers p ts with
  | case1 => contradiction
  | case2 => contradiction
  | case3 => exact Except.error.inj h ▸ List.mem_cons_self
  | case4 => exact kind_of_value h
  | case5 p t op ht hc u rest v hv g hg =>
    obtain rfl := Except.error.inj h
    obtain ⟨-, -, rfl⟩ := (Partial.extend_eq_error_iff op v _).mp hg
    decide
  | case6 p t op ht hc u rest v hv q hq ih => exact ih h
  | case7 => contradiction

theorem kind_read {t : Token} {rest : List Token}
    (h : (read part registers t rest).value = .error f) : f.kind ∈ faultKinds := by
  unfold read at h
  split at h
  · exact kind_of_value h
  · exact kind_walk h

theorem kind_complete {r : Reading} {strict : Bool} (hr : r.value = .error f → f.kind ∈ faultKinds)
    (h : (r.complete strict).value = .error f) : f.kind ∈ faultKinds := by
  unfold complete at h
  split at h
  · split at h
    · exact Except.error.inj h ▸ List.mem_cons_self
    · exact hr h
  · exact hr h

end Reading

namespace Cursor

variable {registers : Registers} {strict : Bool}

/-- An answer that is a fraction, or a fault of a kind that reading knows. -/
inductive Proper : Except Failure Fraction → Prop where
  | value (v : Fraction) : Proper (.ok v)
  | fault {f : Fault} (h : f.kind ∈ Fault.Kind.emptyExpression :: Reading.faultKinds) :
      Proper (.error (.fault f))

/-- The answer is proper unless a part is asked of no tokens at all. -/
structure Answered (tokens : List Token) (request : Request) (answer : Except Failure Fraction) :
    Prop where
  proper : ¬ (tokens = [] ∧ request ≠ .whole) → Proper answer
  noTokens : tokens = [] ∧ request ≠ .whole → answer = .error .noTokens

theorem proper_mapError {value : Except Fault Fraction}
    (h : ∀ f, value = .error f → f.kind ∈ Reading.faultKinds) : Proper (value.mapError .fault) := by
  cases value with
  | ok v => exact .value v
  | error f => exact .fault (List.mem_cons_of_mem _ (h f rfl))

theorem proper_readingAt (t : Token) (rest : List Token) (request : Request) :
    Proper ((readingAt registers strict t rest request).value.mapError .fault) := by
  refine proper_mapError fun f hf => ?_
  cases request with
  | part part => exact Reading.kind_read hf
  | whole => exact Reading.kind_complete Reading.kind_read hf

/-- At the end of the line the last token is named, if there is one. -/
theorem answered_atEnd (c : Cursor) (request : Request) :
    Answered c.tokens request (.error (c.atEnd request)) := by
  unfold atEnd
  cases hlast : c.tokens.getLast? with
  | some last =>
    have hne : c.tokens ≠ [] := by
      intro h
      rw [h] at hlast
      contradiction
    exact ⟨fun _ => .fault (by simp [Fault.kind, Reading.faultKinds]), fun h => absurd h.1 hne⟩
  | none =>
    have hnil : c.tokens = [] := List.getLast?_eq_none_iff.mp hlast
    by_cases hr : request = .whole
    · simp only [if_pos hr]
      exact ⟨fun _ => .fault List.mem_cons_self, fun h => absurd hr h.2⟩
    · simp only [if_neg hr]
      exact ⟨fun h => absurd ⟨hnil, hr⟩ h, fun _ => rfl⟩

theorem answered_answer (c : Cursor) (request : Request) :
    Answered c.tokens request (c.answer registers strict request).1 := by
  unfold answer
  cases hrest : c.rest with
  | nil => exact answered_atEnd c request
  | cons t rest =>
    have hne : c.tokens ≠ [] := by
      intro h
      simp [Cursor.rest, h] at hrest
    exact ⟨fun _ => proper_readingAt t rest request, fun h => absurd h.1 hne⟩

/-- A cursor that has moved is still on its line, so all answers of a run are alike. -/
theorem answered_run (c : Cursor) (requests : List Request) :
    List.Forall₂ (Answered c.tokens) requests
      ((c.run registers strict requests).map Prod.fst) := by
  induction requests generalizing c with
  | nil => exact .nil
  | cons request requests ih =>
    exact .cons (answered_answer c request) (ih (c.move registers strict request))

end Cursor

/-- Nothing but a fault keeps a fraction from being built, read or found in a line, apart from a
numerator that cannot be shown and from a line that has no tokens. -/
theorem fails_by_fault_but_twice (n d : Int) (text line : String) (registers : Registers)
    (strict : Bool) (requests : List Request) :
    ((∃ v, Fraction.build n d = .ok v) ↔ d ≠ 0) ∧
    Fraction.build n 0 = .error
      (if Numeral.isWritable n then .fault (.zeroDenominator n.repr) else .overlong) ∧
    ((∃ v, Fraction.parse text = .ok v) ∨
      Fraction.parse text = .error (.malformedFraction text) ∨
      Fraction.parse text = .error (.nonPositiveDenominator text)) ∧
    List.Forall₂ (Cursor.Answered (Token.scan line)) requests
      (((Cursor.ofLine line).run registers strict requests).map Prod.fst) :=
  ⟨Fraction.exists_build_iff n d, Fraction.build_zero n, Fraction.parse_cases text,
    Cursor.answered_run (Cursor.ofLine line) requests⟩

/-- The numerator has one digit too many, and the line is empty. -/
theorem overlong_numerator_and_missing_tokens :
    Fraction.build (Nat.pow 10 Numeral.digitLimit : Nat) 0 = .error .overlong ∧
    (Cursor.ofLine "").run .empty false [.part .operand] = [(.error .noTokens, 0)] := by
  constructor
  · have hlong : Numeral.isWritable (Nat.pow 10 Numeral.digitLimit : Nat) = false := by
      rw [Numeral.isWritable, Int.natAbs_natCast]
      exact decide_eq_false (Nat.lt_irrefl _)
    rw [Fraction.build_zero, hlong]
    rfl
  · decide +kernel

end RationalCalculator
