import RationalCalculator.Calculation
import RationalCalculator.Proofs.Fraction.Rational

/-!
# Calculations in exact numbers

A calculation over fractions and the same steps over the rational numbers march in step. An operator
is applied to the numbers on its two sides as they are written, an integer is taken for itself, and
nothing else is a number, truth values included. So a step gives the fraction of the exact result, or
it fails for one of two reasons, a divisor of zero and an operand that is no number, and then the
current fraction stays. Steps that only look at the fraction leave it alone, too.
-/

namespace RationalCalculator

/-- What the operator comes to in exact numbers. -/
def Operator.onRat (op : Operator) (x y : ℚ) : Except Fault ℚ :=
  match op with
  | add => .ok (x + y)
  | subtract => .ok (x - y)
  | multiply => .ok (x * y)
  | divide => if y = 0 then .error .divisionByZero else .ok (x / y)

/-- The number that an operator takes an operand for. -/
def Operand.number? : Operand → Option ℚ
  | fraction f => some f.toRat
  | integer n => some n
  | _ => none

theorem Operator.toRat_apply (op : Operator) (a b : Fraction) :
    (op.apply a b).map Fraction.toRat = op.onRat a.toRat b.toRat := by
  cases op with
  | add => exact congrArg Except.ok (Fraction.toRat_add a b)
  | subtract => exact congrArg Except.ok (Fraction.toRat_sub a b)
  | multiply => exact congrArg Except.ok (Fraction.toRat_mul a b)
  | divide =>
    by_cases hb : b.toRat = 0
    · have hfault := (Fraction.divide_apply_eq_error_iff a b .divisionByZero).mpr ⟨hb, rfl⟩
      simp [hfault, onRat, hb, Except.map]
    · obtain ⟨q, hq, hval⟩ := Fraction.divide_apply_of_ne_zero (a := a) hb
      simp [hq, onRat, hb, hval, Except.map]

/-- Exact numbers fail for a divisor of zero and for nothing else. -/
theorem Operator.onRat_eq_error_iff (op : Operator) (x y : ℚ) (fault : Fault) :
    op.onRat x y = .error fault ↔ op = .divide ∧ y = 0 ∧ fault = .divisionByZero := by
  cases op with
  | add => simp [onRat]
  | subtract => simp [onRat]
  | multiply => simp [onRat]
  | divide => by_cases hy : y = 0 <;> simp [onRat, hy, eq_comm]

theorem Operand.number?_eq (x : Operand) : x.number? = x.toFraction?.map Fraction.toRat := by
  cases x with
  | integer n => exact congrArg some (Fraction.toRat_ofInt n).symm
  | _ => rfl

theorem Operand.number?_eq_none_iff (x : Operand) :
    x.number? = none ↔ (∀ f, x ≠ .fraction f) ∧ ∀ n, x ≠ .integer n := by
  cases x <;> simp [number?]

namespace Calculation

/-- The current number and the argument, in the order in which they are written. -/
def Side.order (side : Side) (current argument : ℚ) : ℚ × ℚ :=
  match side with
  | .left => (argument, current)
  | .right => (current, argument)

/-- What a step comes to over the number `q`, unless it only looks at it. -/
def Step.result? (q : ℚ) : Step → Option (Except StepError ℚ)
  | .operate op argument => some ((op.onRat q argument.toRat).mapError .fault)
  | .combine op argument side =>
    match argument.number? with
    | some r => some ((op.onRat (side.order q r).1 (side.order q r).2).mapError .fault)
    | none => some (.error .unsupportedOperand)
  | .negate => some (.ok (-q))
  | _ => none

/-- The number after a step. -/
def Step.after (q : ℚ) (step : Step) : ℚ :=
  match step.result? q with
  | some (.ok r) => r
  | _ => q

/-- The number that a step over `q` divides by. -/
def Step.divisor? (q : ℚ) : Step → Option ℚ
  | .operate .divide argument => some argument.toRat
  | .combine .divide argument side => argument.number?.map fun r => (side.order q r).2
  | _ => none

/-- An operator is handed something that is neither a fraction nor an integer. -/
def Step.Unsupported (step : Step) : Prop :=
  ∃ op argument side, step = .combine op argument side ∧
    (∀ f, argument ≠ .fraction f) ∧ ∀ n, argument ≠ .integer n

/-- The number of an answer that is a fraction. -/
def Answer.number? : Answer → Option ℚ
  | .value f => some f.toRat
  | _ => none

variable {f : Fraction} {step : Step} {e : StepError} {q : ℚ}

theorem number?_applyOn (op : Operator) (side : Side) (f g : Fraction) :
    (applyOn op side f g).map Answer.number?
      = ((op.onRat (side.order f.toRat g.toRat).1 (side.order f.toRat g.toRat).2).mapError
          StepError.fault).map some := by
  cases side with
  | left =>
    simp only [applyOn, Side.order, ← Operator.toRat_apply]
    cases op.apply g f <;> rfl
  | right =>
    simp only [applyOn, Side.order, ← Operator.toRat_apply]
    cases op.apply f g <;> rfl

/-- An arithmetic step answers what it comes to in exact numbers. -/
theorem number?_answer {r : Except StepError ℚ} (h : step.result? f.toRat = some r) :
    (answer f step).map Answer.number? = r.map some := by
  cases step with
  | operate op argument =>
    obtain rfl := Option.some.inj h
    exact number?_applyOn op .right f argument
  | combine op argument side =>
    simp only [Step.result?, Operand.number?_eq] at h
    cases hx : argument.toFraction? with
    | none =>
      simp only [hx, Option.map_none, Option.some.injEq] at h
      simp only [answer, hx, ← h]
      rfl
    | some x =>
      simp only [hx, Option.map_some, Option.some.injEq] at h
      simp only [answer, hx, ← h]
      exact number?_applyOn op side f x
  | negate =>
    obtain rfl := Option.some.inj h
    exact congrArg (Except.ok ∘ some) (Fraction.toRat_neg f)
  | _ => contradiction

theorem exists_answer_of_result (h : step.result? f.toRat = some (.ok q)) :
    ∃ g, answer f step = .ok (.value g) ∧ g.toRat = q := by
  have hnumber := number?_answer h
  cases ha : answer f step with
  | error e => simp [ha, Except.map] at hnumber
  | ok a =>
    cases a with
    | value g =>
      rw [ha] at hnumber
      exact ⟨g, rfl, Option.some.inj (Except.ok.inj hnumber)⟩
    | _ => simp [ha, Except.map, Answer.number?] at hnumber

theorem answer_of_failure (h : step.result? f.toRat = some (.error e)) :
    answer f step = .error e := by
  have hnumber := number?_answer h
  cases ha : answer f step with
  | error e' =>
    rw [ha] at hnumber
    rw [Except.error.inj hnumber]
  | ok a => simp [ha, Except.map] at hnumber

/-- A step that only looks at the fraction does not change it and does not fail as arithmetic
does. -/
theorem answer_of_look (h : step.result? q = none) (f : Fraction) :
    next f (answer f step) = f ∧
      ∀ e, answer f step = .error e → e = .overlong ∨ e = .overflow := by
  have hwritten (t : Except Numeral.Overlong String) :
      next f (written t) = f ∧ ∀ e, written t = .error e → e = .overlong ∨ e = .overflow := by
    cases t <;> simp [written, next, eq_comm]
  cases step with
  | operate op argument => contradiction
  | combine op argument side =>
    rw [Step.result?] at h
    split at h <;> contradiction
  | negate => contradiction
  | compare argument => exact ⟨rfl, nofun⟩
  | contrast argument => exact ⟨rfl, nofun⟩
  | compareHash argument => exact ⟨rfl, nofun⟩
  | write => exact hwritten f.text
  | writeBuild => exact hwritten f.buildText
  | approximate =>
    rw [answer]
    cases Double.nearest f <;> simp [next, eq_comm]

/-- Arithmetic fails exactly as it does in exact numbers. -/
theorem answer_eq_error_iff (hlong : e ≠ .overlong) (hlarge : e ≠ .overflow) :
    answer f step = .error e ↔ step.result? f.toRat = some (.error e) := by
  refine ⟨fun ha => ?_, answer_of_failure⟩
  match hr : step.result? f.toRat with
  | none => exact absurd ((answer_of_look hr f).2 e ha) (not_or.mpr ⟨hlong, hlarge⟩)
  | some (.ok q) =>
    obtain ⟨g, hg, -⟩ := exists_answer_of_result hr
    rw [ha] at hg
    contradiction
  | some (.error e') =>
    rw [answer_of_failure hr, Except.error.injEq] at ha
    rw [ha]

theorem Step.unsupported_combine_iff (op : Operator) (argument : Operand) (side : Side) :
    (Step.combine op argument side).Unsupported ↔ argument.number? = none := by
  rw [Operand.number?_eq_none_iff, Unsupported]
  simp

theorem Step.result?_eq_error_iff (q : ℚ) (step : Step) (e : StepError) :
    step.result? q = some (.error e) ↔
      (step.divisor? q = some 0 ∧ e = .fault .divisionByZero) ∨
        (step.Unsupported ∧ e = .unsupportedOperand) := by
  have hfault (r : Except Fault ℚ) : some (r.mapError StepError.fault) = some (.error e) ↔
      ∃ fault, r = .error fault ∧ e = .fault fault := by
    cases r <;> simp [Except.mapError, eq_comm]
  cases step with
  | operate op argument =>
    rw [result?, hfault]
    simp only [Operator.onRat_eq_error_iff]
    cases op <;> simp [divisor?, Unsupported]
  | combine op argument side =>
    rw [unsupported_combine_iff]
    cases hx : argument.number? with
    | none => cases op <;> simp [result?, divisor?, hx, eq_comm]
    | some r =>
      simp only [result?, hx, hfault, Operator.onRat_eq_error_iff]
      cases op <;> simp [divisor?, hx]
  | _ => simp [result?, divisor?, Unsupported]

/-- What one step does: it leads from the fraction `f` to the fraction `g` with the answer `a`. -/
structure Performs (f : Fraction) (step : Step) (a : Except StepError Answer) (g : Fraction) :
    Prop where
  lowestTerms : 0 < g.den ∧ g.num.natAbs.Coprime g.den
  value : ∀ q, step.result? f.toRat = some (.ok q) → a = .ok (.value g) ∧ g.toRat = q
  failure : ∀ e, step.result? f.toRat = some (.error e) →
    a = .error e ∧ (e = .fault .divisionByZero ∨ e = .unsupportedOperand)
  look : step.result? f.toRat = none → g = f
  unchanged : ∀ e, a = .error e → g = f
  divisionByZero : a = .error (.fault .divisionByZero) ↔ step.divisor? f.toRat = some 0
  unsupported : a = .error .unsupportedOperand ↔ step.Unsupported

theorem performs (f : Fraction) (step : Step) :
    Performs f step (answer f step) (next f (answer f step)) where
  lowestTerms := ⟨Fraction.den_pos _, Fraction.coprime _⟩
  value q h := by
    obtain ⟨g, hg, hq⟩ := exists_answer_of_result h
    rw [hg]
    exact ⟨rfl, hq⟩
  failure e h := by
    refine ⟨answer_of_failure h, ?_⟩
    exact ((Step.result?_eq_error_iff _ step e).mp h).imp And.right And.right
  look h := (answer_of_look h f).1
  unchanged e h := by rw [h, next_of_error]
  divisionByZero := by
    rw [answer_eq_error_iff (by simp) (by simp), Step.result?_eq_error_iff]
    simp
  unsupported := by
    rw [answer_eq_error_iff (by simp) (by simp), Step.result?_eq_error_iff]
    simp

/-- One step over fractions is the step over their numbers. -/
theorem Performs.toRat_eq {a : Except StepError Answer} {g : Fraction}
    (h : Performs f step a g) : g.toRat = step.after f.toRat := by
  rw [Step.after]
  match hr : step.result? f.toRat with
  | none => rw [h.look hr]
  | some (.ok q) => exact (h.value q hr).2
  | some (.error e) => rw [h.unchanged e (h.failure e hr).1]

theorem run_append (f : Fraction) (done rest : List Step) :
    run f (done ++ rest) = ((run f done).1 ++ (run (run f done).2 rest).1,
      (run (run f done).2 rest).2) := by
  induction done generalizing f with
  | nil => rfl
  | cons step done ih => simp only [List.cons_append, run, ih]

theorem length_run (f : Fraction) (steps : List Step) :
    (run f steps).1.length = steps.length := by
  induction steps generalizing f with
  | nil => rfl
  | cons step steps ih => simp only [run, List.length_cons, ih]

theorem toRat_run (f : Fraction) (steps : List Step) :
    (run f steps).2.toRat = steps.foldl Step.after f.toRat := by
  induction steps generalizing f with
  | nil => rfl
  | cons step steps ih =>
    have hstep := (performs f step).toRat_eq
    simp only [run, List.foldl_cons, ih, hstep]

/-- At any point of a calculation the next step gives the fraction of its exact result in lowest
terms, or fails for a divisor of zero or an operand that is no number and changes nothing. So the
current fraction is always that of the steps in exact numbers. -/
theorem run_in_exact_numbers :
    (∀ (start : Fraction) (done : List Step) (step : Step) (rest : List Step), ∃ a,
      (run start (done ++ step :: rest)).1[done.length]? = some a ∧
      Performs (run start done).2 step a (run start (done ++ [step])).2) ∧
    (∀ (start : Fraction) (steps : List Step),
      (run start steps).2.toRat = steps.foldl Step.after start.toRat) := by
  refine ⟨fun start done step rest => ?_, toRat_run⟩
  refine ⟨answer (run start done).2 step, ?_, ?_⟩
  · rw [run_append, ← length_run start done, List.getElem?_append_right le_rfl, Nat.sub_self]
    rfl
  · rw [run_append]
    exact performs (run start done).2 step

example : run (.ofInt 2) [.combine .subtract (.integer 3) .left, .combine .add (.truth true) .right,
    .combine .divide (.integer 1) .left, .operate .divide .zero, .negate] =
      ([.ok (.value (.ofInt 1)), .error .unsupportedOperand, .ok (.value (.ofInt 1)),
        .error (.fault .divisionByZero), .ok (.value (.ofInt (-1)))], .ofInt (-1)) := by
  decide +kernel

end Calculation

end RationalCalculator
