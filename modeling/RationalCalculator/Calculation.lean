import RationalCalculator.Fraction.Literal
import RationalCalculator.Operand

/-!
# Running calculations

A calculation holds a current fraction and is carried on step by step: an operation replaces the
fraction by its result, and the other steps only look at it. A step that fails leaves the
current fraction as it was (`next_of_error`).
-/

namespace RationalCalculator

namespace Calculation

/-- On which side of an operator the argument of a step stands. -/
inductive Side where
  | left
  | right
  deriving DecidableEq, Repr

inductive Step where
  /-- An operation with a fraction on the right. -/
  | operate (op : Operator) (argument : Fraction)
  /-- An operation with an operand of any sort on either side. -/
  | combine (op : Operator) (argument : Operand) (side : Side)
  | negate
  | compare (argument : Operand)
  | contrast (argument : Operand)
  /-- Do the current fraction and the argument have the same hash key? -/
  | compareHash (argument : Operand)
  | write
  | writeBuild
  | approximate
  deriving DecidableEq

inductive Answer where
  | value (f : Fraction)
  | truth (b : Bool)
  | text (s : String)
  | double (x : Double)
  deriving DecidableEq

inductive StepError where
  | fault (f : Fault)
  | unsupportedOperand
  | overlong
  | overflow
  deriving DecidableEq, Repr

/-- The current fraction and a fraction, in the order of their sides. -/
def applyOn (op : Operator) (side : Side) (current argument : Fraction) :
    Except StepError Answer :=
  let result := match side with
    | .left => op.apply argument current
    | .right => op.apply current argument
  match result with
  | .ok f => .ok (.value f)
  | .error e => .error (.fault e)

def written : Except Numeral.Overlong String → Except StepError Answer
  | .ok s => .ok (.text s)
  | .error _ => .error .overlong

def answer (current : Fraction) : Step → Except StepError Answer
  | .operate op argument => applyOn op .right current argument
  | .combine op argument side =>
    match argument.toFraction? with
    | some f => applyOn op side current f
    | none => .error .unsupportedOperand
  | .negate => .ok (.value (-current))
  | .compare argument => .ok (.truth (argument.isEqual (.fraction current)))
  | .contrast argument => .ok (.truth (!argument.isEqual (.fraction current)))
  | .compareHash argument => .ok (.truth (argument.sameHash (.fraction current)))
  | .write => written current.text
  | .writeBuild => written current.buildText
  | .approximate =>
    match Double.nearest current with
    | .ok x => .ok (.double x)
    | .error _ => .error .overflow

def next (current : Fraction) : Except StepError Answer → Fraction
  | .ok (.value f) => f
  | _ => current

/-- The answers to a list of steps, and the last current fraction. -/
def run (current : Fraction) : List Step → List (Except StepError Answer) × Fraction
  | [] => ([], current)
  | step :: steps =>
    let a := answer current step
    let (rest, final) := run (next current a) steps
    (a :: rest, final)

theorem next_of_error (current : Fraction) (e : StepError) : next current (.error e) = current :=
  rfl

end Calculation

end RationalCalculator
