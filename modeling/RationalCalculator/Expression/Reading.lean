import RationalCalculator.Expression.Token
import RationalCalculator.Registers

/-!
# Reading expressions

An expression is a sum of terms, a term is a product of operands, and an operand is a literal or
a register. Operands and operators alternate, so one walk from left to right reads a whole
expression: it keeps the terms before the last one as a sum and the last one as far as it has
been read (`Partial`), and takes an operator together with the operand after it. The walk
evaluates as it goes and stops at the first fault, or at the first token that does not continue
what is being read.

A `Reading` is the value or the fault of such a walk and the tokens it has left. It never leaves
more tokens than it was given (`length_rest_walk`).
-/

namespace RationalCalculator

/-- What a walk over tokens comes to. -/
structure Reading where
  value : Except Fault Fraction
  rest : List Token

inductive Part where
  | operand
  | term
  | expression
  deriving DecidableEq, Repr

/-- Does an operator after an operand continue the part? -/
def Part.continues : Part → Operator → Bool
  | operand, _ => false
  | term, op => !op.isAdditive
  | expression, _ => true

/-- An expression as far as it has been read: a sum, and a last term that is added to it or
subtracted from it. -/
structure Partial where
  sum : Fraction
  subtracts : Bool
  term : Fraction

namespace Partial

def start (v : Fraction) : Partial := ⟨.zero, false, v⟩

def value (p : Partial) : Fraction := if p.subtracts then p.sum - p.term else p.sum + p.term

def extend (p : Partial) (op : Operator) (v : Fraction) : Except Fault Partial :=
  match op with
  | .add => .ok ⟨p.value, false, v⟩
  | .subtract => .ok ⟨p.value, true, v⟩
  | .multiply | .divide => (op.apply p.term v).map fun t => { p with term := t }

end Partial

namespace Token

/-- The value of a token that stands where an operand is due. -/
def value (registers : Registers) : Token → Except Fault Fraction
  | operator op => .error (.invalidOperand op.symbol)
  | register name =>
    match registers.get? name with
    | some v => .ok v
    | none => .error (.unknownRegister (String.singleton name))
  | fraction _ v => .ok v
  | integer _ n => .ok (.ofInt n)
  | invalid text => .error (.invalidOperand text)

end Token

namespace Reading

/-- The operand `t`. An operator in its place is not passed over. -/
def operand (registers : Registers) (t : Token) (rest : List Token) : Reading :=
  ⟨t.value registers, if t.operator?.isSome then t :: rest else rest⟩

/-- Carry on with what follows an operand. -/
def walk (part : Part) (registers : Registers) (p : Partial) : List Token → Reading
  | [] => ⟨.ok p.value, []⟩
  | t :: rest =>
    match t.operator? with
    | none => ⟨.ok p.value, t :: rest⟩
    | some op =>
      if part.continues op then
        match rest with
        | [] => ⟨.error (.missingOperand t.text), []⟩
        | u :: rest =>
          match u.value registers with
          | .error _ => operand registers u rest
          | .ok v =>
            match p.extend op v with
            | .error f => ⟨.error f, rest⟩
            | .ok p => walk part registers p rest
      else ⟨.ok p.value, t :: rest⟩

/-- Read a part of an expression that starts with the operand `t`. -/
def read (part : Part) (registers : Registers) (t : Token) (rest : List Token) : Reading :=
  match t.value registers with
  | .error _ => operand registers t rest
  | .ok v => walk part registers (.start v) rest

/-- A token left over is a fault if the reading has to be complete. -/
def complete (strict : Bool) (r : Reading) : Reading :=
  match r.value, r.rest with
  | .ok _, t :: _ => if strict then { r with value := .error (.unexpectedToken t.text) } else r
  | _, _ => r

theorem length_rest_operand (registers : Registers) (t : Token) (rest : List Token) :
    (operand registers t rest).rest.length ≤ rest.length + 1 := by
  simp only [operand]
  split <;> simp

/-- A walk leaves no more tokens than it is given. -/
theorem length_rest_walk (part : Part) (registers : Registers) (p : Partial) (ts : List Token) :
    (walk part registers p ts).rest.length ≤ ts.length := by
  fun_induction walk part registers p ts with
  | case1 => simp
  | case2 => simp
  | case3 => simp
  | case4 p t op _ _ u rest f _ =>
    have := length_rest_operand registers u rest
    simp only [List.length_cons]
    omega
  | case5 =>
    simp only [List.length_cons]
    omega
  | case6 p t op _ _ u rest v _ q _ ih =>
    simp only [List.length_cons]
    omega
  | case7 => simp

theorem length_rest_read (part : Part) (registers : Registers) (t : Token) (rest : List Token) :
    (read part registers t rest).rest.length ≤ rest.length + 1 := by
  unfold read
  split
  · exact length_rest_operand registers t rest
  · exact Nat.le_succ_of_le (length_rest_walk part registers _ rest)

@[simp] theorem rest_complete (strict : Bool) (r : Reading) :
    (r.complete strict).rest = r.rest := by
  unfold complete
  split
  · split <;> rfl
  · rfl

end Reading

/-- The value of a line: what its tokens come to as one expression. -/
def evaluate (registers : Registers) (strict : Bool) (line : String) : Except Fault Fraction :=
  match Token.scan line with
  | [] => .error .emptyExpression
  | t :: rest => ((Reading.read .expression registers t rest).complete strict).value

end RationalCalculator
