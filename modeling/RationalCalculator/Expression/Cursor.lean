import RationalCalculator.Expression.Reading

/-!
# Reading a line piece by piece

A cursor stands between the tokens of a line. Each request reads one piece from where the
cursor stands and moves it past what was read, also if the reading ends in a fault; so the cursor
never moves back (`position_le_move`) and never leaves the line (`position_move_le`).
-/

namespace RationalCalculator

inductive Request where
  | part (part : Part)
  /-- An expression, and in strict mode nothing after it. -/
  | whole
  deriving DecidableEq, Repr

/-- The tokens of a line, and how many of them have been read. -/
structure Cursor where
  tokens : List Token
  position : Nat
  inside : position ≤ tokens.length

namespace Cursor

def ofLine (line : String) : Cursor := ⟨Token.scan line, 0, Nat.zero_le _⟩

def rest (c : Cursor) : List Token := c.tokens.drop c.position

/-- A reading that starts with the operand `t`. -/
def readingAt (registers : Registers) (strict : Bool) (t : Token) (rest : List Token) :
    Request → Reading
  | .part part => .read part registers t rest
  | .whole => (Reading.read .expression registers t rest).complete strict

/-- The failure of a request at the end of the line. -/
def atEnd (c : Cursor) (request : Request) : Failure :=
  match c.tokens.getLast? with
  | some last => .fault (.missingOperand last.text)
  | none => if request = .whole then .fault .emptyExpression else .noTokens

def answer (c : Cursor) (registers : Registers) (strict : Bool) (request : Request) :
    Except Failure Fraction × List Token :=
  match c.rest with
  | [] => (.error (c.atEnd request), [])
  | t :: rest =>
    let r := readingAt registers strict t rest request
    (r.value.mapError .fault, r.rest)

def move (c : Cursor) (registers : Registers) (strict : Bool) (request : Request) : Cursor where
  tokens := c.tokens
  position := c.tokens.length - (c.answer registers strict request).2.length
  inside := Nat.sub_le _ _

/-- The answers to a list of requests, each with the position after it. -/
def run (c : Cursor) (registers : Registers) (strict : Bool) :
    List Request → List (Except Failure Fraction × Nat)
  | [] => []
  | request :: requests =>
    let next := c.move registers strict request
    ((c.answer registers strict request).1, next.position) :: next.run registers strict requests

theorem length_rest (c : Cursor) : c.rest.length = c.tokens.length - c.position := by
  simp [rest]

/-- A request leaves no more tokens than there are. -/
theorem length_answer_rest (c : Cursor) (registers : Registers) (strict : Bool)
    (request : Request) : (c.answer registers strict request).2.length ≤ c.rest.length := by
  unfold answer
  split
  · simp
  next t rest h =>
    rw [h]
    cases request with
    | part part => exact Reading.length_rest_read part registers t rest
    | whole =>
      simp only [readingAt, Reading.rest_complete]
      exact Reading.length_rest_read .expression registers t rest

theorem position_le_move (c : Cursor) (registers : Registers) (strict : Bool)
    (request : Request) : c.position ≤ (c.move registers strict request).position := by
  have h := c.length_answer_rest registers strict request
  have hr := c.length_rest
  have hi := c.inside
  simp only [move]
  omega

theorem position_move_le (c : Cursor) (registers : Registers) (strict : Bool)
    (request : Request) : (c.move registers strict request).position ≤ c.tokens.length :=
  (c.move registers strict request).inside

end Cursor

end RationalCalculator
