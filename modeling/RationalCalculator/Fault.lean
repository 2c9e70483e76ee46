import RationalCalculator.Numeral

/-!
# Faults

Everything the calculator can object to, as a cause. Each fault belongs to one of eight kinds
and has one wording (`Fault.message`). The four kinds that arise while a line is being read
(`Fault.isReadingFault`) are reported by a session as one invalid expression; all others keep
their identity.

A `Failure` is wider than a fault: two things can stop an operation that are not objections to
the user's input, an integer too long to be written and an operand asked of an empty line.
-/

namespace RationalCalculator

inductive Fault.Kind where
  | format
  | invalidOperand
  | unknownRegister
  | emptyExpression
  | divisionByZero
  | noResultToStore
  | invalidRegister
  | invalidExpression
  deriving DecidableEq, Repr

def Fault.Kind.name : Fault.Kind → String
  | .format => "format"
  | .invalidOperand => "invalid_operand"
  | .unknownRegister => "unknown_register"
  | .emptyExpression => "empty_expression"
  | .divisionByZero => "division_by_zero"
  | .noResultToStore => "no_result_to_store"
  | .invalidRegister => "invalid_register"
  | .invalidExpression => "invalid_expression"

inductive Fault where
  /-- The text is not of the form `integer/integer`. -/
  | malformedFraction (text : String)
  /-- The text is a fraction whose denominator is zero or negative. -/
  | nonPositiveDenominator (text : String)
  /-- The line ends where an operand is due. -/
  | missingOperand (after : String)
  /-- A token stands where an operand is due and is none. -/
  | invalidOperand (text : String)
  /-- A token is left over after a complete expression. -/
  | unexpectedToken (text : String)
  /-- A register is read that holds no value. -/
  | unknownRegister (name : String)
  | emptyExpression
  | divisionByZero
  | zeroDenominator (numerator : String)
  | noResult
  | noSelector
  | invalidExpression (text : String)
  /-- A fault of the given kind in words of the caller's choice. -/
  | worded (kind : Fault.Kind) (message : String)
  deriving DecidableEq, Repr

namespace Fault

def kind : Fault → Kind
  | malformedFraction _ | nonPositiveDenominator _ => .format
  | missingOperand _ | invalidOperand _ | unexpectedToken _ => .invalidOperand
  | unknownRegister _ => .unknownRegister
  | emptyExpression => .emptyExpression
  | divisionByZero | zeroDenominator _ => .divisionByZero
  | noResult => .noResultToStore
  | noSelector => .invalidRegister
  | invalidExpression _ => .invalidExpression
  | worded kind _ => kind

def message : Fault → String
  | malformedFraction text => s!"Invalid fraction format: {text}"
  | nonPositiveDenominator text => s!"Denominator must be positive: {text}"
  | missingOperand after => s!"Missing operand after: {after}"
  | invalidOperand text => s!"Invalid operand: {text}"
  | unexpectedToken text => s!"Unexpected token: {text}"
  | unknownRegister name => s!"Variable not found: {name}"
  | emptyExpression => "Empty expression"
  | divisionByZero => "Division by zero is not allowed."
  | zeroDenominator numerator => s!"Zero denominator: {numerator}/0"
  | noResult => "No result to store."
  | noSelector => "No register given to store into."
  | invalidExpression text => s!"Invalid expression: {text}"
  | worded _ message => message

def register? : Fault → Option String
  | unknownRegister name => some name
  | _ => none

def expression? : Fault → Option String
  | invalidExpression text => some text
  | _ => none

/-- Does the fault arise from reading a line, so that it makes the line as a whole invalid? -/
def isReadingFault (f : Fault) : Bool :=
  f.kind matches .format | .invalidOperand | .unknownRegister | .emptyExpression

/-- Several notes in place of one message: each quoted, in parentheses. -/
def joinNotes : List String → String
  | [] => ""
  | [note] => note
  | notes => "(" ++ ", ".intercalate (notes.map Text.quote) ++ ")"

end Fault

/-- Why an operation gives no value. -/
inductive Failure where
  | fault (f : Fault)
  /-- An integer has too many digits to be written. -/
  | overlong
  /-- An operand is asked of a line that has no tokens at all. -/
  | noTokens
  deriving DecidableEq, Repr

def Failure.message : Failure → String
  | .fault f => f.message
  | .overlong => Numeral.Overlong.overlong.message
  | .noTokens => "list index out of range"

end RationalCalculator
