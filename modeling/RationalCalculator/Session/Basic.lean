import RationalCalculator.Expression.Reading

/-!
# Calculator sessions

A session remembers its last result and its registers. `evaluate` gives the value of a line,
which becomes the last result; `store` copies the last result into a register. Either may be
answered by a fault, and then the session is what it was (`session_of_fault_evaluate`,
`session_of_fault_store`).

A line of ASCII letters only is not read as an expression: it recalls the register named by its
first letter. All faults of reading a line are reported as one invalid expression that quotes
the line; what was found is left to the log.
-/

namespace RationalCalculator

structure Session where
  lastResult : Option Fraction
  registers : Registers
  strict : Bool
  deriving DecidableEq

namespace Session

def start (strict : Bool) : Session := ⟨none, .empty, strict⟩

inductive Event where
  | evaluated (line : String) (value : Fraction)
  | rejected (line : String) (fault : Fault)
  | stored (value : Fraction) (name : Char)
  deriving DecidableEq

def Event.message : Event → Except Numeral.Overlong String
  | evaluated line value => do return s!"Evaluated {Text.quote line} = {← value.text}"
  | rejected line fault => .ok s!"Rejected {Text.quote line}: {fault.message}"
  | stored value name => do
    return s!"Stored {← value.text} in register {Text.quote (String.singleton name)}"

/-- The answer to a request, the session after it, and what is logged. -/
structure Reply (α : Type) where
  result : Except Fault α
  session : Session
  events : List Event

def recalled? (line : String) : Option Char :=
  match Text.strip line.toList with
  | [] => none
  | c :: cs => if (c :: cs).all Char.isAlpha then some c else none

def fetch (registers : Registers) (name : Char) : Except Fault Fraction :=
  match registers.get? name with
  | some v => .ok v
  | none => .error (.unknownRegister (String.singleton name))

/-- The value of a line, with the fault as it was found. -/
def value (s : Session) (line : String) : Except Fault Fraction :=
  match recalled? line with
  | some c => fetch s.registers c
  | none => RationalCalculator.evaluate s.registers s.strict line

/-- The fault as it is reported for a line. -/
def reported (line : String) (fault : Fault) : Fault :=
  if fault.isReadingFault then .invalidExpression line else fault

def evaluate (s : Session) (line : String) : Reply Fraction :=
  match s.value line with
  | .ok v => ⟨.ok v, { s with lastResult := some v }, [.evaluated line v]⟩
  | .error fault =>
    ⟨.error (reported line fault), s, if fault.isReadingFault then [.rejected line fault] else []⟩

/-- Copy the last result into the register named by the last character of the selector. -/
def store (s : Session) (selector : String) : Reply Unit :=
  match s.lastResult with
  | none => ⟨.error .noResult, s, []⟩
  | some v =>
    match selector.toList.getLast? with
    | none => ⟨.error .noSelector, s, []⟩
    | some c => ⟨.ok (), { s with registers := s.registers.set c v }, [.stored v c]⟩

/-- A line that cannot be evaluated leaves the session alone. -/
theorem session_of_fault_evaluate {s : Session} {line : String} {fault : Fault}
    (h : (s.evaluate line).result = .error fault) : (s.evaluate line).session = s := by
  unfold evaluate at h ⊢
  split at h <;> simp_all

/-- A store that fails leaves the session alone. -/
theorem session_of_fault_store {s : Session} {selector : String} {fault : Fault}
    (h : (s.store selector).result = .error fault) : (s.store selector).session = s := by
  unfold store at h ⊢
  split at h
  · rfl
  · split at h <;> simp_all

/-- An evaluation changes no register, whatever comes of it. -/
theorem registers_evaluate (s : Session) (line : String) :
    (s.evaluate line).session.registers = s.registers := by
  unfold evaluate
  split <;> rfl

/-- A store leaves the last result alone, whatever comes of it. -/
theorem lastResult_store (s : Session) (selector : String) :
    (s.store selector).session.lastResult = s.lastResult := by
  unfold store
  split
  · rfl
  · split <;> rfl

end Session

end RationalCalculator
