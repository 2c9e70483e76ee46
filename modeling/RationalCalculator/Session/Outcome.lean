import RationalCalculator.Session.Basic

/-!
# Outcomes

An outcome reports a request as a success or a failure in one value, with the text to show for
it. Requests that are tried never fail themselves: `tryEvaluate` and `tryStore` report what
`evaluate` and `store` answer and leave the same session behind.
-/

namespace RationalCalculator

inductive Outcome where
  | success (value : Option Fraction)
  | failure (fault : Option Fault)
  deriving DecidableEq

namespace Outcome

def isSuccess : Outcome → Bool
  | success _ => true
  | failure _ => false

def value? : Outcome → Option Fraction
  | success value => value
  | failure _ => none

def fault? : Outcome → Option Fault
  | success _ => none
  | failure fault => fault

/-- The text to show, unless the value is too long to be written. -/
def message : Outcome → Except Numeral.Overlong String
  | success none => .ok ""
  | success (some value) => value.text
  | failure none => .ok "None"
  | failure (some fault) => .ok fault.message

end Outcome

namespace Session

structure Tried where
  outcome : Outcome
  session : Session
  events : List Event

def tryEvaluate (s : Session) (line : String) : Tried :=
  let r := s.evaluate line
  match r.result with
  | .ok v => ⟨.success v, r.session, r.events⟩
  | .error fault => ⟨.failure fault, r.session, r.events⟩

/-- A successful store reports the value that was stored. -/
def tryStore (s : Session) (selector : String) : Tried :=
  let r := s.store selector
  match r.result with
  | .ok () => ⟨.success r.session.lastResult, r.session, r.events⟩
  | .error fault => ⟨.failure fault, r.session, r.events⟩

@[simp] theorem session_tryEvaluate (s : Session) (line : String) :
    (s.tryEvaluate line).session = (s.evaluate line).session := by
  simp only [tryEvaluate]
  split <;> rfl

@[simp] theorem session_tryStore (s : Session) (selector : String) :
    (s.tryStore selector).session = (s.store selector).session := by
  simp only [tryStore]
  split <;> rfl

end Session

end RationalCalculator
