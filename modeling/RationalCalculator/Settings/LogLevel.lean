import RationalCalculator.Text.Case

/-!
# Log levels

A log level is chosen by name. The name is stripped and read in either case, and two levels have
two names each; the name that was given is kept. Only the two lowest levels show what the
calculator logs.
-/

namespace RationalCalculator

inductive LogLevel where
  | critical
  | fatal
  | error
  | warn
  | warning
  | info
  | debug
  | notset
  deriving DecidableEq, Repr

namespace LogLevel

def name : LogLevel → String
  | critical => "CRITICAL"
  | fatal => "FATAL"
  | error => "ERROR"
  | warn => "WARN"
  | warning => "WARNING"
  | info => "INFO"
  | debug => "DEBUG"
  | notset => "NOTSET"

def ofName? : String → Option LogLevel
  | "CRITICAL" => some critical
  | "FATAL" => some fatal
  | "ERROR" => some error
  | "WARN" => some warn
  | "WARNING" => some warning
  | "INFO" => some info
  | "DEBUG" => some debug
  | "NOTSET" => some notset
  | _ => none

/-- The level of a name with blanks around it and in either case. -/
def ofText? (text : String) : Option LogLevel := ofName? (Text.capitals (Text.stripped text))

/-- Are the entries of the calculator shown? They are all of the level `debug`. -/
def showsEntries : LogLevel → Bool
  | debug | notset => true
  | _ => false

@[simp] theorem ofName?_name (l : LogLevel) : ofName? l.name = some l := by
  cases l <;> rfl

end LogLevel

end RationalCalculator
