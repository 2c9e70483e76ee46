import RationalCalculator.Settings.Basic

/-!
# Where settings come from

Settings are read from the variables of an environment and may then be overridden by flags. Each
field has a variable; the approximation has a second, shorter one that counts if the first is not
set. Flags do not reach into checked settings: the settings with the overridden fields are
checked once more, so a flag cannot bring in a value that the environment could not.
-/

namespace RationalCalculator.Settings

def Field.variable : Field → String
  | historyFile => "FRACTION_CALC_HISTORY_FILE"
  | logLevel => "FRACTION_CALC_LOG_LEVEL"
  | strict => "FRACTION_CALC_STRICT"
  | showApproximation => "FRACTION_CALC_SHOW_APPROXIMATION"
  | prompt => "FRACTION_CALC_PROMPT"

def shortVariable : String := "FRACTION_CALC_APPROX"

/-- All variables that give a field, with those that count first in front. -/
def Field.variables (field : Field) : List String :=
  if field = .showApproximation then [field.variable, shortVariable] else [field.variable]

def Field.textIn (field : Field) (env : Environment) : Option String :=
  field.variables.findSome? env.get?

def Given.ofEnvironment (env : Environment) : Given where
  historyFile := (Field.historyFile.textIn env).map .text
  logLevel := (Field.logLevel.textIn env).map .text
  strict := (Field.strict.textIn env).map .text
  showApproximation := (Field.showApproximation.textIn env).map .text
  prompt := (Field.prompt.textIn env).map .text

def ofEnvironment (homes : Homes) (env : Environment) : Except (List Violation) Settings :=
  check homes (.ofEnvironment env)

/-- The flags that override settings. An empty log level overrides nothing. -/
structure Flags where
  strict : Bool
  showApproximation : Bool
  logLevel : String
  deriving DecidableEq, Repr

def Flags.none : Flags := ⟨false, false, ""⟩

/-- The values with those of the flags in their places. -/
def Flags.applyTo (flags : Flags) (given : Given) : Given where
  historyFile := given.historyFile
  logLevel := if flags.logLevel.isEmpty then given.logLevel else some (.text flags.logLevel)
  strict := if flags.strict then some (.truth true) else given.strict
  showApproximation :=
    if flags.showApproximation then some (.truth true) else given.showApproximation
  prompt := given.prompt

/-- The settings under flags. Without flags they are not checked again. -/
def override (homes : Homes) (s : Settings) (flags : Flags) : Except (List Violation) Settings :=
  if flags = .none then .ok s else check homes (flags.applyTo s.toGiven)

theorem textIn_eq (field : Field) (env : Environment) (h : field ≠ .showApproximation) :
    field.textIn env = env.get? field.variable := by
  simp [Field.textIn, Field.variables, h]

/-- The short variable counts only if the long one is not set. -/
theorem textIn_showApproximation (env : Environment) :
    Field.showApproximation.textIn env =
      (env.get? Field.showApproximation.variable).or (env.get? shortVariable) := by
  simp only [Field.textIn, Field.variables, if_true, List.findSome?_cons, List.findSome?_nil]
  cases env.get? Field.showApproximation.variable <;> cases env.get? shortVariable <;> rfl

end RationalCalculator.Settings
