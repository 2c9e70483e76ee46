import RationalCalculator.Environment.Basic
import RationalCalculator.Fraction.Basic
import RationalCalculator.Settings.LogLevel
import RationalCalculator.Text.Quoted

/-!
# Settings

The settings of a calculator are checked values of five fields. A value may come as a text, as
it does from the environment, or as a value of another sort; a field that is not given has a
default. `Settings.check` checks all fields and reports every one that is refused, in the order
of the fields.

A flag is a word for yes or no, or one of the numbers 0 and 1. A path is stripped, must not be
blank, and may start with a tilde for the own home directory, or with a tilde and a name for the one
of another user. A path is left alone if the directory is not known, and refused if the name cannot
be one.
-/

namespace RationalCalculator

structure Settings where
  historyFile : String
  logLevel : LogLevel
  strict : Bool
  showApproximation : Bool
  prompt : String
  deriving DecidableEq, Repr

namespace Settings

inductive Field where
  | historyFile
  | logLevel
  | strict
  | showApproximation
  | prompt
  deriving DecidableEq, Repr

def Field.name : Field → String
  | historyFile => "history_file"
  | logLevel => "log_level"
  | strict => "strict"
  | showApproximation => "show_approximation"
  | prompt => "prompt"

inductive Raw where
  | text (value : String)
  | truth (value : Bool)
  | number (value : Fraction)
  /-- A value of any other sort, or none at all. -/
  | other
  deriving DecidableEq

structure Given where
  historyFile : Option Raw := none
  logLevel : Option Raw := none
  strict : Option Raw := none
  showApproximation : Option Raw := none
  prompt : Option Raw := none
  deriving DecidableEq

inductive Problem where
  | unknownLogLevel (text : String)
  | notAFlag (text : String)
  | blankPath (text : String)
  /-- The user whom a path names has a null character in the name. -/
  | illegalUser (text : String)
  | notAText
  | numberNotAFlag
  | notATruthValue
  deriving DecidableEq, Repr

def Problem.category : Problem → String
  | unknownLogLevel _ | notAFlag _ | blankPath _ | illegalUser _ => "value_error"
  | notAText => "string_type"
  | numberNotAFlag => "bool_parsing"
  | notATruthValue => "bool_type"

def Problem.message : Problem → String
  | unknownLogLevel text => s!"Value error, Unknown log level: {text}"
  | notAFlag text => s!"Value error, Expected a boolean flag, got {Text.quote text}"
  | blankPath _ => "Value error, History file cannot be empty"
  | illegalUser _ => "Value error, embedded null byte"
  | notAText => "Input should be a valid string"
  | numberNotAFlag => "Input should be a valid boolean, unable to interpret input"
  | notATruthValue => "Input should be a valid boolean"

def Problem.text? : Problem → Option String
  | unknownLogLevel text | notAFlag text | blankPath text | illegalUser text => some text
  | _ => none

structure Violation where
  field : Field
  problem : Problem
  deriving DecidableEq, Repr

def yesWords : List String := ["1", "true", "yes", "on"]

/-- The words for no; no word at all is one. -/
def noWords : List String := ["0", "false", "no", "off", ""]

def flagOfText (text : String) : Except Problem Bool :=
  let word := Text.smalls (Text.stripped text)
  if word ∈ yesWords then .ok true
  else if word ∈ noWords then .ok false
  else .error (.notAFlag text)

/-- A whole number that fits 64 bits with a sign is a number out of place; any other is no truth
value. -/
def numberProblem (n : Fraction) : Problem :=
  if n.isWhole ∧ -(Nat.pow 2 63 : Int) ≤ n.num ∧ n.num < Nat.pow 2 63 then .numberNotAFlag
  else .notATruthValue

def checkFlag : Raw → Except Problem Bool
  | .text text => flagOfText text
  | .truth b => .ok b
  | .number n =>
    if n = .zero then .ok false
    else if n = .ofInt 1 then .ok true
    else .error (numberProblem n)
  | .other => .error .notATruthValue

def checkText : Raw → Except Problem String
  | .text text => .ok text
  | _ => .error .notAText

def checkLogLevel (raw : Raw) : Except Problem LogLevel := do
  let text ← checkText raw
  match LogLevel.ofText? text with
  | some level => return level
  | none => throw (.unknownLogLevel text)

/-- Replace a tilde in front, and the name up to the first slash, by the home directory of the user
if it is known. -/
def expandHome (homes : Homes) (path : String) : String :=
  match path.toList with
  | '~' :: rest =>
    match homes.of? (rest.takeWhile (· != '/')) with
    | some home =>
      let expanded :=
        (home.toList.reverse.dropWhile (· == '/')).reverse ++ rest.dropWhile (· != '/')
      if expanded.isEmpty then "/" else String.ofList expanded
    | none => path
  | _ => path

/-- Does a path start with a tilde and a name with a null character? -/
def namesIllegalUser (path : String) : Bool :=
  match path.toList with
  | '~' :: rest => '\x00' ∈ rest.takeWhile (· != '/')
  | _ => false

def checkPath (homes : Homes) (raw : Raw) : Except Problem String := do
  let text ← checkText raw
  let path := Text.stripped text
  if path.isEmpty then throw (.blankPath text)
  if namesIllegalUser path then throw (.illegalUser text)
  return expandHome homes path

/-- A field that is given is checked; another has its default. -/
def checkField {α : Type} (field : Field) (default : α) (check : Raw → Except Problem α) :
    Option Raw → Except Violation α
  | none => .ok default
  | some raw => (check raw).mapError fun problem => ⟨field, problem⟩

/-- Where the history is kept unless another path is given. -/
def defaultHistoryFile (homes : Homes) : String := expandHome homes "~/.fraction_calc_history"

def violation? {α : Type} : Except Violation α → List Violation
  | .ok _ => []
  | .error v => [v]

def check (homes : Homes) (given : Given) : Except (List Violation) Settings :=
  let historyFile :=
    checkField .historyFile (defaultHistoryFile homes) (checkPath homes) given.historyFile
  let logLevel := checkField .logLevel .warning checkLogLevel given.logLevel
  let strict := checkField .strict false checkFlag given.strict
  let showApproximation :=
    checkField .showApproximation false checkFlag given.showApproximation
  let prompt := checkField .prompt "> " checkText given.prompt
  match historyFile, logLevel, strict, showApproximation, prompt with
  | .ok historyFile, .ok logLevel, .ok strict, .ok showApproximation, .ok prompt =>
    .ok { historyFile, logLevel, strict, showApproximation, prompt }
  | historyFile, logLevel, strict, showApproximation, prompt =>
    .error (violation? historyFile ++ violation? logLevel ++ violation? strict ++
      violation? showApproximation ++ violation? prompt)

/-- The settings as values to be checked again. -/
def toGiven (s : Settings) : Given where
  historyFile := some (.text s.historyFile)
  logLevel := some (.text s.logLevel.name)
  strict := some (.truth s.strict)
  showApproximation := some (.truth s.showApproximation)
  prompt := some (.text s.prompt)

def truthText (b : Bool) : String := if b then "True" else "False"

def describe (s : Settings) : String :=
  s!"history_file={Text.quote s.historyFile} log_level={Text.quote s.logLevel.name} " ++
    s!"strict={truthText s.strict} show_approximation={truthText s.showApproximation} " ++
    s!"prompt={Text.quote s.prompt}"

end Settings

end RationalCalculator
