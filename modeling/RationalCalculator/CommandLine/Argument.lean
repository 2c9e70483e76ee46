import RationalCalculator.Text.DecimalDigit

/-!
# Arguments of a command line

An argument is an expression, a switch, or neither. A switch may be abbreviated as long as it is
told from all others, and may carry a value behind an equals sign. One switch has a short name of a
single letter, which anything may follow at once. What starts with a hyphen and is no switch is
still an expression if it is a negative number or has a space in it.
-/

namespace RationalCalculator.CommandLine

inductive Switch where
  | help
  | strict
  | approx
  | logLevel
  deriving DecidableEq, Repr

namespace Switch

/-- All switches, in the order in which they are listed. -/
def all : List Switch := [help, strict, approx, logLevel]

def name : Switch → String
  | help => "--help"
  | strict => "--strict"
  | approx => "--approx"
  | logLevel => "--log-level"

/-- The short name of `help`; no other switch has one. -/
def shortHelp : String := "-h"

def label : Switch → String
  | help => s!"{shortHelp}/{name help}"
  | s => s.name

def ofName? (name : String) : Option Switch := all.find? (·.name = name)

def abbreviatedBy (text : List Char) : List Switch :=
  all.filter fun s => text.isPrefixOf s.name.toList

theorem ofName?_name (s : Switch) : ofName? s.name = some s := by
  cases s <;> decide

end Switch

inductive Argument where
  | expression (text : String)
  | switch (s : Switch) (value : Option String)
  /-- The short name of `help`, with what stands behind it. -/
  | shortHelp (behind : String)
  /-- An argument in the place of a switch, of no known name. -/
  | unknown (text : String)
  deriving DecidableEq, Repr

namespace Argument

inductive Ambiguity where
  | ambiguous (text : String) (switches : List Switch)
  deriving DecidableEq, Repr

/-- What stands before the first equals sign, and what behind it. -/
def splitValue (cs : List Char) : List Char × Option String :=
  let name := cs.takeWhile (· != '=')
  match cs.drop name.length with
  | [] => (name, none)
  | _ :: value => (name, some (String.ofList value))

/-- Digits of any script, after a hyphen and perhaps with a point among them or before them. A
line feed at the end does no harm. -/
def isNegativeNumber (cs : List Char) : Bool :=
  let body := match cs.reverse with
    | '\n' :: rest => rest.reverse.drop 1
    | _ => cs.drop 1
  let whole := body.takeWhile Text.isDecimalDigit
  match body.drop whole.length with
  | [] => !whole.isEmpty
  | c :: part => c == '.' && !part.isEmpty && part.all Text.isDecimalDigit

/-- An argument that starts with a hyphen and is no switch. -/
def unnamed (text : String) : Argument :=
  if isNegativeNumber text.toList || ' ' ∈ text.toList then .expression text else .unknown text

/-- An argument that starts with a single hyphen and is not the name of a switch. -/
def ofShort (text : String) : Argument :=
  match text.toList with
  | '-' :: 'h' :: behind => .shortHelp (String.ofList behind)
  | _ => unnamed text

/-- An argument that starts with two hyphens and is not the name of a switch. -/
def ofLong (text : String) : Except Ambiguity Argument :=
  let (name, value) := splitValue text.toList
  match Switch.abbreviatedBy name with
  | [] => .ok (unnamed text)
  | [s] => .ok (.switch s value)
  | s => .error (.ambiguous text s)

def ofName? (name : String) (value : Option String) : Option Argument :=
  if name = Switch.shortHelp then some (.shortHelp (value.elim "" ("=" ++ ·)))
  else (Switch.ofName? name).map (.switch · value)

def named? (text : String) : Option Argument :=
  match ofName? text none, splitValue text.toList with
  | some a, _ => some a
  | none, (name, some value) => ofName? (String.ofList name) (some value)
  | none, (_, none) => none

def ofText (text : String) : Except Ambiguity Argument :=
  match named? text, text.toList with
  | some a, _ => .ok a
  | none, '-' :: '-' :: _ => ofLong text
  | none, '-' :: _ :: _ => .ok (ofShort text)
  | none, _ => .ok (.expression text)

end Argument

end RationalCalculator.CommandLine
