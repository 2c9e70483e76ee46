import RationalCalculator.CommandLine.Argument
import RationalCalculator.Expression.Plausible
import RationalCalculator.Settings.Sources
import RationalCalculator.Text.Quoted

/-!
# Command lines

A command line sets flags and lists expressions. Its arguments are taken in order, up to the
first `--`; what is neither a switch nor the value of one is kept, and so is everything behind
the `--`. In the end nothing may be kept that looks like a switch.

Taking the arguments stops at a request for help and at the first misuse of a switch. An
ambiguous abbreviation is found before any argument is taken.

Releases of the argument parser differ in two points (`Release`): in what becomes of a separator
that is attached to a switch as its value, and in what may follow the short name of `help`.
-/

namespace RationalCalculator

/-- The flags that are set, and the expressions. -/
structure CommandLine where
  flags : Settings.Flags
  expressions : List String
  deriving DecidableEq, Repr

namespace CommandLine

inductive Misuse where
  | ambiguous (text : String) (switches : List Switch)
  | unexpectedValue (s : Switch) (value : String)
  | missingValue (s : Switch)
  | unrecognized (arguments : List String)
  | invalidSettings (report : String)
  deriving DecidableEq, Repr

def Misuse.message : Misuse → String
  | ambiguous text switches =>
    s!"ambiguous option: {text} could match " ++ ", ".intercalate (switches.map Switch.name)
  | unexpectedValue s value =>
    s!"argument {s.label}: ignored explicit argument {Text.quote value}"
  | missingValue s => s!"argument {s.label}: expected one argument"
  | unrecognized arguments => "unrecognized arguments: " ++ " ".intercalate arguments
  | invalidSettings report => report

inductive Stop where
  | help
  | misuse (m : Misuse)
  deriving DecidableEq, Repr

/-- The release of the argument parser. An earlier one removes a separator from the value of a
switch, and takes all that follows a short name for a value if it is not more short names. A later
one hands on each value as it is given, and takes nothing for a value of a short name but what
follows an equals sign or starts with a hyphen. -/
inductive Release where
  | earlier
  | later
  deriving DecidableEq, Repr

/-- The argument that ends the switches. -/
def separator : String := "--"

namespace Release

/-- What is handed on of a value that is attached to a switch. -/
def handedOn : Release → String → String
  | earlier, value => if value = separator then "" else value
  | later, value => value

/-- What the short name of `help` comes to in a later release, with something behind it. -/
def stopLater : List Char → Stop
  | 'h' :: behind => stopLater behind
  | '=' :: value => .misuse (.unexpectedValue .help (String.ofList value))
  | '-' :: value => .misuse (.unexpectedValue .help (String.ofList ('-' :: value)))
  | _ => .help

/-- The same in an earlier release. Nothing but further short names is more requests for help. -/
def stopEarlier (behind : List Char) : Stop :=
  let value := if behind.head? = some '=' then behind.tail else behind
  let rest := value.dropWhile (· == 'h')
  if behind = [] ∨ (value ≠ [] ∧ rest = []) then .help
  else .misuse (.unexpectedValue .help (String.ofList rest))

def stopAtShortHelp (release : Release) (behind : String) : Stop :=
  match release with
  | earlier => stopEarlier behind.toList
  | later => stopLater behind.toList

end Release

variable (release : Release)

/-- Take arguments: the flags after them, and the arguments that are kept. -/
def take (flags : Settings.Flags) : List Argument → Except Stop (Settings.Flags × List String)
  | [] => .ok (flags, [])
  | .expression text :: rest => (take flags rest).map fun (f, kept) => (f, text :: kept)
  | .unknown text :: rest => (take flags rest).map fun (f, kept) => (f, text :: kept)
  | .shortHelp behind :: _ => .error (release.stopAtShortHelp behind)
  | .switch .help none :: _ => .error .help
  | .switch .strict none :: rest => take { flags with strict := true } rest
  | .switch .approx none :: rest => take { flags with showApproximation := true } rest
  | .switch .logLevel (some value) :: rest =>
    take { flags with logLevel := release.handedOn value } rest
  | .switch .logLevel none :: .expression value :: rest =>
    take { flags with logLevel := value } rest
  | .switch .logLevel none :: _ => .error (.misuse (.missingValue .logLevel))
  | .switch s (some value) :: _ => .error (.misuse (.unexpectedValue s value))

def looksLikeSwitch (text : String) : Bool :=
  match text.toList with
  | '-' :: c :: cs => !(' ' ∈ c :: cs) && !isPlainNumber text
  | _ => false

def classify (arguments : List String) : Except Stop (List Argument) :=
  (arguments.mapM Argument.ofText).mapError fun (.ambiguous text switches) =>
    .misuse (.ambiguous text switches)

/-- A command line, from its flags and all that is kept. -/
def ofKept (flags : Settings.Flags) (kept : List String) : Except Stop CommandLine :=
  match kept.filter looksLikeSwitch with
  | [] => .ok ⟨flags, kept⟩
  | unknown => .error (.misuse (.unrecognized unknown))

def read (arguments : List String) : Except Stop CommandLine := do
  let before := arguments.takeWhile (· != separator)
  let behind := arguments.drop (before.length + 1)
  let (flags, kept) ← take release .none (← classify before)
  ofKept flags (kept ++ behind)

def usage : String := "usage: fraction-calc [options] [EXPRESSION | STORE<letter>] ..."

def help : String :=
  "\n".intercalate
    [usage,
      "",
      "Exact fraction calculator with single-letter registers. Expressions and",
      "STORE<letter> commands run in order; with none, an interactive session starts.",
      "",
      "options:",
      "  -h, --help            show this help message and exit",
      "  --strict              Reject tokens left over after a complete expression.",
      "  --approx              Show a decimal approximation next to each result.",
      "  --log-level LOG_LEVEL",
      "                        Logging level (default: WARNING, or",
      "                        FRACTION_CALC_LOG_LEVEL)."]

end CommandLine

end RationalCalculator
