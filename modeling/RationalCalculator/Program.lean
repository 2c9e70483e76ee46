import RationalCalculator.Batch
import RationalCalculator.CommandLine.Basic
import RationalCalculator.Console
import RationalCalculator.Environment.File
import RationalCalculator.Settings.Report

/-!
# The calculator as a program

A run of the program reads its command line, makes its settings from the environment, an
environment file and the flags, and then either works through the expressions as a batch or, if
there are none, opens a console. The command line is read before the environment is looked at, so
a misuse of it is reported first; a misuse ends the program with status 2, and help with status 0.
What cannot be read in the environment file is reported and passed over.

How command lines are taken apart, how environment files are loaded and where users have their home
directories is not up to the program but to its host.
-/

namespace RationalCalculator

/-- What the program uses and does not bring with it. -/
structure Host where
  /-- The release of its argument parser. -/
  release : CommandLine.Release
  /-- What loads the environment file. -/
  loader : Environment.Loader
  /-- The home directories that are known without an environment. -/
  accounts : Homes

/-- A host with an earlier release, on which no users are known. -/
def Host.earlier : Host := ⟨.earlier, Environment.File.loader .takesAny, (none : Option String)⟩

/-- A host with a later release and other rules for quotes, on which no users are known. -/
def Host.later : Host := ⟨.later, Environment.File.loader .takesQuote, (none : Option String)⟩

namespace Program

/-- How the program is started: by a caller that goes on afterwards, as the main program of its
package, or as a script of its own. -/
inductive Launch where
  | called
  | package
  | script
  deriving DecidableEq, Repr

/-- Does the program end the process itself, rather than hand its status to a caller? -/
def Launch.endsProcess : Launch → Bool
  | called => false
  | package | script => true

def Launch.source : Launch → String
  | called | package => "fraction_calc.cli"
  | script => "__main__"

structure Plan where
  settings : Settings
  expressions : List String
  deriving DecidableEq, Repr

inductive Refusal where
  | help
  | misuse (m : CommandLine.Misuse)
  | illegalVariable (i : Environment.Illegal)
  | settings (violations : List Settings.Violation)
  deriving DecidableEq, Repr

/-- The settings under flags, for which the command line is to blame. -/
def overridden (homes : Homes) (s : Settings) (flags : Settings.Flags) :
    Except Refusal Settings :=
  (Settings.override homes s flags).mapError fun violations =>
    .misuse (.invalidSettings (Settings.report violations))

variable (host : Host)

/-- The settings of a run with these flags. -/
def settings (env : Environment) (file : String) (flags : Settings.Flags) :
    Except Refusal Settings := do
  let env ← (host.loader.load env file).mapError .illegalVariable
  let homes := env.homes host.accounts
  let s ← (Settings.ofEnvironment homes env).mapError .settings
  overridden homes s flags

/-- The lines on what cannot be read in an environment file. -/
def fileLines (env : Environment) (file : String) : List Line :=
  (host.loader.unreadableLines env file).map fun line =>
    .err s!"python-dotenv could not parse statement starting at line {line}"

/-- What comes before the work: the lines written until then, and the plan. -/
structure Preparation where
  lines : List Line
  plan : Except Refusal Plan

def prepare (arguments : List String) (env : Environment) (file : String) : Preparation :=
  match CommandLine.read host.release arguments with
  | .error .help => ⟨[], .error .help⟩
  | .error (.misuse m) => ⟨[], .error (.misuse m)⟩
  | .ok line =>
    ⟨fileLines host env file,
      (settings host env file line.flags).map fun s => ⟨s, line.expressions⟩⟩

inductive Ending where
  /-- The work is done, and the status is handed to the caller if there is one. -/
  | done (status : Nat)
  /-- The run is cut short, with no return to a caller. -/
  | cutShort (status : Nat)
  | illegalVariable (i : Environment.Illegal)
  | refusedSettings (violations : List Settings.Violation)
  | overlong
  deriving DecidableEq, Repr

/-- The ending and the lines of a run that comes to nothing. -/
def refuse : Refusal → Ending × List Line
  | .help => (.cutShort 0, [.out CommandLine.help])
  | .misuse m =>
    (.cutShort 2, [.err CommandLine.usage, .err s!"fraction-calc: error: {m.message}"])
  | .illegalVariable i => (.illegalVariable i, [])
  | .settings violations => (.refusedSettings violations, [])

/-- How the log is shown under settings. -/
def logView (launch : Launch) (s : Settings) : LogView := ⟨s.logLevel.showsEntries, launch.source⟩

def openingNote (s : Settings) : Line := .note s!"Settings: {s.describe}"

/-- What a run leads to. If a console was opened, the run of the console and the settings it was
opened with are part of it. -/
structure Result where
  ending : Ending
  output : String
  errors : String
  console : Option (Settings × Console.Run)

/-- Carry out a plan, after the lines that have been written before. -/
def Plan.execute (launch : Launch) (before : List Line) (p : Plan)
    (inputs : List (Option String)) : Result :=
  let view := logView launch p.settings
  let session := Session.start p.settings.strict
  let approximate := p.settings.showApproximation
  if p.expressions.isEmpty then
    let r := (Console.mk session true).run approximate inputs
    let lines := before ++ openingNote p.settings :: r.lines
    let ending := match r.result with
      | .ok () => .done 0
      | .error _ => .overlong
    ⟨ending, outputOf lines, errorsOf view lines, some (p.settings, r)⟩
  else
    let r := Batch.run approximate session p.expressions
    let lines := before ++ openingNote p.settings :: r.lines
    let ending := match r.result with
      | .ok succeeded => .done (Batch.status succeeded)
      | .error _ => .overlong
    ⟨ending, outputOf lines, errorsOf view lines, none⟩

/-- How the log is shown as long as there are no settings. -/
def silentView (launch : Launch) : LogView := ⟨false, launch.source⟩

def runOn (launch : Launch) (arguments : List String) (env : Environment) (file : String)
    (inputs : List (Option String)) : Result :=
  let prepared := prepare host arguments env file
  match prepared.plan with
  | .ok p => p.execute launch prepared.lines inputs
  | .error refusal =>
    let (ending, lines) := refuse refusal
    let lines := prepared.lines ++ lines
    ⟨ending, outputOf lines, errorsOf (silentView launch) lines, none⟩

/-- A run on the host of the executable. -/
def run : Launch → List String → Environment → String → List (Option String) → Result :=
  runOn .earlier

end Program

end RationalCalculator
