import RationalCalculator.Display
import RationalCalculator.Session.Basic

/-!
# Transcripts

A transcript lists the lines that a run writes, in their order: to its output, to its error
output, and to the log. The log goes to the error output, if it is shown at all. Each entry
names its time, for which a mark stands here, and its source.
-/

namespace RationalCalculator

inductive Line where
  | out (text : String)
  | err (text : String)
  /-- An event in a session, for the log. -/
  | event (e : Session.Event)
  /-- A note of the program itself, for the log. -/
  | note (text : String)
  deriving DecidableEq

/-- The note that a value has no approximation, if one is due. -/
def approximationNotes (approximate : Bool) (v : Fraction) : List Line :=
  match lacksApproximation approximate v, v.text with
  | true, .ok text => [.note s!"No float approximation for {text}"]
  | _, _ => []

structure LogView where
  shown : Bool
  /-- The source of the program's own notes. -/
  source : String
  deriving DecidableEq, Repr

def sessionSource : String := "fraction_calc.calculator"

namespace LogView

/-- An entry of the log. All entries are of one level. -/
def entry (source text : String) : String := s!"<time> - {source} - DEBUG - {text}"

/-- The text of a line that goes to the error output. An event is left out if its value is too
long to be written. -/
def errText? (view : LogView) : Line → Option String
  | .out _ => none
  | .err text => some text
  | .event e =>
    match view.shown, e.message with
    | true, .ok text => some (entry sessionSource text)
    | _, _ => none
  | .note text => if view.shown then some (entry view.source text) else none

end LogView

/-- The text of a line that goes to the output. -/
def Line.outText? : Line → Option String
  | .out text => some text
  | _ => none

def joinLines (texts : List String) : String := String.join (texts.map (· ++ "\n"))

def outputOf (lines : List Line) : String := joinLines (lines.filterMap Line.outText?)

def errorsOf (view : LogView) (lines : List Line) : String :=
  joinLines (lines.filterMap view.errText?)

end RationalCalculator
