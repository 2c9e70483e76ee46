import RationalCalculator.Expression.Plausible
import RationalCalculator.Text.Case
import RationalCalculator.Transcript

/-!
# The interactive console

A console reads one line after the other and answers each on one session. Four words are
commands, in either case: `quit` and `exit` end the console, `help` explains it, and `store`
saves the last result in the register that is named by the second word. Any other line is an
expression. A line that is not accepted is answered on the error output and changes nothing.

A console reads until it is ended or the input is over. Reading can also be interrupted, which
costs nothing but the line. Only a result that is too long to be written stops a console.
-/

namespace RationalCalculator

inductive Command where
  | quit
  | help
  /-- Store the last result, as the words of the line say. -/
  | store (words : List String)
  | evaluate (text : String)
  deriving DecidableEq, Repr

def Command.ofLine (line : String) : Command :=
  let text := Text.stripped line
  let word := Text.smalls text
  if word = "quit" ∨ word = "exit" then quit
  else if word = "help" then help
  else if word = "store" ∨ "store ".toList.isPrefixOf word.toList then store (Text.split text)
  else evaluate text

/-- A session that reads commands, and whether it goes on reading. -/
structure Console where
  session : Session
  running : Bool
  deriving DecidableEq

namespace Console

def helpText : String :=
  "\n".intercalate
    ["Fraction Calculator Help",
      "------------------------",
      "Separate every number and operator with spaces.",
      "",
      "Supported operations:",
      "  - Addition:           1/2 + 1/3",
      "  - Subtraction:        3 - 4/5",
      "  - Multiplication:     2/3 * 6",
      "  - Division:           7 / 8",
      "  - Registers:          a * 2     (single letters, set with 'store')",
      "",
      "Precedence: * and / bind tighter than + and -, all left-associative.",
      "Parentheses are not supported.",
      "",
      "Commands:",
      "  store X   : Save the last result in register X",
      "  help      : Show this help message",
      "  quit/exit : Exit the calculator",
      "",
      "Examples:",
      "  > 1/2 + 1/3",
      "  Result: 5/6",
      "  > store a",
      "  Value a stored.",
      "  > a * 6",
      "  Result: 5"]

def banner : List Line :=
  [.out "Interactive Fraction Calculator",
    .out "Enter expressions or commands (e.g., 'store A', 'help', 'quit'):"]

def farewell : String := "Calculator terminated."

inductive Response where
  | accepted (text : String)
  | refused (text : String)
  deriving DecidableEq, Repr

def Response.isAccepted : Response → Bool
  | accepted _ => true
  | refused _ => false

def Response.text : Response → String
  | accepted text | refused text => text

def Response.line : Response → Line
  | accepted text => .out text
  | refused text => .err text

def refusal (fault : Fault) : Response := .refused s!"Error: {fault.message}"

/-- The response to a line, the console after it, and the entries of the log. -/
structure Answer where
  result : Except Numeral.Overlong Response
  console : Console
  log : List Line

/-- Store the last result. There must be two words, and the second a single character. -/
def store (c : Console) (words : List String) : Answer :=
  match words with
  | [_, selector] =>
    if selector.length = 1 then
      let r := c.session.store selector
      match r.result with
      | .ok () =>
        ⟨.ok (.accepted s!"Value {selector} stored."), { c with session := r.session },
          r.events.map .event⟩
      | .error fault =>
        ⟨.ok (refusal fault), { c with session := r.session }, r.events.map .event⟩
    else ⟨.ok (.refused "Error: Invalid store command format"), c, []⟩
  | _ => ⟨.ok (.refused "Error: Invalid store command format"), c, []⟩

/-- Evaluate a text that is plausible. -/
def evaluate (c : Console) (approximate : Bool) (text : String) : Answer :=
  if isPlausible text then
    let r := c.session.evaluate text
    let c := { c with session := r.session }
    let events := r.events.map Line.event
    match r.result with
    | .error fault => ⟨.ok (refusal fault), c, events⟩
    | .ok v =>
      match display approximate v with
      | .error e => ⟨.error e, c, events⟩
      | .ok shown =>
        ⟨.ok (.accepted s!"Result: {shown}"), c,
          events ++ approximationNotes approximate v⟩
  else ⟨.ok (.refused "Error: Invalid expression format"), c, []⟩

def answer (c : Console) (approximate : Bool) (line : String) : Answer :=
  match Command.ofLine line with
  | .quit => ⟨.ok (.accepted farewell), { c with running := false }, []⟩
  | .help => ⟨.ok (.accepted helpText), c, []⟩
  | .store words => c.store words
  | .evaluate text => c.evaluate approximate text

/-- Answer lines, one after the other, whether or not the console has been ended. -/
def answers (c : Console) (approximate : Bool) : List String → List Answer
  | [] => []
  | line :: rest =>
    let a := c.answer approximate line
    a :: a.console.answers approximate rest

theorem console_store_of_refused {c : Console} {words : List String} {text : String}
    (h : (c.store words).result = .ok (.refused text)) : (c.store words).console = c := by
  unfold store at h ⊢
  split at h
  next selector =>
    by_cases hl : selector.length = 1
    · simp only [hl, if_true] at h ⊢
      cases hr : (c.session.store selector).result with
      | ok u => simp [hr] at h
      | error fault => simp [Session.session_of_fault_store hr]
    · simp only [hl, if_false]
  next => rfl

theorem console_evaluate_of_refused {c : Console} {approximate : Bool} {line text : String}
    (h : (c.evaluate approximate line).result = .ok (.refused text)) :
    (c.evaluate approximate line).console = c := by
  unfold evaluate at h ⊢
  by_cases hp : isPlausible line = true
  · simp only [hp, if_true] at h ⊢
    cases hr : (c.session.evaluate line).result with
    | ok v => cases hd : display approximate v <;> simp [hr, hd] at h
    | error fault => simp [Session.session_of_fault_evaluate hr]
  · simp only [hp]
    rfl

/-- A line that is refused changes nothing. -/
theorem console_answer_of_refused {c : Console} {approximate : Bool} {line text : String}
    (h : (c.answer approximate line).result = .ok (.refused text)) :
    (c.answer approximate line).console = c := by
  unfold answer at h ⊢
  split at h
  · simp at h
  · rfl
  · exact console_store_of_refused h
  · exact console_evaluate_of_refused h

structure Turn where
  result : Except Numeral.Overlong Unit
  console : Console
  lines : List Line

/-- Take in what was read: a line, or nothing if the reading was interrupted. A blank line is passed
over. -/
def take (c : Console) (approximate : Bool) : Option String → Turn
  | none => ⟨.ok (), c, [.out "^C"]⟩
  | some line =>
    if (Text.strip line.toList).isEmpty then ⟨.ok (), c, []⟩
    else
      let a := c.answer approximate line
      match a.result with
      | .ok response => ⟨.ok (), a.console, a.log ++ [response.line]⟩
      | .error e => ⟨.error e, a.console, a.log⟩

/-- What a run leads to: how it ended, the console after it, the lines written, how often it has
read, and how much it has left unread. -/
structure Run where
  result : Except Numeral.Overlong Unit
  console : Console
  lines : List Line
  reads : Nat
  unread : Nat

/-- Read until the console is ended or the input is over. -/
def loop (c : Console) (approximate : Bool) : List (Option String) → Run
  | [] => if c.running then ⟨.ok (), c, [.out farewell], 1, 0⟩ else ⟨.ok (), c, [], 0, 0⟩
  | input :: rest =>
    if c.running then
      let t := c.take approximate input
      match t.result with
      | .error e => ⟨.error e, t.console, t.lines, 1, rest.length⟩
      | .ok () =>
        let r := t.console.loop approximate rest
        { r with lines := t.lines ++ r.lines, reads := r.reads + 1 }
    else ⟨.ok (), c, [], 0, rest.length + 1⟩

def run (c : Console) (approximate : Bool) (inputs : List (Option String)) : Run :=
  let r := c.loop approximate inputs
  { r with lines := banner ++ r.lines }

end Console

end RationalCalculator
