import RationalCalculator.Environment.Loader
import RationalCalculator.Environment.Statement
import RationalCalculator.Text.Case

/-!
# Environment files

A file adds to an environment what its statements bind, but changes no variable that is set
(`addsUnset_loader`). In a value, `${NAME}` stands for the text of another variable and
`${NAME:-text}` for that or else the given text. The surrounding environment is asked first, then
the statements above.

A file is ignored altogether if a variable of the environment says so. What a file adds has to be
legal; the first name or text that is not is reported, and nothing comes of the file then.
-/

namespace RationalCalculator.Environment.File

/-- A mention of a variable: its name, and the text for want of it. -/
structure Mention where
  name : List Char
  instead : Option (List Char)

/-- The mention behind a dollar sign, and its length. -/
def mention? : List Char → Option (Mention × Nat)
  | '\x7b' :: cs =>
    let name := cs.takeWhile fun c => c != '\x7d' && c != ':'
    match cs.drop name.length with
    | '\x7d' :: _ => some (⟨name, none⟩, name.length + 2)
    | ':' :: '-' :: rest =>
      let instead := rest.takeWhile (· != '\x7d')
      if instead.length < rest.length then
        some (⟨name, some instead⟩, name.length + instead.length + 4)
      else none
    | _ => none
  | _ => none

/-- Replace the mentions in a value. The first `skip` characters belong to a mention that has been
replaced. -/
def expand (meaning : Mention → List Char) (skip : Nat) : List Char → List Char
  | [] => []
  | c :: cs =>
    match skip with
    | n + 1 => expand meaning n cs
    | 0 =>
      match if c = '$' then mention? cs else none with
      | some (m, length) => meaning m ++ expand meaning length cs
      | none => c :: expand meaning 0 cs

/-- The text a mention stands for: that of the surrounding environment, or else that of the
statements above, where a name without a value stands for nothing. -/
def meaning (env : Environment) (above : List (String × Option String)) (m : Mention) :
    List Char :=
  let name := String.ofList m.name
  match env.get? name, above.lookup name with
  | some text, _ => text.toList
  | none, some text => (text.getD "").toList
  | none, none => m.instead.getD []

/-- Add what a statement assigns to what those above it assign, the last statement first. -/
def assign (env : Environment) (above : List (String × Option String)) (b : Binding) :
    List (String × Option String) :=
  (b.name, b.value.map fun v => String.ofList (expand (meaning env above) 0 v.toList)) :: above

/-- The variable by which an environment has files ignored. -/
def ignoringVariable : String := "PYTHON_DOTENV_DISABLED"

def isIgnored (env : Environment) : Bool :=
  match env.get? ignoringVariable with
  | some text => Text.smalls (Text.capitals text) ∈ ["1", "true", "t", "yes", "y"]
  | none => false

variable (quoting : Statement.Quoting)

def statements (env : Environment) (text : String) : List Statement :=
  if isIgnored env then [] else Statement.ofText quoting text

/-- The lines on which statements start that cannot be read. -/
def unreadableLines (env : Environment) (text : String) : List Nat :=
  (statements quoting env text).filterMap Statement.unreadable?

/-- What the statements assign, in their order. -/
def assignments (env : Environment) (text : String) : List (String × Option String) :=
  (((statements quoting env text).filterMap Statement.binding?).foldl (assign env) []).reverse

def mentionedIn : List Char → List String
  | [] => []
  | c :: cs =>
    match if c = '$' then mention? cs else none with
    | some (m, _) => String.ofList m.name :: mentionedIn cs
    | none => mentionedIn cs

/-- The names for which a file asks the surrounding environment. -/
def names (text : String) : List String :=
  ((Statement.ofText quoting text).filterMap Statement.binding?).flatMap fun b =>
    b.name :: mentionedIn (b.value.getD "").toList

/-- Why variables that are added to an environment are not legal. -/
def illegal? (env said : Environment) : Option Illegal :=
  (said.entries.filter fun e => (env.get? e.1).isNone).findSome? fun e =>
    Environment.illegal? e.1 e.2

/-- The environment together with variables, which do not change what it says. -/
def addVariables (env said : Environment) : Except Illegal Environment :=
  match illegal? env said with
  | some i => .error i
  | none => .ok (env.above said)

theorem addVariables_eq_ok_iff (env said filled : Environment) :
    addVariables env said = .ok filled ↔ illegal? env said = none ∧ env.above said = filled := by
  unfold addVariables
  cases illegal? env said <;> simp

/-- The loader that reads files in this way. -/
def loader : Loader where
  assignments := assignments quoting
  unreadableLines := unreadableLines quoting
  load env text := addVariables env (ofAssignments (assignments quoting env text))

theorem addsUnset_loader : (loader quoting).AddsUnset := by
  intro env text filled h name
  obtain ⟨-, rfl⟩ := (addVariables_eq_ok_iff env _ filled).mp h
  exact get?_above env _ name

end RationalCalculator.Environment.File

namespace RationalCalculator.Environment

/-- An environment together with a file, as the executable reads it. -/
def withFile (env : Environment) (text : String) : Except Illegal Environment :=
  (File.loader .takesAny).load env text

end RationalCalculator.Environment
