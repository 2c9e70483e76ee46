import RationalCalculator.Environment.Basic

/-!
# Loaders of environment files

A loader reads an environment file and adds what it reads to the environment of the process. The
statements of a file assign texts to names; a name may also be left without one. Of several
assignments to a name the last one counts, in the place of the first (`ofAssignments`).

What the program relies on is `Loader.AddsUnset`: loading adds the variables of the file, and
changes none that is set.
-/

namespace RationalCalculator.Environment

/-- The variables that assignments make, in the order in which they came first. -/
def ofAssignments (assignments : List (String × Option String)) : Environment :=
  ⟨(assignments.map (·.1)).eraseDups.filterMap fun name =>
    (assignments.reverse.lookup name).join.map (name, ·)⟩

structure Loader where
  /-- What the statements of a file assign in an environment, in their order. -/
  assignments : Environment → String → List (String × Option String)
  /-- The lines on which statements start that cannot be read. -/
  unreadableLines : Environment → String → List Nat
  /-- The environment once the file is loaded. -/
  load : Environment → String → Except Illegal Environment

namespace Loader

/-- The variables of a file. -/
def said (loader : Loader) (env : Environment) (file : String) : Environment :=
  ofAssignments (loader.assignments env file)

/-- A variable of the file is added unless it is set already, and nothing else changes. -/
def AddsUnset (loader : Loader) : Prop :=
  ∀ (env : Environment) (file : String) (filled : Environment),
    loader.load env file = .ok filled →
    ∀ name, filled.get? name = (env.get? name).or ((loader.said env file).get? name)

end Loader

end RationalCalculator.Environment
