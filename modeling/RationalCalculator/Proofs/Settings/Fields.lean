import Mathlib
import RationalCalculator.Settings.Sources

/-!
# The fields of checked settings

Settings that come out of a check are a statement about each field by itself: the field is what
the check makes of the value given for it, or the default if there is none (`check_eq_ok_iff`).
Where the values come from, an environment or settings under flags, can be asked for each field as
well. Settings that are checked once more keep all their fields but the path, which may start with
a tilde a second time (`has_of_again`).
-/

namespace RationalCalculator.Settings

variable {homes : Homes} {given : Given} {s t : Settings} {field : Field}

def Given.get (given : Given) : Field → Option Raw
  | .historyFile => given.historyFile
  | .logLevel => given.logLevel
  | .strict => given.strict
  | .showApproximation => given.showApproximation
  | .prompt => given.prompt

/-- A path as the check makes it of a value, or of none. -/
def historyFileOf (homes : Homes) (raw? : Option Raw) : Except Violation String :=
  checkField .historyFile (defaultHistoryFile homes) (checkPath homes) raw?

/-- One field of the settings is what the check makes of a value, or of none. -/
def Has (s : Settings) (homes : Homes) : Field → Option Raw → Prop
  | .historyFile, raw? => historyFileOf homes raw? = .ok s.historyFile
  | .logLevel, raw? => checkField .logLevel .warning checkLogLevel raw? = .ok s.logLevel
  | .strict, raw? => checkField .strict false checkFlag raw? = .ok s.strict
  | .showApproximation, raw? =>
    checkField .showApproximation false checkFlag raw? = .ok s.showApproximation
  | .prompt, raw? => checkField .prompt "> " checkText raw? = .ok s.prompt

/-- No field has a say in what becomes of another. -/
theorem check_eq_ok_iff :
    check homes given = .ok s ↔ ∀ field, s.Has homes field (given.get field) := by
  constructor
  · intro h field
    simp only [check] at h
    split at h
    next hpath hlevel hstrict happrox hprompt =>
      obtain rfl := Except.ok.inj h
      cases field <;> assumption
    next => contradiction
  · intro h
    have hpath := h .historyFile
    have hlevel := h .logLevel
    have hstrict := h .strict
    have happrox := h .showApproximation
    have hprompt := h .prompt
    simp only [Has, historyFileOf, Given.get] at hpath hlevel hstrict happrox hprompt
    simp only [check, hpath, hlevel, hstrict, happrox, hprompt]

theorem get_ofEnvironment (env : Environment) (field : Field) :
    (Given.ofEnvironment env).get field = (field.textIn env).map .text := by
  cases field <;> rfl

/-- The value that a flag gives to a field, if there is one. -/
def Flags.raw? (flags : Flags) : Field → Option Raw
  | .historyFile | .prompt => .none
  | .logLevel => if flags.logLevel.isEmpty then .none else some (.text flags.logLevel)
  | .strict => if flags.strict then some (.truth true) else .none
  | .showApproximation => if flags.showApproximation then some (.truth true) else .none

@[simp] theorem Flags.raw?_none (field : Field) : Flags.none.raw? field = .none := by
  cases field <;> rfl

theorem get_applyTo (flags : Flags) (given : Given) (field : Field) :
    (flags.applyTo given).get field = (flags.raw? field).or (given.get field) := by
  cases field <;> simp only [Flags.applyTo, Given.get, Flags.raw?, Option.none_or] <;>
    split <;> rfl

/-- The name of a level is a name for it. -/
theorem checkLogLevel_name (l : LogLevel) : checkLogLevel (.text l.name) = .ok l := by
  cases l <;> decide +kernel

/-- A second check leaves what the first has made as it is, except for a path. -/
theorem has_of_again {raw? : Option Raw} (hfield : field ≠ .historyFile)
    (hs : s.Has homes field raw?) (ht : t.Has homes field (s.toGiven.get field)) :
    t.Has homes field raw? := by
  cases field with
  | historyFile => contradiction
  | logLevel =>
    simp only [Has, toGiven, Given.get, checkField, checkLogLevel_name] at ht
    obtain heq : s.logLevel = t.logLevel := Except.ok.inj ht
    rwa [Has, ← heq]
  | strict =>
    obtain heq : s.strict = t.strict := Except.ok.inj ht
    rwa [Has, ← heq]
  | showApproximation =>
    obtain heq : s.showApproximation = t.showApproximation := Except.ok.inj ht
    rwa [Has, ← heq]
  | prompt =>
    obtain heq : s.prompt = t.prompt := Except.ok.inj ht
    rwa [Has, ← heq]

end RationalCalculator.Settings
