import RationalCalculator.Program
import RationalCalculator.Proofs.CommandLine.Given
import RationalCalculator.Proofs.Settings.Precedence
import RationalCalculator.Proofs.Text.Strip

/-!
# Settings that are checked again

Flags have checked settings checked once more, with the values of the flags in their places. Of the
other fields only the path could be affected by that. A path is settled if a check leaves it as it
is (`IsSettled`); what a check makes of a path is settled as long as the own home directory is an
absolute path without a blank at its end, and no other is known (`PlainHomes`).
-/

namespace RationalCalculator

open CommandLine (Names LevelGiven front)

theorem LogLevel.ofName?_eq_some_iff (name : String) (l : LogLevel) :
    ofName? name = some l ↔ name = l.name := by
  constructor
  · intro h
    unfold ofName? at h
    split at h <;> cases h <;> rfl
  · rintro rfl
    exact ofName?_name l

theorem mapError_eq_ok_iff {ε ε' α : Type} {f : ε → ε'} {result : Except ε α} {a : α} :
    result.mapError f = .ok a ↔ result = .ok a := by
  cases result <;> simp [Except.mapError]

namespace Settings

/-- An absolute path that does not end with a blank when the slashes at its end are removed. -/
structure IsPlainHome (home : String) : Prop where
  absolute : home.toList.head? = some '/'
  unblank : ∀ c ∈ (home.toList.rdropWhile (· == '/')).getLast?, Text.isBlank c = false

/-- The own home directory is known and an ordinary one, and no other user is known. -/
structure PlainHomes (homes : Homes) : Prop where
  own : ∃ home, homes.own = some home ∧ IsPlainHome home
  others : ∀ name, homes.ofOther name = none

/-- A check leaves the path as it is. -/
def IsSettled (homes : Homes) (path : String) : Prop := checkPath homes (.text path) = .ok path

/-- A tilde stands for the own home directory: it is in front, alone or before a slash. -/
def StartsAtHome (path : String) (rest : List Char) : Prop :=
  path.toList = '~' :: rest ∧ rest.takeWhile (· != '/') = []

variable {homes : Homes} {home path text : String} {rest : List Char} {raw? : Option Raw}
  {s t : Settings} {flags : Flags}

theorem checkPath_text_eq_ok_iff :
    checkPath homes (.text text) = .ok path ↔
      Text.stripped text ≠ "" ∧ namesIllegalUser (Text.stripped text) = false ∧
        expandHome homes (Text.stripped text) = path := by
  simp only [checkPath, checkText, bind, Except.bind]
  by_cases hempty : Text.stripped text = ""
  · simp [hempty, throw, throwThe, MonadExceptOf.throw]
  · cases hillegal : namesIllegalUser (Text.stripped text) <;>
      simp [hempty, throw, throwThe, MonadExceptOf.throw, pure, Except.pure]

theorem expandHome_of_startsAtHome (hown : homes.own = some home) (h : StartsAtHome path rest) :
    (expandHome homes path).toList =
      if home.toList.rdropWhile (· == '/') ++ rest = [] then ['/']
      else home.toList.rdropWhile (· == '/') ++ rest := by
  have hrest : rest.dropWhile (· != '/') = rest := by
    have hdivide := List.takeWhile_append_dropWhile (p := (· != '/')) (l := rest)
    rwa [h.2, List.nil_append] at hdivide
  rw [expandHome, h.1]
  simp only [h.2, Homes.of?, if_true, hown, hrest, List.isEmpty_iff]
  rw [List.rdropWhile]
  split
  · rfl
  · exact String.toList_ofList

/-- A path is left alone if it does not start at the own home directory and no other is known. -/
theorem expandHome_eq_self (hothers : ∀ name, homes.ofOther name = none)
    (h : ∀ rest, ¬ StartsAtHome path rest) : expandHome homes path = path := by
  unfold expandHome
  split
  next rest hpath =>
    have hname : rest.takeWhile (· != '/') ≠ [] := not_and.mp (h rest) hpath
    simp only [Homes.of?, if_neg hname, hothers]
  next => rfl

theorem isSettled_of_stripped (hstripped : Text.stripped path = path) (hne : path ≠ "")
    (hlegal : namesIllegalUser path = false) (hexpand : expandHome homes path = path) :
    IsSettled homes path := by
  rw [IsSettled, checkPath_text_eq_ok_iff, hstripped]
  exact ⟨hne, hlegal, hexpand⟩

theorem isSettled_of_absolute (hfirst : path.toList.head? = some '/')
    (hlast : ∀ c ∈ path.toList.getLast?, Text.isBlank c = false) : IsSettled homes path := by
  obtain ⟨cs, hcs⟩ := List.head?_eq_some_iff.mp hfirst
  have hblank : ∀ c ∈ path.toList.head?, Text.isBlank c = false := by
    rw [hfirst]
    rintro c ⟨rfl⟩
    decide
  refine isSettled_of_stripped ?_ ?_ ?_ ?_
  · rw [Text.stripped, Text.strip_eq_self hblank hlast, String.ofList_toList]
  · rintro rfl
    contradiction
  · rw [namesIllegalUser, hcs]
    rfl
  · rw [expandHome, hcs]
    rfl

/-- What stands for the home directory and what follows it make an absolute path. -/
theorem isSettled_expandHome (hhomes : PlainHomes homes) (h : StartsAtHome path rest)
    (hlast : ∀ c ∈ path.toList.getLast?, Text.isBlank c = false) :
    IsSettled homes (expandHome homes path) := by
  obtain ⟨home, hown, hhome⟩ := hhomes.own
  have hexpand := expandHome_of_startsAtHome hown h
  split at hexpand
  next =>
    refine isSettled_of_absolute ?_ ?_ <;> rw [hexpand]
    · rfl
    · rintro c ⟨rfl⟩
      decide
  next hne =>
    refine isSettled_of_absolute ?_ ?_ <;> rw [hexpand]
    · cases hfront : home.toList.rdropWhile (· == '/') with
      | nil =>
        rw [hfront, List.nil_append] at hne
        obtain ⟨c, cs, rfl⟩ := List.exists_cons_of_ne_nil hne
        have hc : c = '/' := by simpa [List.takeWhile_cons] using h.2
        rw [hc]
        rfl
      | cons c cs =>
        obtain ⟨slashes, hslashes⟩ : c :: cs <+: home.toList :=
          hfront ▸ List.rdropWhile_prefix _ _
        rw [← hhome.absolute, ← hslashes]
        rfl
    · intro c hc
      rw [List.getLast?_append] at hc
      cases hrest : rest.getLast? with
      | none =>
        rw [hrest, Option.none_or] at hc
        exact hhome.unblank c hc
      | some d =>
        rw [hrest, Option.some_or] at hc
        refine hlast c ?_
        rw [h.1]
        exact List.mem_getLast?_cons (hrest.trans hc)

/-- What a check makes of a path is not touched by a second check. -/
theorem isSettled_of_checkPath {raw : Raw} (hhomes : PlainHomes homes)
    (h : checkPath homes raw = .ok path) : IsSettled homes path := by
  cases raw with
  | text text =>
    obtain ⟨hne, hlegal, rfl⟩ := checkPath_text_eq_ok_iff.mp h
    by_cases hstart : ∃ rest, StartsAtHome (Text.stripped text) rest
    · obtain ⟨rest, hrest⟩ := hstart
      refine isSettled_expandHome hhomes hrest fun c hc => ?_
      rw [Text.stripped, String.toList_ofList] at hc
      exact Text.not_isBlank_getLast_strip hc
    · have hexpand := expandHome_eq_self hhomes.others (not_exists.mp hstart)
      rw [hexpand]
      exact isSettled_of_stripped (Text.stripped_stripped text) hne hlegal hexpand
  | truth b => contradiction
  | number n => contradiction
  | other => contradiction

/-- Nor is the default. -/
theorem isSettled_historyFileOf (hhomes : PlainHomes homes)
    (h : historyFileOf homes raw? = .ok path) : IsSettled homes path := by
  cases raw? with
  | none =>
    obtain rfl : defaultHistoryFile homes = path := Except.ok.inj h
    have hstart : StartsAtHome "~/.fraction_calc_history" "/.fraction_calc_history".toList :=
      ⟨by decide, by decide⟩
    have hlast : "~/.fraction_calc_history".toList.getLast? = some 'y' := by decide
    refine isSettled_expandHome hhomes hstart ?_
    rw [hlast]
    rintro c ⟨rfl⟩
    decide
  | some raw => exact isSettled_of_checkPath hhomes (eq_ok_of_mapError h)

theorem Field.forall_iff {p : Field → Prop} :
    (∀ field, p field) ↔
      p .historyFile ∧ p .logLevel ∧ p .strict ∧ p .showApproximation ∧ p .prompt := by
  constructor
  · intro h
    exact ⟨h _, h _, h _, h _, h _⟩
  · rintro ⟨hpath, hlevel, hstrict, happrox, hprompt⟩ field
    cases field <;> assumption

theorem checkLogLevel_text_eq_ok_iff {l : LogLevel} :
    checkLogLevel (.text text) = .ok l ↔ LogLevel.ofText? text = some l := by
  rw [checkLogLevel, checkText]
  simp only [bind, Except.bind]
  cases LogLevel.ofText? text <;> simp [pure, Except.pure, throw, throwThe, MonadExceptOf.throw]

/-- The level under flags, unless the flags give something that is none. -/
def levelUnder (flags : Flags) (s : Settings) : Option LogLevel :=
  if flags.logLevel = "" then some s.logLevel else LogLevel.ofText? flags.logLevel

/-- A second check under flags has a say in the path and in the level that a flag gives, and in
nothing else. -/
theorem check_again_eq_ok_iff :
    check homes (flags.applyTo s.toGiven) = .ok t ↔
      checkPath homes (.text s.historyFile) = .ok t.historyFile ∧
      levelUnder flags s = some t.logLevel ∧ (flags.strict || s.strict) = t.strict ∧
      (flags.showApproximation || s.showApproximation) = t.showApproximation ∧
      s.prompt = t.prompt := by
  rw [check_eq_ok_iff, Field.forall_iff]
  refine and_congr ?_ (and_congr ?_ (and_congr ?_ (and_congr ?_ ?_)))
  · exact mapError_eq_ok_iff
  · simp only [Has, get_applyTo, Flags.raw?, levelUnder, String.isEmpty_iff]
    split
    next =>
      rw [Option.none_or, toGiven, Given.get, checkField, checkLogLevel_name]
      simp [Except.mapError]
    next =>
      rw [Option.some_or, checkField, mapError_eq_ok_iff, checkLogLevel_text_eq_ok_iff]
  · simp only [Has, get_applyTo, Flags.raw?]
    cases flags.strict <;> simp [toGiven, Given.get, checkField, checkFlag, Except.mapError]
  · simp only [Has, get_applyTo, Flags.raw?]
    cases flags.showApproximation <;>
      simp [toGiven, Given.get, checkField, checkFlag, Except.mapError]
  · simp only [Has, get_applyTo, Flags.raw?, Option.none_or]
    simp [toGiven, Given.get, checkField, checkText, Except.mapError]

/-- The settings with a level and the flags that are set. -/
def under (s : Settings) (flags : Flags) (level : LogLevel) : Settings :=
  { s with
    logLevel := level
    strict := flags.strict || s.strict
    showApproximation := flags.showApproximation || s.showApproximation }

theorem override_of_isSettled {l : LogLevel} (hpath : IsSettled homes s.historyFile)
    (hlevel : levelUnder flags s = some l) : override homes s flags = .ok (s.under flags l) := by
  unfold override
  split
  next hnone =>
    subst hnone
    obtain rfl : s.logLevel = l := Option.some.inj hlevel
    rfl
  next => exact check_again_eq_ok_iff.mpr ⟨hpath, hlevel, rfl, rfl, rfl⟩

/-- The path of settings from an environment is settled. -/
theorem isSettled_of_ofEnvironment {env : Environment} (hhomes : PlainHomes homes)
    (h : ofEnvironment homes env = .ok s) : IsSettled homes s.historyFile :=
  isSettled_historyFileOf hhomes (check_eq_ok_iff.mp h .historyFile)

theorem check_toGiven (hpath : IsSettled homes s.historyFile) : check homes s.toGiven = .ok s := by
  have hagain : check homes (Flags.none.applyTo s.toGiven) = .ok s :=
    check_again_eq_ok_iff.mpr ⟨hpath, rfl, rfl, rfl, rfl⟩
  exact hagain

/-- The settings `t` are `s` but for what the arguments set. -/
structure Overridden (s t : Settings) (release : CommandLine.Release) (before : List String) :
    Prop where
  historyFile : t.historyFile = s.historyFile
  prompt : t.prompt = s.prompt
  strict : t.strict = true ↔ s.strict = true ∨ Names .strict before
  showApproximation :
    t.showApproximation = true ↔ s.showApproximation = true ∨ Names .approx before
  logLevel : ∃ level, LevelGiven release before level ∧ (level = "" → t.logLevel = s.logLevel) ∧
    (level ≠ "" → t.logLevel.name = Text.capitals (Text.stripped level))

theorem overridden_of_sets {release : CommandLine.Release} {before : List String} {l : LogLevel}
    (hsets : CommandLine.Sets release before .none flags) (hlevel : levelUnder flags s = some l) :
    s.Overridden (s.under flags l) release before where
  historyFile := rfl
  prompt := rfl
  strict := by simp [under, hsets.strict, Flags.none, or_comm]
  showApproximation := by simp [under, hsets.showApproximation, Flags.none, or_comm]
  logLevel := by
    refine ⟨flags.logLevel, hsets.logLevel, fun hempty => ?_, fun hne => ?_⟩
    · rw [levelUnder, if_pos hempty] at hlevel
      exact (Option.some.inj hlevel).symm
    · rw [levelUnder, if_neg hne, LogLevel.ofText?, LogLevel.ofName?_eq_some_iff] at hlevel
      exact hlevel.symm

end Settings

namespace Program

variable {host : Host} {arguments : List String} {env filled : Environment} {file : String}
  {s : Settings} {line : CommandLine}

/-- What is left for the flags of a command line to decide. -/
theorem plan_of_read (hread : CommandLine.read host.release arguments = .ok line)
    (hfilled : host.loader.load env file = .ok filled)
    (hs : Settings.ofEnvironment (filled.homes host.accounts) filled = .ok s) :
    (prepare host arguments env file).plan
      = (overridden (filled.homes host.accounts) s line.flags).map fun t =>
        ⟨t, line.expressions⟩ := by
  simp only [prepare, hread, settings, hfilled, hs, bind, Except.bind, Except.mapError]

/-- Settings that an environment makes stay as they are when they are checked once more, and a run
has them with what its arguments set in place of what they say. -/
theorem plan_overridden (hfilled : host.loader.load env file = .ok filled)
    (hs : Settings.ofEnvironment (filled.homes host.accounts) filled = .ok s)
    (hhomes : Settings.PlainHomes (filled.homes host.accounts))
    (hread : CommandLine.read host.release arguments = .ok line)
    (hlevel : ∀ level, LevelGiven host.release (front arguments) level →
      level = "" ∨ (LogLevel.ofText? level).isSome) :
    Settings.check (filled.homes host.accounts) s.toGiven = .ok s ∧
      ∃ p, (prepare host arguments env file).plan = .ok p ∧ p.expressions = line.expressions ∧
        s.Overridden p.settings host.release (front arguments) := by
  have hpath := Settings.isSettled_of_ofEnvironment hhomes hs
  have hsets := CommandLine.sets_of_read hread
  obtain ⟨l, hl⟩ : ∃ l, Settings.levelUnder line.flags s = some l := by
    rw [Settings.levelUnder]
    split
    next => exact ⟨_, rfl⟩
    next hne => exact Option.isSome_iff_exists.mp ((hlevel _ hsets.logLevel).resolve_left hne)
  refine ⟨Settings.check_toGiven hpath, ⟨s.under line.flags l, line.expressions⟩, ?_, rfl,
    Settings.overridden_of_sets hsets hl⟩
  rw [plan_of_read hread hfilled hs, overridden, Settings.override_of_isSettled hpath hl]
  rfl

/-- The home directory and the path end with a slash, a flag comes in two forms, and the level
that is given last counts. -/
theorem plan_overridden_of_padded_values :
    ∃ (env filled : Environment) (s : Settings) (p : Plan),
      Host.later.loader.load env "" = .ok filled ∧
      Settings.ofEnvironment (filled.homes Host.later.accounts) filled = .ok s ∧
      Settings.check (filled.homes Host.later.accounts) s.toGiven = .ok s ∧
      s = ⟨"/home/u/h/", .info, true, false, " ? "⟩ ∧
      (prepare .later ["--log-level", " x", "--appr", "1/2", "--log=Debug "] env "").plan
        = .ok p ∧
      p = ⟨⟨"/home/u/h/", .debug, true, true, " ? "⟩, ["1/2"]⟩ ∧
      s.Overridden p.settings Host.later.release
        (front ["--log-level", " x", "--appr", "1/2", "--log=Debug "]) := by
  let env : Environment := ⟨[("HOME", "/home/u/"), ("FRACTION_CALC_HISTORY_FILE", " ~/h/ "),
    ("FRACTION_CALC_LOG_LEVEL", " info"), ("FRACTION_CALC_STRICT", "Yes "),
    ("FRACTION_CALC_PROMPT", " ? ")]⟩
  let s : Settings := ⟨"/home/u/h/", .info, true, false, " ? "⟩
  let arguments := ["--log-level", " x", "--appr", "1/2", "--log=Debug "]
  have hfilled : Host.later.loader.load env "" = .ok env := by decide +kernel
  have hs : Settings.ofEnvironment (env.homes Host.later.accounts) env = .ok s := by
    decide +kernel
  have hlast : ("/home/u/".toList.rdropWhile (· == '/')).getLast? = some 'u' := by decide +kernel
  have hhome : Settings.IsPlainHome "/home/u/" := by
    refine ⟨by decide +kernel, ?_⟩
    rw [hlast]
    rintro c ⟨rfl⟩
    decide
  have hhomes : Settings.PlainHomes (env.homes Host.later.accounts) :=
    ⟨⟨"/home/u/", by decide +kernel, hhome⟩, fun _ => rfl⟩
  have hread : CommandLine.read Host.later.release arguments
      = .ok ⟨⟨false, true, "Debug "⟩, ["1/2"]⟩ := by decide +kernel
  have hgiven := (CommandLine.sets_of_read hread).logLevel
  obtain ⟨hagain, p, hp, hexpressions, hoverridden⟩ :=
    plan_overridden hfilled hs hhomes hread fun level hlevel => by
      rw [hlevel.unique hgiven]
      exact .inr (by decide +kernel)
  have hplan : (prepare .later arguments env "").plan
      = .ok ⟨⟨"/home/u/h/", .debug, true, true, " ? "⟩, ["1/2"]⟩ := by decide +kernel
  exact ⟨env, env, s, p, hfilled, hs, hagain, rfl, hp, Except.ok.inj (hp.symm.trans hplan),
    hoverridden⟩

end Program

end RationalCalculator
