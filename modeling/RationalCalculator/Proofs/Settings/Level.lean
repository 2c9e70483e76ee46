import RationalCalculator.Proofs.Settings.Again

/-!
# Two ways to give a log level

A log level on the command line is refused if the environment would be refused with it, and is the
level of the run if it is not. The empty text is the exception: in the environment it is refused,
and on the command line it is passed over, as is all of which the argument parser hands on nothing.
Besides, the switch has the path checked a second time, which may refuse the path.
-/

namespace RationalCalculator

open CommandLine (Argument Names front levelSwitch)

namespace Settings

variable {homes accounts : Homes} {v : String} {env other : Environment} {s t : Settings}
  {flags : Flags}

/-- The environments give the same home directory, and the same to all fields but one. -/
structure AgreeBut (field : Field) (env other : Environment) : Prop where
  home : other.home = env.home
  textIn : ∀ f, f ≠ field → f.textIn other = f.textIn env

/-- The environment makes no settings. -/
def RefusesEnvironment (accounts : Homes) (env : Environment) : Prop :=
  ∃ violations, ofEnvironment (env.homes accounts) env = .error violations

/-- A second check refuses the path. -/
def RefusesPathAgain (homes : Homes) (s : Settings) : Prop :=
  ∃ problem, checkPath homes (.text s.historyFile) = .error problem

theorem not_refusesPathAgain_iff :
    ¬ RefusesPathAgain homes s ↔ ∃ path, checkPath homes (.text s.historyFile) = .ok path := by
  rw [RefusesPathAgain]
  cases checkPath homes (.text s.historyFile) <;> simp

theorem not_refusesEnvironment_iff :
    ¬ RefusesEnvironment accounts env ↔ ∃ t, ofEnvironment (env.homes accounts) env = .ok t := by
  rw [RefusesEnvironment]
  cases ofEnvironment (env.homes accounts) env <;> simp

/-- No path is refused where the own home directory is an ordinary one and no other is known. -/
theorem not_refusesPathAgain_of_plainHomes (hhomes : PlainHomes homes)
    (h : ofEnvironment homes env = .ok s) : ¬ RefusesPathAgain homes s :=
  not_refusesPathAgain_iff.mpr ⟨_, isSettled_of_ofEnvironment hhomes h⟩

theorem AgreeBut.homes_eq {field : Field} (h : AgreeBut field env other) (accounts : Homes) :
    other.homes accounts = env.homes accounts := by
  rw [Environment.homes, h.home, Environment.homes]

/-- Where a text for the level is put into an environment that makes settings, the level decides. -/
theorem ofEnvironment_eq_ok_iff_of_agreeBut (hs : ofEnvironment homes env = .ok s)
    (hsame : AgreeBut .logLevel env other) (hv : Field.logLevel.textIn other = some v) :
    ofEnvironment homes other = .ok t ↔
      LogLevel.ofText? v = some t.logLevel ∧ t = { s with logLevel := t.logLevel } := by
  have hpath := check_eq_ok_iff.mp hs .historyFile
  have hstrict := check_eq_ok_iff.mp hs .strict
  have happrox := check_eq_ok_iff.mp hs .showApproximation
  have hprompt := check_eq_ok_iff.mp hs .prompt
  simp only [Has, get_ofEnvironment] at hpath hstrict happrox hprompt
  simp only [ofEnvironment, check_eq_ok_iff, Field.forall_iff, get_ofEnvironment, Has, hv,
    hsame.textIn .historyFile (by decide), hsame.textIn .strict (by decide),
    hsame.textIn .showApproximation (by decide), hsame.textIn .prompt (by decide),
    hpath, hstrict, happrox, hprompt, Except.ok.injEq]
  rw [Option.map_some, checkField, mapError_eq_ok_iff, checkLogLevel_text_eq_ok_iff]
  constructor
  · rintro ⟨hpath, hlevel, hstrict, happrox, hprompt⟩
    refine ⟨hlevel, ?_⟩
    rw [hpath, hstrict, happrox, hprompt]
  · rintro ⟨hlevel, ht⟩
    rw [ht]
    exact ⟨rfl, hlevel, rfl, rfl, rfl⟩

theorem override_of_logLevel_ne (hne : flags.logLevel ≠ "") :
    override homes s flags = check homes (flags.applyTo s.toGiven) := by
  have hflags : flags ≠ .none := by
    rintro rfl
    exact hne rfl
  rw [override, if_neg hflags]

/-- Under flags with a level the settings are checked again, and the level and the path decide. -/
theorem exists_override_eq_ok_iff (hne : flags.logLevel ≠ "") :
    (∃ t, override homes s flags = .ok t) ↔
      (∃ l, LogLevel.ofText? flags.logLevel = some l) ∧ ¬ RefusesPathAgain homes s := by
  simp only [not_refusesPathAgain_iff, override_of_logLevel_ne hne, check_again_eq_ok_iff,
    levelUnder, if_neg hne]
  constructor
  · rintro ⟨t, hpath, hlevel, -⟩
    exact ⟨⟨_, hlevel⟩, _, hpath⟩
  · rintro ⟨⟨l, hlevel⟩, path, hpath⟩
    exact ⟨{ s.under flags l with historyFile := path }, hpath, hlevel, rfl, rfl, rfl⟩

theorem logLevel_of_override (hne : flags.logLevel ≠ "") (h : override homes s flags = .ok t) :
    LogLevel.ofText? flags.logLevel = some t.logLevel := by
  rw [override_of_logLevel_ne hne] at h
  obtain ⟨-, hlevel, -⟩ := check_again_eq_ok_iff.mp h
  rwa [levelUnder, if_neg hne] at hlevel

/-- A text for the level is refused if it names none, and nothing else is. -/
theorem refusesEnvironment_iff_of_agreeBut (hs : ofEnvironment (env.homes accounts) env = .ok s)
    (hsame : AgreeBut .logLevel env other) (hv : Field.logLevel.textIn other = some v) :
    RefusesEnvironment accounts other ↔ LogLevel.ofText? v = none := by
  rw [← not_iff_not, not_refusesEnvironment_iff, hsame.homes_eq, ← ne_eq,
    Option.ne_none_iff_exists']
  simp only [ofEnvironment_eq_ok_iff_of_agreeBut hs hsame hv]
  constructor
  · rintro ⟨t, hlevel, -⟩
    exact ⟨_, hlevel⟩
  · rintro ⟨l, hlevel⟩
    exact ⟨{ s with logLevel := l }, hlevel, rfl⟩

/-- The environment with a text for the level. -/
def withLevel (v : String) (env : Environment) : Environment :=
  (⟨[(Field.logLevel.variable, v)]⟩ : Environment).above env

theorem get?_withLevel_of_ne {name : String} (h : name ≠ Field.logLevel.variable) :
    (withLevel v env).get? name = env.get? name := by
  rw [withLevel, Environment.get?_above, Environment.get?, List.lookup_cons,
    beq_eq_false_iff_ne.mpr h]
  rfl

theorem textIn_withLevel (v : String) (env : Environment) :
    Field.logLevel.textIn (withLevel v env) = some v := by
  rw [textIn_eq _ _ (by decide), withLevel, Environment.get?_above, Environment.get?,
    List.lookup_cons_self, Option.some_or]

theorem agreeBut_withLevel (v : String) (env : Environment) :
    AgreeBut .logLevel env (withLevel v env) where
  home := by rw [Environment.home, get?_withLevel_of_ne (by decide), Environment.home]
  textIn field hfield := by
    by_cases happrox : field = .showApproximation
    · subst happrox
      rw [textIn_showApproximation, textIn_showApproximation, get?_withLevel_of_ne (by decide),
        get?_withLevel_of_ne (by decide)]
    · have hname : field.variable ≠ Field.logLevel.variable := by
        cases field <;> first | contradiction | decide
      rw [textIn_eq _ _ happrox, textIn_eq _ _ happrox, get?_withLevel_of_ne hname]

end Settings

namespace Program

variable {host : Host} {launch : Launch} {arguments : List String}
  {env filled other : Environment} {file v : String} {inputs : List (Option String)}
  {s : Settings} {line : CommandLine}

/-- A run is cut short with status 2 if it is misused, whatever the misuse is. -/
theorem ending_runOn_eq_cutShort_two_iff :
    (runOn host launch arguments env file inputs).ending = .cutShort 2 ↔
      ∃ m, (prepare host arguments env file).plan = .error (.misuse m) := by
  simp only [runOn]
  cases hplan : (prepare host arguments env file).plan with
  | ok p =>
    simp only [Plan.execute]
    split <;> split <;> simp
  | error refusal => cases refusal <;> simp [refuse]

/-- With settings from the environment, only the flags can still be refused. -/
theorem ending_runOn_eq_cutShort_two_iff_of_read
    (hread : CommandLine.read host.release arguments = .ok line)
    (hfilled : host.loader.load env file = .ok filled)
    (hs : Settings.ofEnvironment (filled.homes host.accounts) filled = .ok s) :
    (runOn host launch arguments env file inputs).ending = .cutShort 2 ↔
      ¬ ∃ t, Settings.override (filled.homes host.accounts) s line.flags = .ok t := by
  rw [ending_runOn_eq_cutShort_two_iff, plan_of_read hread hfilled hs, overridden]
  cases Settings.override (filled.homes host.accounts) s line.flags <;>
    simp [Except.map, Except.mapError]

/-- A run depends on its arguments by what is read in them. -/
theorem runOn_congr_of_read {arguments' : List String}
    (h : CommandLine.read host.release arguments = CommandLine.read host.release arguments') :
    runOn host launch arguments env file inputs = runOn host launch arguments' env file inputs := by
  simp only [runOn, prepare, h]

/-- A log level of which nothing is handed on is passed over. -/
theorem runOn_levelSwitch_of_handedOn (hread : CommandLine.read host.release arguments = .ok line)
    (hno : ¬ Names .logLevel (front arguments)) (hnone : host.release.handedOn v = "") :
    runOn host launch (levelSwitch v :: arguments) env file inputs
      = runOn host launch arguments env file inputs := by
  have hswitched := CommandLine.read_levelSwitch hread hno v
  rw [hnone, ← CommandLine.logLevel_of_not_names hread hno] at hswitched
  exact runOn_congr_of_read (hswitched.trans hread.symm)

/-- Let a log level in front of a command line be handed on as it is given. Then it is refused if
and only if an environment that gives it is refused, and is the level of the run otherwise. Only the
empty text is passed over, and only a path that does not pass a second check is refused besides. -/
theorem level_switch_like_variable (hfilled : host.loader.load env file = .ok filled)
    (hs : Settings.ofEnvironment (filled.homes host.accounts) filled = .ok s)
    (hread : CommandLine.read host.release arguments = .ok line)
    (hno : ¬ Names .logLevel (front arguments)) (hgiven : host.release.handedOn v = v)
    (hsame : Settings.AgreeBut .logLevel filled other)
    (hv : Settings.Field.logLevel.textIn other = some v) :
    let switched := levelSwitch v :: arguments
    let homes := filled.homes host.accounts
    (v = "" →
      Settings.RefusesEnvironment host.accounts other ∧
      runOn host launch switched env file inputs = runOn host launch arguments env file inputs) ∧
    (v ≠ "" →
      ((runOn host launch switched env file inputs).ending = .cutShort 2 ↔
        Settings.RefusesEnvironment host.accounts other ∨ Settings.RefusesPathAgain homes s) ∧
      ∀ t, Settings.ofEnvironment (other.homes host.accounts) other = .ok t →
        ¬ Settings.RefusesPathAgain homes s →
        ∃ p, (prepare host switched env file).plan = .ok p ∧ p.expressions = line.expressions ∧
          p.settings.logLevel = t.logLevel) := by
  intro switched homes
  constructor
  · intro hempty
    have hnone : LogLevel.ofText? v = none := by
      rw [hempty]
      decide +kernel
    exact ⟨(Settings.refusesEnvironment_iff_of_agreeBut hs hsame hv).mpr hnone,
      runOn_levelSwitch_of_handedOn hread hno (hgiven.trans hempty)⟩
  · intro hne
    have hswitched := CommandLine.read_levelSwitch hread hno v
    rw [hgiven] at hswitched
    constructor
    · rw [ending_runOn_eq_cutShort_two_iff_of_read hswitched hfilled hs,
        Settings.exists_override_eq_ok_iff hne,
        Settings.refusesEnvironment_iff_of_agreeBut hs hsame hv, ← Option.ne_none_iff_exists',
        ne_eq, ← not_or, not_not]
    · intro t ht hpath
      rw [hsame.homes_eq] at ht
      obtain ⟨hlevel, -⟩ := (Settings.ofEnvironment_eq_ok_iff_of_agreeBut hs hsame hv).mp ht
      obtain ⟨u, hu⟩ :
          ∃ u, Settings.override homes s { line.flags with logLevel := v } = .ok u :=
        (Settings.exists_override_eq_ok_iff hne).mpr ⟨⟨_, hlevel⟩, hpath⟩
      have hlevel' := Settings.logLevel_of_override hne hu
      refine ⟨⟨u, line.expressions⟩, ?_, rfl, Option.some.inj (hlevel'.symm.trans hlevel)⟩
      rw [plan_of_read hswitched hfilled hs, overridden, hu]
      rfl

/-- A padded name of a level is taken in both places, and a name of none is refused in both. -/
theorem level_switch_like_variable_at_padded_name :
    ∃ (env : Environment) (p : Plan),
      (prepare .later [levelSwitch " Debug\n", "--strict", "1/2"] env "").plan = .ok p ∧
      p.settings.logLevel = .debug ∧ p.expressions = ["1/2"] ∧
      (runOn .later .called [levelSwitch "loud", "--strict", "1/2"] env "" []).ending
        = .cutShort 2 := by
  let env : Environment := ⟨[("HOME", "/home/u"), ("FRACTION_CALC_LOG_LEVEL", "info")]⟩
  let s : Settings := ⟨"/home/u/.fraction_calc_history", .info, false, false, "> "⟩
  have hfilled : Host.later.loader.load env "" = .ok env := by decide +kernel
  have hs : Settings.ofEnvironment (env.homes Host.later.accounts) env = .ok s := by
    decide +kernel
  have hread : CommandLine.read Host.later.release ["--strict", "1/2"]
      = .ok ⟨⟨true, false, ""⟩, ["1/2"]⟩ := by decide +kernel
  have hno : ¬ Names .logLevel (front ["--strict", "1/2"]) := by
    rintro ⟨text, hmem, value, hnamed⟩
    have hfront : front ["--strict", "1/2"] = ["--strict", "1/2"] := by decide +kernel
    have hstrict : Argument.ofText "--strict" = .ok (.switch .strict none) := by decide +kernel
    have hhalf : Argument.ofText "1/2" = .ok (.expression "1/2") := by decide +kernel
    have hswitch := Argument.ofText_of_named hnamed
    rw [hfront, List.mem_pair] at hmem
    rcases hmem with rfl | rfl
    · cases hstrict.symm.trans hswitch
    · cases hhalf.symm.trans hswitch
  have hpath : ¬ Settings.RefusesPathAgain (env.homes Host.later.accounts) s :=
    Settings.not_refusesPathAgain_iff.mpr ⟨"/home/u/.fraction_calc_history", by decide +kernel⟩
  have hlike (v : String) :=
    @level_switch_like_variable .later .called _ env env (Settings.withLevel v env) "" v [] s _
      hfilled hs hread hno rfl (Settings.agreeBut_withLevel v env)
      (Settings.textIn_withLevel v env)
  obtain ⟨p, hp, hexpressions, hlevel⟩ := ((hlike " Debug\n").2 (by decide)).2
    { s with logLevel := .debug } (by decide +kernel) hpath
  have hloud : Settings.RefusesEnvironment Host.later.accounts (Settings.withLevel "loud" env) :=
    ⟨[⟨.logLevel, .unknownLogLevel "loud"⟩], by decide +kernel⟩
  exact ⟨env, p, hp, hlevel, hexpressions, ((hlike "loud").2 (by decide)).1.mpr (.inl hloud)⟩

/-- An empty level is refused in the environment and passed over on the command line. -/
theorem empty_level_is_passed_over :
    Settings.RefusesEnvironment Host.later.accounts
      (Settings.withLevel "" ⟨[("HOME", "/home/u")]⟩) ∧
    (runOn .later .called [levelSwitch "", "1"] ⟨[("HOME", "/home/u")]⟩ "" []).ending
      = .done 0 := by
  refine ⟨⟨[⟨.logLevel, .unknownLogLevel ""⟩], by decide +kernel⟩, by decide +kernel⟩

end Program

end RationalCalculator
