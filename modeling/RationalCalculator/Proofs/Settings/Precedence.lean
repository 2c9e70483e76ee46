import RationalCalculator.Program
import RationalCalculator.Proofs.Results
import RationalCalculator.Proofs.Settings.Fields

/-!
# Which source a setting comes from

A flag that gives a field is asked first, then the environment, then the environment file, and the
default is left for a field that none of them gives (`firstGiven`). Of the file it matters only that
loading it adds its variables to those that are set (`Loader.AddsUnset`).

The environment and the file become one environment before any field is looked up, so they are laid
over each other variable by variable and not field by field. For a field with a single variable
this is the same. The approximation has two: where the environment sets the short one and the file
sets the long one, the long one counts, and the file is preferred to the environment
(`Field.Overtaken`). Nothing else puts the sources out of order.
-/

namespace RationalCalculator

namespace Environment

theorem lookup_filterMap_map (value? : String → Option String) (names : List String)
    (name : String) :
    (names.filterMap fun n => (value? n).map (n, ·)).lookup name
      = if name ∈ names then value? name else none := by
  induction names with
  | nil => rfl
  | cons n names ih =>
    cases hv : value? n with
    | none =>
      rw [List.filterMap_cons_none (by rw [hv]; rfl), ih]
      by_cases hname : name = n
      · subst hname
        simp [hv]
      · simp [hname]
    | some v =>
      rw [List.filterMap_cons_some (by rw [hv]; rfl), List.lookup_cons, ih]
      by_cases hname : name = n
      · subst hname
        simp [hv]
      · simp [hname, beq_eq_false_iff_ne.mpr hname]

/-- The last assignment to a name decides. -/
theorem get?_ofAssignments (assignments : List (String × Option String)) (name : String) :
    (ofAssignments assignments).get? name = (assignments.reverse.lookup name).join := by
  rw [ofAssignments, get?, lookup_filterMap_map]
  split
  next => rfl
  next hmem =>
    have hnone : assignments.reverse.lookup name = none := by
      rw [List.lookup_eq_none_iff]
      rintro ⟨n, v⟩ hn
      rw [bne_iff_ne]
      rintro rfl
      exact hmem (by simpa using ⟨v, List.mem_reverse.mp hn⟩)
    rw [hnone]
    rfl

namespace File

/-- Statements are listed in front of those above them, under their names. -/
theorem exists_foldl_assign_eq (env : Environment) (above : List (String × Option String))
    (bindings : List Binding) :
    ∃ added, bindings.foldl (assign env) above = added ++ above ∧
      added.map (·.1) = (bindings.map (·.name)).reverse := by
  induction bindings generalizing above with
  | nil => exact ⟨[], rfl, rfl⟩
  | cons b bindings ih =>
    obtain ⟨added, hfold, hnames⟩ := ih (assign env above b)
    refine ⟨added ++ (assign env above b).take 1, ?_, ?_⟩
    · rw [List.foldl_cons, hfold]
      simp [assign]
    · simp [hnames, assign]

/-- The last statement on a name decides what the file says of it. Its mentions are read as of the
place where it stands. -/
theorem get?_said_of_last {quoting : Statement.Quoting} {env : Environment} {text : String}
    {b : Binding} {before after : List Binding}
    (hsplit : (statements quoting env text).filterMap Statement.binding? = before ++ b :: after)
    (hlast : ∀ c ∈ after, c.name ≠ b.name) :
    ((loader quoting).said env text).get? b.name = b.value.map fun v =>
      String.ofList (expand (meaning env (before.foldl (assign env) [])) 0 v.toList) := by
  obtain ⟨added, hfold, hnames⟩ :=
    exists_foldl_assign_eq env (assign env (before.foldl (assign env) []) b) after
  have hnone : added.lookup b.name = none := by
    rw [List.lookup_eq_none_iff]
    intro entry hentry
    have hmem : entry.1 ∈ (after.map (·.name)).reverse := hnames ▸ List.mem_map_of_mem hentry
    obtain ⟨c, hc, hname⟩ := List.mem_map.mp (List.mem_reverse.mp hmem)
    rw [bne_iff_ne, ← hname]
    exact (hlast c hc).symm
  have hlisted : (assignments quoting env text).reverse
      = added ++ assign env (before.foldl (assign env) []) b := by
    rw [assignments, List.reverse_reverse, hsplit, List.foldl_append, List.foldl_cons, hfold]
  rw [Loader.said, loader, get?_ofAssignments, hlisted, List.lookup_append, hnone, Option.none_or,
    assign, List.lookup_cons_self, Option.join_some]

end File

end Environment

namespace Settings

variable {homes : Homes} {flags : Flags} {given : Given} {s t : Settings} {field : Field}
  {env said filled : Environment}

/-- What the first of three sources gives to a field: the flags, the environment, and what the file
says. -/
def firstGiven (flags : Flags) (env said : Environment) (field : Field) : Option Raw :=
  (flags.raw? field).or (((field.textIn env).or (field.textIn said)).map .text)

/-- The environment gives the field by another variable than the file, and the variable of the file
counts first. -/
structure Field.Overtaken (field : Field) (env said : Environment) : Prop where
  unset : env.get? field.variable = none
  given : field.textIn env ≠ none
  said : said.get? field.variable ≠ none

/-- The approximation alone has a variable that can be overtaken. -/
theorem Field.Overtaken.eq_showApproximation (h : field.Overtaken env said) :
    field = .showApproximation := by
  by_contra hfield
  exact h.given ((textIn_eq field env hfield).trans h.unset)

/-- An environment is filled with variables where it says nothing. -/
theorem textIn_filled (hfilled : ∀ name, filled.get? name = (env.get? name).or (said.get? name))
    (h : ¬ field.Overtaken env said) :
    field.textIn filled = (field.textIn env).or (field.textIn said) := by
  by_cases hfield : field = .showApproximation
  · subst hfield
    rw [textIn_showApproximation, hfilled, hfilled]
    cases hlong : env.get? Field.showApproximation.variable with
    | some text => simp only [textIn_showApproximation, hlong, Option.some_or]
    | none =>
      cases hshort : env.get? shortVariable with
      | none => simp only [textIn_showApproximation, hlong, hshort, Option.none_or]
      | some text =>
        have hgiven : Field.showApproximation.textIn env ≠ none := by
          simp [textIn_showApproximation, hlong, hshort]
        have hsaid : said.get? Field.showApproximation.variable = none := by
          by_contra hsaid
          exact h ⟨hlong, hgiven, hsaid⟩
        simp only [textIn_showApproximation, hlong, hshort, hsaid, Option.none_or, Option.some_or]
  · rw [textIn_eq field _ hfield, textIn_eq field _ hfield, textIn_eq field _ hfield, hfilled]

theorem textIn_filled_of_overtaken
    (hfilled : ∀ name, filled.get? name = (env.get? name).or (said.get? name))
    (h : field.Overtaken env said) : field.textIn filled = said.get? field.variable := by
  obtain rfl := h.eq_showApproximation
  obtain ⟨text, hsaid⟩ := Option.ne_none_iff_exists'.mp h.said
  rw [textIn_showApproximation, hfilled, h.unset, Option.none_or, hsaid, Option.some_or]

/-- The field of the settings comes from a source that gives it this value, or none. Flags have a
path checked twice. -/
def Takes (s : Settings) (homes : Homes) (flags : Flags) (field : Field) (raw? : Option Raw) :
    Prop :=
  if field = .historyFile ∧ flags ≠ .none then
    ∃ path, historyFileOf homes raw? = .ok path ∧ historyFileOf homes (some (.text path)) =
      .ok s.historyFile
  else s.Has homes field raw?

/-- A flag comes first. A field without one keeps its source. -/
theorem takes_of_override (hs : ∀ field, s.Has homes field (given.get field))
    (ht : override homes s flags = .ok t) (field : Field) :
    t.Takes homes flags field ((flags.raw? field).or (given.get field)) := by
  unfold override at ht
  split at ht
  next hnone =>
    obtain rfl := Except.ok.inj ht
    rw [Takes, if_neg fun h => h.2 hnone, hnone, Flags.raw?_none, Option.none_or]
    exact hs field
  next hflags =>
    have hagain := check_eq_ok_iff.mp ht field
    rw [get_applyTo] at hagain
    cases hraw : flags.raw? field with
    | some raw =>
      have hfield : field ≠ .historyFile := by
        rintro rfl
        simp [Flags.raw?] at hraw
      rw [hraw, Option.some_or] at hagain
      rw [Takes, if_neg fun h => hfield h.1, Option.some_or]
      exact hagain
    | none =>
      rw [hraw, Option.none_or] at hagain
      rw [Option.none_or, Takes]
      split
      next h =>
        obtain rfl := h.1
        exact ⟨s.historyFile, hs .historyFile, hagain⟩
      next h =>
        have hfield : field ≠ .historyFile := fun heq => h ⟨heq, hflags⟩
        exact has_of_again hfield (hs field) hagain

end Settings

namespace Program

variable {host : Host} {arguments : List String} {env : Environment} {file : String}
  {flags : Settings.Flags} {s : Settings} {p : Plan}

/-- The settings of a run are those of the environment with its file, under the flags. -/
theorem exists_of_settings_eq_ok (h : settings host env file flags = .ok s) :
    ∃ filled first, host.loader.load env file = .ok filled ∧
      Settings.ofEnvironment (filled.homes host.accounts) filled = .ok first ∧
      Settings.override (filled.homes host.accounts) first flags = .ok s := by
  obtain ⟨filled, hfilled, h⟩ := exists_of_bind_eq_ok h
  obtain ⟨first, hfirst, h⟩ := exists_of_bind_eq_ok h
  exact ⟨filled, first, eq_ok_of_mapError hfilled, eq_ok_of_mapError hfirst, eq_ok_of_mapError h⟩

theorem exists_of_plan_eq_ok (h : (prepare host arguments env file).plan = .ok p) :
    ∃ line, CommandLine.read host.release arguments = .ok line ∧
      settings host env file line.flags = .ok p.settings := by
  unfold prepare at h
  split at h
  · contradiction
  · contradiction
  next line hline =>
    refine ⟨line, hline, ?_⟩
    cases hs : settings host env file line.flags with
    | error refusal => simp [hs, Except.map] at h
    | ok s =>
      obtain rfl : (⟨s, line.expressions⟩ : Plan) = p := by simpa [hs, Except.map] using h
      rfl

/-- Let loading a file add its variables and change none that is set. In a run that is not refused,
every field then comes from the first source that gives it, or has its default. If the file
overtakes the environment, and no flag is before both, the field is what the file gives. -/
theorem plan_takes_first_given (hloader : host.loader.AddsUnset)
    (hp : (prepare host arguments env file).plan = .ok p) :
    ∃ line filled, CommandLine.read host.release arguments = .ok line ∧
      host.loader.load env file = .ok filled ∧
      let said := host.loader.said env file
      let homes := filled.homes host.accounts
      (∀ field, ¬ (line.flags.raw? field = none ∧ field.Overtaken env said) →
        p.settings.Takes homes line.flags field
          (Settings.firstGiven line.flags env said field)) ∧
      (∀ field, line.flags.raw? field = none → field.Overtaken env said →
        p.settings.Takes homes line.flags field ((said.get? field.variable).map .text)) := by
  obtain ⟨line, hline, hsettings⟩ := exists_of_plan_eq_ok hp
  obtain ⟨filled, first, hload, hfirst, hoverride⟩ := exists_of_settings_eq_ok hsettings
  have hfilled := hloader env file filled hload
  have hhas := Settings.check_eq_ok_iff.mp hfirst
  have htakes := fun field => Settings.takes_of_override hhas hoverride field
  simp only [Settings.get_ofEnvironment] at htakes
  refine ⟨line, filled, hline, hload, ?_, ?_⟩
  · intro field hfield
    cases hraw : line.flags.raw? field with
    | some raw => simpa [Settings.firstGiven, hraw] using htakes field
    | none =>
      have hnot : ¬ field.Overtaken env (host.loader.said env file) := fun h => hfield ⟨hraw, h⟩
      rw [Settings.firstGiven, ← Settings.textIn_filled hfilled hnot]
      exact htakes field
  · intro field hraw hovertaken
    have h := htakes field
    rwa [hraw, Option.none_or, Settings.textIn_filled_of_overtaken hfilled hovertaken] at h

/-- A flag, the environment and the file each give fields, and the environment has the prompt for
which the file would have another text. -/
theorem plan_takes_first_given_of_three_sources :
    ∃ (env : Environment) (file : String) (p : Plan),
      Host.later.loader.AddsUnset ∧
      (prepare .later ["--strict", "1/3"] env file).plan = .ok p ∧
      p.settings = ⟨"/home/u/h", .info, true, true, "? "⟩ ∧
      ∀ field, p.settings.Takes ⟨some "/home/u", fun _ => none⟩ ⟨true, false, ""⟩ field
        (Settings.firstGiven ⟨true, false, ""⟩ env (Host.later.loader.said env file) field) := by
  let env : Environment := ⟨[("HOME", "/home/u"), ("FRACTION_CALC_PROMPT", "? "),
    ("FRACTION_CALC_LOG_LEVEL", "info")]⟩
  let file : String :=
    "FRACTION_CALC_PROMPT=!\nFRACTION_CALC_HISTORY_FILE=~/h\nFRACTION_CALC_APPROX=1\n"
  let p : Plan := ⟨⟨"/home/u/h", .info, true, true, "? "⟩, ["1/3"]⟩
  have hloader : Host.later.loader.AddsUnset := Environment.File.addsUnset_loader .takesQuote
  have hplan : (prepare .later ["--strict", "1/3"] env file).plan = .ok p := by decide +kernel
  obtain ⟨line, filled, hline, hload, hfirst, -⟩ := plan_takes_first_given hloader hplan
  have hread : CommandLine.read Host.later.release ["--strict", "1/3"]
      = .ok ⟨⟨true, false, ""⟩, ["1/3"]⟩ := by decide +kernel
  obtain rfl := Except.ok.inj (hline.symm.trans hread)
  have hhome : filled.homes Host.later.accounts = ⟨some "/home/u", fun _ => none⟩ := by
    have hown : filled.home = some "/home/u" := hloader env file filled hload "HOME"
    rw [Environment.homes, hown]
    rfl
  rw [hhome] at hfirst
  refine ⟨env, file, p, hloader, hplan, rfl, fun field => hfirst field ?_⟩
  rintro ⟨-, hovertaken⟩
  obtain rfl := hovertaken.eq_showApproximation
  exact hovertaken.given (by decide +kernel)

/-- The environment asks for approximations by the short variable, and the file has its way. -/
theorem file_overtakes_short_variable :
    ∃ (env : Environment) (file : String) (p : Plan),
      (prepare .later [] env file).plan = .ok p ∧
      Settings.firstGiven .none env (Host.later.loader.said env file) .showApproximation
        = some (.text "1") ∧
      ¬ p.settings.Takes (env.homes Host.later.accounts) .none .showApproximation
        (some (.text "1")) := by
  refine ⟨⟨[("HOME", "/home/u"), ("FRACTION_CALC_APPROX", "1")]⟩,
    "FRACTION_CALC_SHOW_APPROXIMATION=0\n",
    ⟨⟨"/home/u/.fraction_calc_history", .warning, false, false, "> "⟩, []⟩, by decide +kernel,
    by decide +kernel, ?_⟩
  rw [Settings.Takes, if_neg (by decide), Settings.Has]
  decide +kernel

end Program

end RationalCalculator
