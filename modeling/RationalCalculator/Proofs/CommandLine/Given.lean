import RationalCalculator.Proofs.CommandLine.Order

/-!
# What the switches of a command line set

A flag is set if a switch for it stands in front of the separator, whatever stands around it. Of all
the values that are given for the log level the last one counts, and an empty one stands for none.
No value that a switch waits for is taken for a switch itself.
-/

namespace RationalCalculator.CommandLine

open Settings (Flags)

/-- The arguments in front of the separator. -/
def front (arguments : List String) : List String := arguments.takeWhile (· != separator)

/-- One of the arguments names the switch. -/
def Names (s : Switch) (before : List String) : Prop :=
  ∃ text ∈ before, ∃ value, s.Named text value

/-- The values that are given for the log level, in their order. -/
inductive Levels (release : Release) : List String → List String → Prop where
  | nil : Levels release [] []
  | attached {text value : String} {rest levels : List String}
      (h : Switch.logLevel.Named text (some value)) (hrest : Levels release rest levels) :
      Levels release (text :: rest) (release.handedOn value :: levels)
  | separate {text value : String} {rest levels : List String}
      (h : Switch.logLevel.Named text none) (hrest : Levels release rest levels) :
      Levels release (text :: value :: rest) (value :: levels)
  | other {text : String} {rest levels : List String}
      (h : ∀ value, ¬ Switch.logLevel.Named text value) (hrest : Levels release rest levels) :
      Levels release (text :: rest) levels

/-- The log level that is given last, or the empty text if there is none. -/
def LevelGiven (release : Release) (before : List String) (level : String) : Prop :=
  ∃ levels, Levels release before levels ∧ level = levels.getLast?.getD ""

/-- The arguments make these flags of the flags that are set before. -/
structure Sets (release : Release) (before : List String) (flags f : Flags) : Prop where
  strict : f.strict = true ↔ flags.strict = true ∨ Names .strict before
  showApproximation :
    f.showApproximation = true ↔ flags.showApproximation = true ∨ Names .approx before
  logLevel : ∃ levels, Levels release before levels ∧
    f.logLevel = levels.getLast?.getD flags.logLevel

variable {release : Release} {arguments before rest levels : List String} {text value : String}
  {s t : Switch} {flags f : Flags} {line : CommandLine}

theorem names_cons_iff :
    Names s (text :: rest) ↔ (∃ value, s.Named text value) ∨ Names s rest := by
  simp [Names]

/-- An argument names one switch at most. -/
theorem exists_named_iff {w : Option String} (h : t.Named text w) :
    (∃ value, s.Named text value) ↔ s = t := by
  constructor
  · rintro ⟨value, hs⟩
    have hread := (Argument.ofText_of_named hs).symm.trans (Argument.ofText_of_named h)
    exact (Argument.switch.inj (Except.ok.inj hread)).1
  · rintro rfl
    exact ⟨w, h⟩

theorem names_cons_of_named {w : Option String} (h : t.Named text w) :
    Names s (text :: rest) ↔ s = t ∨ Names s rest := by
  rw [names_cons_iff, exists_named_iff h]

theorem names_cons_of_kept (h : IsKept text) : Names s (text :: rest) ↔ Names s rest := by
  rw [names_cons_iff, or_iff_right]
  rintro ⟨value, hnamed⟩
  exact h.not_named s value hnamed

theorem Sets.kept (h : IsKept text) (hrest : Sets release rest flags f) :
    Sets release (text :: rest) flags f where
  strict := by rw [names_cons_of_kept h, hrest.strict]
  showApproximation := by rw [names_cons_of_kept h, hrest.showApproximation]
  logLevel := by
    obtain ⟨levels, hlevels, hf⟩ := hrest.logLevel
    exact ⟨levels, .other (h.not_named _) hlevels, hf⟩

theorem Levels.other_of_named (h : t.Named text none) (ht : t ≠ .logLevel)
    (hrest : Levels release rest levels) : Levels release (text :: rest) levels := by
  refine .other (fun value hnamed => ?_) hrest
  exact ht ((exists_named_iff h).mp ⟨value, hnamed⟩).symm

/-- A switch without a value turns on its own flag. -/
theorem Sets.flag {g : Flags} (h : t.Named text none) (ht : t ≠ .logLevel)
    (hstrict : g.strict = true ↔ flags.strict = true ∨ Switch.strict = t)
    (happrox : g.showApproximation = true ↔ flags.showApproximation = true ∨ Switch.approx = t)
    (hlevel : g.logLevel = flags.logLevel) (hrest : Sets release rest g f) :
    Sets release (text :: rest) flags f where
  strict := by rw [names_cons_of_named h, hrest.strict, hstrict, or_assoc]
  showApproximation := by
    rw [names_cons_of_named h, hrest.showApproximation, happrox, or_assoc]
  logLevel := by
    obtain ⟨levels, hlevels, hf⟩ := hrest.logLevel
    rw [hlevel] at hf
    exact ⟨levels, .other_of_named h ht hlevels, hf⟩

theorem Sets.attached (h : Switch.logLevel.Named text (some value))
    (hrest : Sets release rest { flags with logLevel := release.handedOn value } f) :
    Sets release (text :: rest) flags f where
  strict := by simp [names_cons_of_named h, hrest.strict]
  showApproximation := by simp [names_cons_of_named h, hrest.showApproximation]
  logLevel := by
    obtain ⟨levels, hlevels, hf⟩ := hrest.logLevel
    exact ⟨_, .attached h hlevels, by rw [hf, List.getLast?_cons, Option.getD_some]⟩

theorem Sets.separate (h : Switch.logLevel.Named text none) (hvalue : IsKept value)
    (hrest : Sets release rest { flags with logLevel := value } f) :
    Sets release (text :: value :: rest) flags f where
  strict := by simp [names_cons_of_named h, names_cons_of_kept hvalue, hrest.strict]
  showApproximation := by
    simp [names_cons_of_named h, names_cons_of_kept hvalue, hrest.showApproximation]
  logLevel := by
    obtain ⟨levels, hlevels, hf⟩ := hrest.logLevel
    exact ⟨_, .separate h hlevels, by rw [hf, List.getLast?_cons, Option.getD_some]⟩

theorem Taken.sets {kept : List String} (h : Taken release flags before kept f) :
    Sets release before flags f := by
  induction h with
  | nil => exact ⟨by simp [Names], by simp [Names], [], .nil, rfl⟩
  | kept ht _ ih => exact .kept ht ih
  | strict ht _ ih => refine .flag ht (by decide) ?_ ?_ ?_ ih <;> simp
  | approx ht _ ih => refine .flag ht (by decide) ?_ ?_ ?_ ih <;> simp
  | attached ht _ ih => exact .attached ht ih
  | separate ht hvalue _ ih => exact .separate ht (.inl hvalue) ih

/-- The flags of a command line are those that its switches set. -/
theorem sets_of_read (h : read release arguments = .ok line) :
    Sets release (front arguments) .none line.flags := by
  obtain ⟨before, tail, behind, rfl, hbefore, htail⟩ := exists_behind arguments
  obtain ⟨kept, htaken, -⟩ := exists_taken_of_read hbefore htail h
  rw [front, takeWhile_append_behind hbefore htail]
  exact htaken.sets

theorem levels_eq_nil (h : Levels release before levels) (hno : ¬ Names .logLevel before) :
    levels = [] := by
  induction h with
  | nil => rfl
  | attached h => exact absurd (names_cons_iff.mpr (.inl ⟨_, h⟩)) hno
  | separate h => exact absurd (names_cons_iff.mpr (.inl ⟨_, h⟩)) hno
  | other _ _ ih => exact ih fun hrest => hno (names_cons_iff.mpr (.inr hrest))

/-- The log level stays empty if no switch for it stands among the arguments. -/
theorem logLevel_of_not_names (h : read release arguments = .ok line)
    (hno : ¬ Names .logLevel (front arguments)) : line.flags.logLevel = "" := by
  obtain ⟨levels, hlevels, hlast⟩ := (sets_of_read h).logLevel
  rw [hlast, levels_eq_nil hlevels hno]
  rfl

theorem levels_attached_iff (h : Switch.logLevel.Named text (some value)) :
    Levels release (text :: rest) levels ↔
      ∃ more, Levels release rest more ∧ levels = release.handedOn value :: more := by
  constructor
  · intro hlevels
    cases hlevels with
    | attached hother hrest =>
      have hread := (Argument.ofText_of_named hother).symm.trans (Argument.ofText_of_named h)
      obtain rfl := Option.some.inj (Argument.switch.inj (Except.ok.inj hread)).2
      exact ⟨_, hrest, rfl⟩
    | separate hother => exact absurd hother (StandsAlone.level h).not_waiting
    | other hother => exact absurd h (hother _)
  · rintro ⟨more, hmore, rfl⟩
    exact .attached h hmore

theorem Levels.unique {xs ys : List String} (h : Levels release before xs)
    (h' : Levels release before ys) : xs = ys := by
  induction h generalizing ys with
  | nil =>
    cases h'
    rfl
  | attached h _ ih =>
    obtain ⟨more, hmore, rfl⟩ := (levels_attached_iff h).mp h'
    rw [ih hmore]
  | separate h _ ih =>
    cases h' with
    | attached hother => exact absurd h (StandsAlone.level hother).not_waiting
    | separate _ hrest => rw [ih hrest]
    | other hother => exact absurd h (hother _)
  | other h _ ih =>
    cases h' with
    | attached hother => exact absurd hother (h _)
    | separate hother => exact absurd hother (h _)
    | other _ hrest => exact ih hrest

theorem LevelGiven.unique {v w : String} (hv : LevelGiven release before v)
    (hw : LevelGiven release before w) : v = w := by
  obtain ⟨xs, hxs, rfl⟩ := hv
  obtain ⟨ys, hys, rfl⟩ := hw
  rw [hxs.unique hys]

/-- The switch for the log level, with its value behind an equals sign. -/
def levelSwitch (value : String) : String := "--log-level=" ++ value

theorem named_levelSwitch (value : String) :
    Switch.logLevel.Named (levelSwitch value) (some value) :=
  Switch.named_of_name String.toList_append

theorem standsAlone_levelSwitch (value : String) : StandsAlone (levelSwitch value) :=
  .level (named_levelSwitch value)

theorem front_levelSwitch (value : String) (arguments : List String) :
    front (levelSwitch value :: arguments) = levelSwitch value :: front arguments := by
  have hne := (standsAlone_levelSwitch value).ne_separator
  rw [front, List.takeWhile_cons_of_pos (by simpa using hne), front]

theorem exists_read_levelSwitch (h : read release arguments = .ok line) (value : String) :
    ∃ g, read release (levelSwitch value :: arguments) = .ok ⟨g, line.expressions⟩ := by
  obtain ⟨before, tail, behind, rfl, hbefore, htail⟩ := exists_behind arguments
  have hswitch := standsAlone_levelSwitch value
  have hbefore' : separator ∉ levelSwitch value :: before := by
    simp [hbefore, hswitch.ne_separator.symm]
  obtain ⟨kept, htakes, hkept⟩ :=
    (exists_read_iff hbefore htail line.expressions).mp ⟨line.flags, h⟩
  rw [← List.cons_append]
  exact (exists_read_iff hbefore' htail line.expressions).mpr ⟨kept, .alone hswitch htakes, hkept⟩

/-- A log level in front of arguments that give none is the one that is set. -/
theorem read_levelSwitch (h : read release arguments = .ok line)
    (hno : ¬ Names .logLevel (front arguments)) (value : String) :
    read release (levelSwitch value :: arguments)
      = .ok ⟨{ line.flags with logLevel := release.handedOn value }, line.expressions⟩ := by
  obtain ⟨⟨strict, approx, level⟩, hg⟩ := exists_read_levelSwitch h value
  have hsets := sets_of_read h
  have hsets' := sets_of_read hg
  have hnamed := named_levelSwitch value
  rw [front_levelSwitch] at hsets'
  have hstrict : strict = line.flags.strict := by
    rw [Bool.eq_iff_iff, hsets'.strict, hsets.strict, names_cons_of_named hnamed]
    simp
  have happrox : approx = line.flags.showApproximation := by
    rw [Bool.eq_iff_iff, hsets'.showApproximation, hsets.showApproximation,
      names_cons_of_named hnamed]
    simp
  have hlevel : level = release.handedOn value := by
    obtain ⟨levels, hlevels, hlast⟩ := hsets'.logLevel
    obtain ⟨more, hmore, rfl⟩ := (levels_attached_iff hnamed).mp hlevels
    rwa [levels_eq_nil hmore hno] at hlast
  rw [hg, hstrict, happrox, hlevel]

end RationalCalculator.CommandLine
