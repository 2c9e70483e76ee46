import RationalCalculator.CommandLine.Basic
import RationalCalculator.Proofs.CommandLine.Switch
import RationalCalculator.Proofs.Expression.PlainNumber
import RationalCalculator.Proofs.Results

/-!
# What is kept of a command line

Of the arguments in front of the separator the switches are taken, each with its value, and the
others are kept (`Takes`). `Taken` tells the flags that come of it as well, and is what the reader
computes (`classify_take_eq_ok_iff`). All else about taking is proved from `Taken`, by induction on
it.

A command line is read exactly if its arguments can be taken in this way and nothing that is kept
looks like a switch, whether it stands in front of the separator or behind it (`exists_read_iff`). So
the separator ends the switches, but it does not protect what is behind it from being refused for
its looks.
-/

namespace RationalCalculator.CommandLine

open Settings (Flags)

/-- The text names a switch that needs no argument after it. -/
inductive StandsAlone (text : String) : Prop where
  | strict (h : Switch.strict.Named text none)
  | approx (h : Switch.approx.Named text none)
  | level {value : String} (h : Switch.logLevel.Named text (some value))

/-- The text is read as itself: as an expression, or as something in the place of a switch that is of
no known name. -/
def IsKept (text : String) : Prop :=
  Argument.ofText text = .ok (.expression text) ∨ Argument.ofText text = .ok (.unknown text)

/-- Arguments in front of the separator, and those of them that are kept. -/
inductive Takes : List String → List String → Prop where
  | nil : Takes [] []
  | kept {text : String} {rest kept : List String} (h : IsKept text) (hrest : Takes rest kept) :
      Takes (text :: rest) (text :: kept)
  | alone {text : String} {rest kept : List String} (h : StandsAlone text)
      (hrest : Takes rest kept) : Takes (text :: rest) kept
  | level {text value : String} {rest kept : List String} (h : Switch.logLevel.Named text none)
      (hvalue : Argument.ofText value = .ok (.expression value)) (hrest : Takes rest kept) :
      Takes (text :: value :: rest) kept

/-- Arguments as they are read one by one. -/
def Classified : List String → List Argument → Prop :=
  List.Forall₂ fun text a => Argument.ofText text = .ok a

theorem classify_eq_ok_iff (arguments : List String) (as : List Argument) :
    classify arguments = .ok as ↔ Classified arguments as := by
  have hmap : classify arguments = .ok as ↔ arguments.mapM Argument.ofText = .ok as := by
    rw [classify]
    cases arguments.mapM Argument.ofText <;> simp [Except.mapError]
  rw [hmap, Classified]
  clear hmap
  induction arguments generalizing as with
  | nil => cases as <;> simp [pure, Except.pure]
  | cons text rest ih =>
    rw [List.mapM_cons]
    cases ht : Argument.ofText text with
    | error e => cases as <;> simp [bind, Except.bind, ht]
    | ok a =>
      cases hr : rest.mapM Argument.ofText with
      | error e => cases as <;> simp [bind, Except.bind, ← ih, ht, hr]
      | ok bs => cases as <;> simp [bind, Except.bind, pure, Except.pure, ← ih, ht, hr]

/-- The same with the flags that are set before the arguments and after them. Of two values for the
log level the later one stays. -/
inductive Taken (release : Release) : Flags → List String → List String → Flags → Prop where
  | nil (flags : Flags) : Taken release flags [] [] flags
  | kept {flags f : Flags} {text : String} {rest kept : List String} (h : IsKept text)
      (hrest : Taken release flags rest kept f) :
      Taken release flags (text :: rest) (text :: kept) f
  | strict {flags f : Flags} {text : String} {rest kept : List String}
      (h : Switch.strict.Named text none)
      (hrest : Taken release { flags with strict := true } rest kept f) :
      Taken release flags (text :: rest) kept f
  | approx {flags f : Flags} {text : String} {rest kept : List String}
      (h : Switch.approx.Named text none)
      (hrest : Taken release { flags with showApproximation := true } rest kept f) :
      Taken release flags (text :: rest) kept f
  | attached {flags f : Flags} {text value : String} {rest kept : List String}
      (h : Switch.logLevel.Named text (some value))
      (hrest : Taken release { flags with logLevel := release.handedOn value } rest kept f) :
      Taken release flags (text :: rest) kept f
  | separate {flags f : Flags} {text value : String} {rest kept : List String}
      (h : Switch.logLevel.Named text none)
      (hvalue : Argument.ofText value = .ok (.expression value))
      (hrest : Taken release { flags with logLevel := value } rest kept f) :
      Taken release flags (text :: value :: rest) kept f

/-- What is taken stands for itself, for a switch, or for a switch and its value. -/
theorem taken_of_take {release : Release} {before kept : List String} {as : List Argument}
    {flags f : Flags} (has : Classified before as) (h : take release flags as = .ok (f, kept)) :
    Taken release flags before kept f := by
  fun_induction take release flags as generalizing before kept f with
  | case1 flags =>
    obtain ⟨rfl, rfl⟩ := Prod.mk.inj (Except.ok.inj h)
    cases has
    exact .nil flags
  | case2 flags text rest ih =>
    obtain ⟨⟨g, more⟩, hmore, heq⟩ := exists_of_map_eq_ok h
    obtain ⟨rfl, rfl⟩ := Prod.mk.inj heq
    obtain _ | ⟨ht, hrest⟩ := has
    obtain rfl := Argument.eq_of_ofText (.inl ht)
    exact .kept (.inl ht) (ih hrest hmore)
  | case3 flags text rest ih =>
    obtain ⟨⟨g, more⟩, hmore, heq⟩ := exists_of_map_eq_ok h
    obtain ⟨rfl, rfl⟩ := Prod.mk.inj heq
    obtain _ | ⟨ht, hrest⟩ := has
    obtain rfl := Argument.eq_of_ofText (.inr ht)
    exact .kept (.inr ht) (ih hrest hmore)
  | case4 => contradiction
  | case5 => contradiction
  | case6 flags rest ih =>
    obtain _ | ⟨ht, hrest⟩ := has
    exact .strict ((Argument.ofText_eq_switch_iff _ _ _).mp ht) (ih hrest h)
  | case7 flags rest ih =>
    obtain _ | ⟨ht, hrest⟩ := has
    exact .approx ((Argument.ofText_eq_switch_iff _ _ _).mp ht) (ih hrest h)
  | case8 flags value rest ih =>
    obtain _ | ⟨ht, hrest⟩ := has
    exact .attached ((Argument.ofText_eq_switch_iff _ _ _).mp ht) (ih hrest h)
  | case9 flags value rest ih =>
    obtain _ | ⟨ht, _ | ⟨hvalue, hrest⟩⟩ := has
    obtain rfl := Argument.eq_of_ofText (.inl hvalue)
    exact .separate ((Argument.ofText_eq_switch_iff _ _ _).mp ht) hvalue (ih hrest h)
  | case10 => contradiction
  | case11 => contradiction

theorem Taken.exists_take {release : Release} {before kept : List String} {flags f : Flags}
    (h : Taken release flags before kept f) :
    ∃ as, Classified before as ∧ take release flags as = .ok (f, kept) := by
  induction h with
  | nil flags => exact ⟨[], .nil, rfl⟩
  | kept ht _ ih =>
    obtain ⟨as, has, hf⟩ := ih
    rcases ht with ht | ht
    · exact ⟨_, .cons ht has, by rw [take, hf]; rfl⟩
    · exact ⟨_, .cons ht has, by rw [take, hf]; rfl⟩
  | strict ht _ ih =>
    obtain ⟨as, has, hf⟩ := ih
    exact ⟨_, .cons (Argument.ofText_of_named ht) has, hf⟩
  | approx ht _ ih =>
    obtain ⟨as, has, hf⟩ := ih
    exact ⟨_, .cons (Argument.ofText_of_named ht) has, hf⟩
  | attached ht _ ih =>
    obtain ⟨as, has, hf⟩ := ih
    exact ⟨_, .cons (Argument.ofText_of_named ht) has, hf⟩
  | separate ht hvalue _ ih =>
    obtain ⟨as, has, hf⟩ := ih
    exact ⟨_, .cons (Argument.ofText_of_named ht) (.cons hvalue has), hf⟩

theorem classify_take_eq_ok_iff {release : Release} {before kept : List String}
    {flags f : Flags} :
    (classify before >>= take release flags) = .ok (f, kept) ↔
      Taken release flags before kept f := by
  constructor
  · intro h
    obtain ⟨as, has, htake⟩ := exists_of_bind_eq_ok h
    exact taken_of_take ((classify_eq_ok_iff _ _).mp has) htake
  · intro h
    obtain ⟨as, has, htake⟩ := h.exists_take
    rw [(classify_eq_ok_iff _ _).mpr has]
    exact htake

theorem Taken.takes {release : Release} {before kept : List String} {flags f : Flags}
    (h : Taken release flags before kept f) : Takes before kept := by
  induction h with
  | nil => exact .nil
  | kept ht _ ih => exact .kept ht ih
  | strict ht _ ih => exact .alone (.strict ht) ih
  | approx ht _ ih => exact .alone (.approx ht) ih
  | attached ht _ ih => exact .alone (.level ht) ih
  | separate ht hvalue _ ih => exact .level ht hvalue ih

/-- Whatever flags are set before, what can be taken is taken, in every release. -/
theorem Takes.exists_taken {before kept : List String} (h : Takes before kept) (release : Release)
    (flags : Flags) : ∃ f, Taken release flags before kept f := by
  induction h generalizing flags with
  | nil => exact ⟨flags, .nil flags⟩
  | kept ht _ ih => exact (ih flags).imp fun _ => .kept ht
  | alone ht _ ih =>
    cases ht with
    | strict ht => exact (ih _).imp fun _ => .strict ht
    | approx ht => exact (ih _).imp fun _ => .approx ht
    | level ht => exact (ih _).imp fun _ => .attached ht
  | level ht hvalue _ ih => exact (ih _).imp fun _ => .separate ht hvalue

/-- The end of a command line, from the separator on if it has one, and what is behind that. -/
inductive Behind : List String → List String → Prop where
  | nothing : Behind [] []
  | separator (behind : List String) : Behind (separator :: behind) behind

variable {release : Release} {before tail behind kept arguments : List String} {flags f : Flags}
  {line : CommandLine}

theorem exists_behind (arguments : List String) :
    ∃ before tail behind, arguments = before ++ tail ∧ separator ∉ before ∧ Behind tail behind := by
  induction arguments with
  | nil => exact ⟨[], [], [], rfl, by simp, .nothing⟩
  | cons text rest ih =>
    by_cases ht : text = separator
    · exact ⟨[], text :: rest, rest, rfl, by simp, ht ▸ .separator rest⟩
    · obtain ⟨before, tail, behind, rfl, hbefore, htail⟩ := ih
      exact ⟨text :: before, tail, behind, rfl, by simp [Ne.symm ht, hbefore], htail⟩

theorem takeWhile_append_behind (hbefore : separator ∉ before) (htail : Behind tail behind) :
    (before ++ tail).takeWhile (· != separator) = before := by
  have hp : ∀ text ∈ before, (text != separator) = true := by
    intro text ht
    rw [bne_iff_ne]
    rintro rfl
    exact hbefore ht
  rw [List.takeWhile_append_of_pos hp]
  cases htail <;> simp

/-- A command line has one separator that counts. -/
theorem eq_of_append_behind {before' tail' behind' : List String} (hbefore : separator ∉ before)
    (htail : Behind tail behind) (hbefore' : separator ∉ before') (htail' : Behind tail' behind')
    (h : before ++ tail = before' ++ tail') : before = before' ∧ tail = tail' := by
  have heq : before = before' := by
    rw [← takeWhile_append_behind hbefore htail, h, takeWhile_append_behind hbefore' htail']
  rw [heq] at h
  exact ⟨heq, List.append_cancel_left h⟩

theorem read_append_behind (hbefore : separator ∉ before) (htail : Behind tail behind) :
    read release (before ++ tail) =
      (classify before >>= take release .none) >>= fun p => ofKept p.1 (p.2 ++ behind) := by
  have hdrop : (before ++ tail).drop (before.length + 1) = behind := by
    cases htail <;> simp
  rw [read, takeWhile_append_behind hbefore htail, hdrop]
  cases classify before <;> rfl

/-- Two characters or more, of which the first is a hyphen and none is a space, and no plain
number. -/
def SwitchLike (text : String) : Prop :=
  (∃ c cs, text.toList = '-' :: c :: cs) ∧ ' ' ∉ text.toList ∧ ¬ IsPlain text.toList

theorem looksLikeSwitch_iff (text : String) : looksLikeSwitch text = true ↔ SwitchLike text := by
  unfold looksLikeSwitch
  split
  next c cs htext =>
    have hspace : ' ' ∉ text.toList ↔ ' ' ∉ c :: cs := by simp [htext]
    rw [SwitchLike, hspace, ← isPlainNumber_iff, Bool.and_eq_true, Bool.not_eq_true',
      Bool.not_eq_true', decide_eq_false_iff_not, Bool.not_eq_true]
    exact ⟨fun h => ⟨⟨c, cs, htext⟩, h⟩, And.right⟩
  next hno =>
    refine ⟨fun h => by contradiction, ?_⟩
    rintro ⟨⟨c, cs, htext⟩, -⟩
    exact absurd htext (hno c cs)

instance : DecidablePred SwitchLike := fun text =>
  decidable_of_iff (looksLikeSwitch text = true) (looksLikeSwitch_iff text)

theorem filter_looksLikeSwitch (kept : List String) :
    kept.filter looksLikeSwitch = kept.filter (SwitchLike ·) := by
  refine List.filter_congr fun text _ => ?_
  rw [Bool.eq_iff_iff, decide_eq_true_iff, looksLikeSwitch_iff]

theorem ofKept_eq_ok_iff (flags : Flags) (kept : List String) (line : CommandLine) :
    ofKept flags kept = .ok line ↔
      line = ⟨flags, kept⟩ ∧ ∀ text ∈ kept, ¬ SwitchLike text := by
  have hnil : kept.filter (SwitchLike ·) = [] ↔ ∀ text ∈ kept, ¬ SwitchLike text := by
    simp [List.filter_eq_nil_iff]
  rw [ofKept, filter_looksLikeSwitch, ← hnil]
  cases kept.filter (SwitchLike ·) with
  | nil => exact ⟨fun h => ⟨(Except.ok.inj h).symm, rfl⟩, fun h => congrArg _ h.1.symm⟩
  | cons text more => exact ⟨fun h => by contradiction, fun h => by simp at h⟩

theorem ofKept_of_exists (flags : Flags) {kept : List String} (h : ∃ text ∈ kept, SwitchLike text) :
    ofKept flags kept = .error (.misuse (.unrecognized (kept.filter (SwitchLike ·)))) := by
  rw [ofKept, filter_looksLikeSwitch]
  split
  next hnil =>
    obtain ⟨text, hmem, htext⟩ := h
    simpa [htext] using List.filter_eq_nil_iff.mp hnil text hmem
  next => rfl

theorem read_of_taken (hbefore : separator ∉ before) (htail : Behind tail behind)
    (h : Taken release .none before kept f) :
    read release (before ++ tail) = ofKept f (kept ++ behind) := by
  rw [read_append_behind hbefore htail, classify_take_eq_ok_iff.mpr h]
  rfl

theorem exists_taken_of_read (hbefore : separator ∉ before) (htail : Behind tail behind)
    (h : read release (before ++ tail) = .ok line) :
    ∃ kept, Taken release .none before kept line.flags ∧ line.expressions = kept ++ behind ∧
      ∀ text ∈ line.expressions, ¬ SwitchLike text := by
  rw [read_append_behind hbefore htail] at h
  obtain ⟨⟨f, kept⟩, htake, hread⟩ := exists_of_bind_eq_ok h
  obtain ⟨rfl, hlooks⟩ := (ofKept_eq_ok_iff _ _ _).mp hread
  exact ⟨kept, classify_take_eq_ok_iff.mp htake, rfl, hlooks⟩

/-- A command line is read if its arguments can be taken and nothing kept looks like a switch. -/
theorem exists_read_iff (hbefore : separator ∉ before) (htail : Behind tail behind)
    (expressions : List String) :
    (∃ flags, read release (before ++ tail) = .ok ⟨flags, expressions⟩) ↔
      ∃ kept, Takes before kept ∧ expressions = kept ++ behind ∧
        ∀ text ∈ expressions, ¬ SwitchLike text := by
  constructor
  · rintro ⟨flags, h⟩
    obtain ⟨kept, htaken, hkept, hlooks⟩ := exists_taken_of_read hbefore htail h
    exact ⟨kept, htaken.takes, hkept, hlooks⟩
  · rintro ⟨kept, htakes, rfl, hlooks⟩
    obtain ⟨f, htaken⟩ := htakes.exists_taken release .none
    rw [read_of_taken hbefore htail htaken]
    exact ⟨f, (ofKept_eq_ok_iff _ _ _).mpr ⟨rfl, hlooks⟩⟩

/-- What is behind the separator is kept with what is kept without it. -/
theorem read_separator (hbefore : separator ∉ before) (h : read release before = .ok line)
    (behind : List String) :
    read release (before ++ separator :: behind)
      = ofKept line.flags (line.expressions ++ behind) := by
  rw [← List.append_nil before] at h
  obtain ⟨kept, htaken, hkept, -⟩ := exists_taken_of_read hbefore .nothing h
  rw [read_of_taken hbefore (.separator behind) htaken, hkept, List.append_nil]

theorem not_switchLike_of_read (h : read release arguments = .ok line) :
    ∀ text ∈ line.expressions, ¬ SwitchLike text := by
  obtain ⟨before, tail, behind, rfl, hbefore, htail⟩ := exists_behind arguments
  obtain ⟨-, -, -, hlooks⟩ := exists_taken_of_read hbefore htail h
  exact hlooks

/-- Behind the separator nothing is taken for a switch and all is kept in its order, unless a text
there looks like a switch. Then all texts that do are refused, as if there were no separator. -/
theorem separator_ends_switches (hbefore : separator ∉ before)
    (h : read release before = .ok line) (behind : List String) :
    ((∀ text ∈ behind, ¬ SwitchLike text) →
      read release (before ++ separator :: behind)
        = .ok ⟨line.flags, line.expressions ++ behind⟩) ∧
    ((∃ text ∈ behind, SwitchLike text) →
      read release (before ++ separator :: behind)
        = .error (.misuse (.unrecognized (behind.filter (SwitchLike ·))))) := by
  have hexpressions := not_switchLike_of_read h
  rw [read_separator hbefore h]
  constructor
  · intro hbehind
    refine (ofKept_eq_ok_iff _ _ _).mpr ⟨rfl, fun text hmem => ?_⟩
    rcases List.mem_append.mp hmem with hmem | hmem
    · exact hexpressions text hmem
    · exact hbehind text hmem
  · rintro ⟨text, hmem, hlike⟩
    have hnone : line.expressions.filter (SwitchLike ·) = [] := by
      simpa [List.filter_eq_nil_iff] using hexpressions
    rw [ofKept_of_exists _ ⟨text, List.mem_append_right _ hmem, hlike⟩, List.filter_append, hnone,
      List.nil_append]

/-- A switch in front of the separator, and behind it products and negative numbers, or else two
texts that look like switches. -/
theorem separator_ends_switches_at :
    read .later ["--strict", "1", "--", "-3 * 2", "-5/3"]
      = .ok ⟨⟨true, false, ""⟩, ["1", "-3 * 2", "-5/3"]⟩ ∧
    read .later ["--strict", "1", "--", "-5", "--approx", "--"]
      = .error (.misuse (.unrecognized ["--approx", "--"])) := by
  have hbefore : separator ∉ ["--strict", "1"] := by decide +kernel
  have h : read .later ["--strict", "1"] = .ok ⟨⟨true, false, ""⟩, ["1"]⟩ := by decide +kernel
  obtain ⟨hkept, -⟩ := separator_ends_switches hbefore h ["-3 * 2", "-5/3"]
  obtain ⟨-, hrefused⟩ := separator_ends_switches hbefore h ["-5", "--approx", "--"]
  exact ⟨hkept (by decide +kernel), hrefused (by decide +kernel)⟩

/-- A product with tabs between its factors has a value, and is refused behind the separator. -/
theorem tabbed_product_is_refused :
    evaluate .empty false "-3\t*\t2" = .ok (.ofInt (-6)) ∧ read .later [] = .ok ⟨.none, []⟩ ∧
    read .later ["--", "-3\t*\t2"] = .error (.misuse (.unrecognized ["-3\t*\t2"])) := by
  decide +kernel

end RationalCalculator.CommandLine
