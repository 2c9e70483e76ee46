import RationalCalculator.Proofs.CommandLine.Kept

/-!
# The order of a command line

A command line lists what is left of its arguments when the switches, their values and the first
separator are left out, in the order of the arguments (`Leaves`). Where the switches stand in front
of the separator makes no difference to that, as long as none comes between a switch and the value
it waits for.
-/

namespace RationalCalculator.CommandLine

/-- What the switches, with the values that some of them wait for, and the first separator leave of
the arguments. -/
inductive Leaves : List String → List String → Prop where
  | nil : Leaves [] []
  | separator (behind : List String) : Leaves (separator :: behind) behind
  | alone {text : String} {rest left : List String} (h : StandsAlone text)
      (hrest : Leaves rest left) : Leaves (text :: rest) left
  | level {text value : String} {rest left : List String} (h : Switch.logLevel.Named text none)
      (hrest : Leaves rest left) : Leaves (text :: value :: rest) left
  | other {text : String} {rest left : List String} (hseparator : text ≠ separator)
      (h : ∀ (s : Switch) (value : Option String), ¬ s.Named text value)
      (hrest : Leaves rest left) : Leaves (text :: rest) (text :: left)

/-- The last argument is a switch that waits for its value. -/
def Waits (before : List String) : Prop :=
  ∃ text ∈ before.getLast?, Switch.logLevel.Named text none

variable {release : Release} {arguments before tail behind rest kept left xs ys ks ls : List String}
  {text value : String} {line : CommandLine}

theorem Waits.cons (h : Waits xs) (text : String) : Waits (text :: xs) := by
  obtain ⟨w, hw, hnamed⟩ := h
  exact ⟨w, List.mem_getLast?_cons hw, hnamed⟩

theorem Leaves.sublist (h : Leaves arguments left) : left.Sublist arguments := by
  induction h with
  | nil => exact .refl _
  | separator behind => exact List.sublist_cons_self _ _
  | alone _ _ ih => exact ih.cons _
  | level _ _ ih => exact (ih.cons _).cons _
  | other _ _ _ ih => exact ih.cons_cons _

theorem not_named_separator (s : Switch) (value : Option String) : ¬ s.Named separator value := by
  rintro ⟨name, htext, -, hname⟩
  have hfront : name <+: separator.toList := by rw [htext]; exact List.prefix_append _ _
  exact Switch.not_prefix_hyphens hname hfront

theorem StandsAlone.named (h : StandsAlone text) :
    ∃ (s : Switch) (value : Option String), s.Named text value := by
  cases h with
  | strict h => exact ⟨_, _, h⟩
  | approx h => exact ⟨_, _, h⟩
  | level h => exact ⟨_, _, h⟩

theorem StandsAlone.ne_separator (h : StandsAlone text) : text ≠ separator := by
  rintro rfl
  obtain ⟨s, value, hnamed⟩ := h.named
  exact not_named_separator s value hnamed

theorem StandsAlone.not_waiting (h : StandsAlone text) : ¬ Switch.logLevel.Named text none := by
  intro hnone
  have hread := Argument.ofText_of_named hnone
  cases h with
  | strict h => simp [Argument.ofText_of_named h] at hread
  | approx h => simp [Argument.ofText_of_named h] at hread
  | level h => simp [Argument.ofText_of_named h] at hread

/-- What is read as itself names no switch. -/
theorem IsKept.not_named (h : IsKept text) (s : Switch) (value : Option String) :
    ¬ s.Named text value := by
  intro hnamed
  have hread := Argument.ofText_of_named hnamed
  rcases h with h | h <;> simp [h] at hread

theorem leaves_separator_iff : Leaves (separator :: behind) left ↔ left = behind := by
  refine ⟨fun h => ?_, fun h => h ▸ .separator behind⟩
  cases h with
  | separator => rfl
  | alone h => exact absurd rfl h.ne_separator
  | level h => exact absurd h (not_named_separator _ _)
  | other h => exact absurd rfl h

theorem leaves_alone_iff (htext : StandsAlone text) :
    Leaves (text :: rest) left ↔ Leaves rest left := by
  refine ⟨fun h => ?_, .alone htext⟩
  obtain ⟨s, v, hnamed⟩ := htext.named
  cases h with
  | separator => exact absurd rfl htext.ne_separator
  | alone _ hrest => exact hrest
  | level h => exact absurd h htext.not_waiting
  | other _ h => exact absurd hnamed (h s v)

theorem leaves_level_iff (htext : Switch.logLevel.Named text none) :
    Leaves (text :: value :: rest) left ↔ Leaves rest left := by
  refine ⟨fun h => ?_, .level htext⟩
  cases h with
  | separator => exact absurd htext (not_named_separator _ _)
  | alone h => exact absurd htext h.not_waiting
  | level _ hrest => exact hrest
  | other _ h => exact absurd htext (h _ _)

theorem leaves_other_iff (hseparator : text ≠ separator)
    (htext : ∀ (s : Switch) (value : Option String), ¬ s.Named text value) :
    Leaves (text :: rest) left ↔ ∃ more, Leaves rest more ∧ left = text :: more := by
  constructor
  · intro h
    cases h with
    | separator => exact absurd rfl hseparator
    | alone h =>
      obtain ⟨s, v, hnamed⟩ := h.named
      exact absurd hnamed (htext s v)
    | level h => exact absurd h (htext _ _)
    | other _ _ hrest => exact ⟨_, hrest, rfl⟩
  · rintro ⟨more, hmore, rfl⟩
    exact .other hseparator htext hmore

/-- What is kept of the arguments in front of the separator, and all behind it, is what is left. -/
theorem leaves_iff (htakes : Takes before kept) (hbefore : separator ∉ before)
    (htail : Behind tail behind) (left : List String) :
    Leaves (before ++ tail) left ↔ left = kept ++ behind := by
  induction htakes generalizing left with
  | nil =>
    cases htail with
    | nothing => exact ⟨fun h => by cases h; rfl, by rintro rfl; exact .nil⟩
    | separator => exact leaves_separator_iff
  | @kept text rest kept ht _ ih =>
    have hne : text ≠ separator := (List.ne_of_not_mem_cons hbefore).symm
    rw [List.cons_append, leaves_other_iff hne ht.not_named]
    simp only [ih (List.not_mem_of_not_mem_cons hbefore), exists_eq_left, List.cons_append]
  | alone ht _ ih =>
    exact (leaves_alone_iff ht).trans (ih (List.not_mem_of_not_mem_cons hbefore) left)
  | level ht _ _ ih =>
    have hrest := List.not_mem_of_not_mem_cons (List.not_mem_of_not_mem_cons hbefore)
    exact (leaves_level_iff ht).trans (ih hrest left)

theorem Takes.append (hxs : Takes xs ks) (hys : Takes ys ls) : Takes (xs ++ ys) (ks ++ ls) := by
  induction hxs with
  | nil => exact hys
  | kept ht _ ih => exact .kept ht ih
  | alone ht _ ih => exact .alone ht ih
  | level ht hvalue _ ih => exact .level ht hvalue ih

/-- Arguments that can be taken can be taken in two parts, unless the first part ends with a switch
and the second part starts with its value. -/
theorem Takes.split (h : Takes (xs ++ ys) kept) :
    (∃ ks ls, Takes xs ks ∧ Takes ys ls ∧ kept = ks ++ ls) ∨
      (Waits xs ∧ ∃ value rest, ys = value :: rest ∧ IsKept value) := by
  generalize harguments : xs ++ ys = arguments at h
  induction h generalizing xs with
  | nil =>
    obtain ⟨rfl, rfl⟩ := List.append_eq_nil_iff.mp harguments
    exact .inl ⟨[], [], .nil, .nil, rfl⟩
  | kept ht hrest ih =>
    obtain ⟨rfl, rfl⟩ | ⟨xs, rfl, rfl⟩ := List.append_eq_cons_iff.mp harguments
    · exact .inl ⟨[], _, .nil, .kept ht hrest, rfl⟩
    obtain ⟨ks, ls, hks, hls, rfl⟩ | ⟨hwaits, hvalue⟩ := ih rfl
    · exact .inl ⟨_, ls, .kept ht hks, hls, rfl⟩
    · exact .inr ⟨hwaits.cons _, hvalue⟩
  | alone ht hrest ih =>
    obtain ⟨rfl, rfl⟩ | ⟨xs, rfl, rfl⟩ := List.append_eq_cons_iff.mp harguments
    · exact .inl ⟨[], _, .nil, .alone ht hrest, rfl⟩
    obtain ⟨ks, ls, hks, hls, rfl⟩ | ⟨hwaits, hvalue⟩ := ih rfl
    · exact .inl ⟨ks, ls, .alone ht hks, hls, rfl⟩
    · exact .inr ⟨hwaits.cons _, hvalue⟩
  | @level text value rest kept ht hvalue hrest ih =>
    obtain ⟨rfl, rfl⟩ | ⟨xs, rfl, hxs⟩ := List.append_eq_cons_iff.mp harguments
    · exact .inl ⟨[], _, .nil, .level ht hvalue hrest, rfl⟩
    obtain ⟨rfl, rfl⟩ | ⟨xs, rfl, rfl⟩ := List.append_eq_cons_iff.mp hxs.symm
    · exact .inr ⟨⟨text, rfl, ht⟩, value, rest, rfl, .inl hvalue⟩
    obtain ⟨ks, ls, hks, hls, rfl⟩ | ⟨hwaits, hnext⟩ := ih rfl
    · exact .inl ⟨ks, ls, .level ht hvalue hks, hls, rfl⟩
    · exact .inr ⟨(hwaits.cons _).cons _, hnext⟩

theorem takes_alone_iff (htext : StandsAlone text) : Takes (text :: rest) kept ↔ Takes rest kept := by
  refine ⟨fun h => ?_, .alone htext⟩
  obtain ⟨s, v, hnamed⟩ := htext.named
  cases h with
  | kept h => exact absurd hnamed (h.not_named s v)
  | alone _ hrest => exact hrest
  | level h => exact absurd h htext.not_waiting

theorem Takes.remove (htext : StandsAlone text) (h : Takes (xs ++ text :: ys) kept) :
    Takes (xs ++ ys) kept := by
  obtain ⟨ks, ls, hks, hls, rfl⟩ | ⟨-, value, rest, hcons, hvalue⟩ := h.split
  · exact hks.append ((takes_alone_iff htext).mp hls)
  · obtain ⟨rfl, rfl⟩ := List.cons.inj hcons
    obtain ⟨s, v, hnamed⟩ := htext.named
    exact absurd hnamed (hvalue.not_named s v)

theorem Takes.insert (htext : StandsAlone text) (hwaits : ¬ Waits xs) (h : Takes (xs ++ ys) kept) :
    Takes (xs ++ text :: ys) kept := by
  obtain ⟨ks, ls, hks, hls, rfl⟩ | ⟨hxs, -⟩ := h.split
  · exact hks.append (.alone htext hls)
  · exact absurd hxs hwaits

/-- A switch can be moved to any other place in front of the separator but the place of a value. -/
theorem exists_read_moved {after before' after' : List String} (htext : StandsAlone text)
    (h : read release (before ++ text :: after) = .ok line) (hbefore : separator ∉ before)
    (hsame : before' ++ after' = before ++ after) (hbefore' : separator ∉ before')
    (hwaits : ¬ Waits before') :
    ∃ flags, read release (before' ++ text :: after') = .ok ⟨flags, line.expressions⟩ := by
  obtain ⟨mid, tail, behind, rfl, hmid, htail⟩ := exists_behind after
  obtain ⟨mid', tail', behind', rfl, hmid', htail'⟩ := exists_behind after'
  have hno {xs ys : List String} (hxs : separator ∉ xs) (hys : separator ∉ ys) :
      separator ∉ xs ++ ys := by
    simp [hxs, hys]
  have hcons {ys : List String} (hys : separator ∉ ys) : separator ∉ text :: ys := by
    simp [hys, htext.ne_separator.symm]
  simp only [← List.append_assoc] at hsame
  obtain ⟨hfront, rfl⟩ :=
    eq_of_append_behind (hno hbefore' hmid') htail' (hno hbefore hmid) htail hsame
  rw [← List.cons_append, ← List.append_assoc] at h ⊢
  obtain ⟨kept, htakes, hkept, hlooks⟩ :=
    (exists_read_iff (hno hbefore (hcons hmid)) htail line.expressions).mp ⟨line.flags, h⟩
  have hwithout : Takes (before' ++ mid') kept := hfront ▸ htakes.remove htext
  exact (exists_read_iff (hno hbefore' (hcons hmid')) htail line.expressions).mpr
    ⟨kept, hwithout.insert htext hwaits, hkept, hlooks⟩

/-- A command line lists what is left of its arguments, in their order. It lists the same with a
switch in any other place in front of the separator but the place of a value. -/
theorem lists_what_is_left (h : read release arguments = .ok line) :
    (∀ left, Leaves arguments left ↔ left = line.expressions) ∧
    line.expressions.Sublist arguments ∧
    ∀ (before : List String) (text : String) (after before' after' : List String),
      arguments = before ++ text :: after → separator ∉ before → StandsAlone text →
      before' ++ after' = before ++ after → separator ∉ before' → ¬ Waits before' →
      ∃ flags, read release (before' ++ text :: after') = .ok ⟨flags, line.expressions⟩ := by
  have hleaves (left : List String) : Leaves arguments left ↔ left = line.expressions := by
    obtain ⟨before, tail, behind, rfl, hbefore, htail⟩ := exists_behind arguments
    obtain ⟨kept, htakes, hkept, -⟩ :=
      (exists_read_iff hbefore htail line.expressions).mp ⟨line.flags, h⟩
    rw [hkept]
    exact leaves_iff htakes hbefore htail left
  refine ⟨hleaves, ((hleaves _).mpr rfl).sublist, ?_⟩
  rintro before text after before' after' rfl hbefore htext hsame hbefore' hwaits
  exact exists_read_moved htext h hbefore hsame hbefore' hwaits

/-- An abbreviated switch behind a log level and its value, moved to the front. -/
theorem lists_what_is_left_at :
    Leaves ["1/2", "--log-level", "info", "--str", "a + 1", "--", "-3 * 2"]
      ["1/2", "a + 1", "-3 * 2"] ∧
    ∃ flags, read .later ["--str", "1/2", "--log-level", "info", "a + 1", "--", "-3 * 2"]
      = .ok ⟨flags, ["1/2", "a + 1", "-3 * 2"]⟩ := by
  have h : read .later ["1/2", "--log-level", "info", "--str", "a + 1", "--", "-3 * 2"]
      = .ok ⟨⟨true, false, "info"⟩, ["1/2", "a + 1", "-3 * 2"]⟩ := by decide +kernel
  have htext : StandsAlone "--str" :=
    .strict ((Argument.ofText_eq_switch_iff _ _ _).mp (by decide +kernel))
  have hwaits : ¬ Waits [] := by rintro ⟨w, hw, -⟩; contradiction
  obtain ⟨hleaves, -, hmove⟩ := lists_what_is_left h
  exact ⟨(hleaves _).mpr rfl, hmove ["1/2", "--log-level", "info"] "--str" ["a + 1", "--", "-3 * 2"]
    [] ["1/2", "--log-level", "info", "a + 1", "--", "-3 * 2"] rfl (by decide +kernel) htext rfl
    (by decide +kernel) hwaits⟩

end RationalCalculator.CommandLine
