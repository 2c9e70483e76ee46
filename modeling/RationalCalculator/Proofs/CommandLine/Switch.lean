import Mathlib
import RationalCalculator.CommandLine.Argument

/-!
# How switches are named

A switch is named by its own name or by any beginning of it that begins no other name, and a value
may follow behind an equals sign (`Switch.Named`). An argument is read as a switch exactly if it
names it in this way. All other arguments that are read at all keep their text.
-/

namespace RationalCalculator.CommandLine

namespace Switch

/-- The characters of a value and of the equals sign before it. -/
def valueText : Option String → List Char
  | none => []
  | some value => '=' :: value.toList

/-- The text begins the name of this switch and of no other, up to a value that it may have. -/
def Named (s : Switch) (text : String) (value : Option String) : Prop :=
  ∃ name, text.toList = name ++ valueText value ∧ '=' ∉ name ∧
    ∀ t : Switch, name <+: t.name.toList ↔ t = s

theorem mem_all (s : Switch) : s ∈ all := by cases s <;> decide

theorem ofName?_eq_some_iff (name : String) (s : Switch) : ofName? name = some s ↔ name = s.name := by
  constructor
  · intro h
    have hname : s.name = name := by simpa using List.find?_some h
    exact hname.symm
  · rintro rfl
    exact ofName?_name s

theorem equals_not_mem_name (s : Switch) : '=' ∉ s.name.toList := by cases s <;> decide

/-- No name begins another. -/
theorem name_prefix_name_iff (s t : Switch) : s.name.toList <+: t.name.toList ↔ t = s := by
  cases s <;> cases t <;> decide

theorem abbreviatedBy_eq_singleton_iff (name : List Char) (s : Switch) :
    abbreviatedBy name = [s] ↔ ∀ t : Switch, name <+: t.name.toList ↔ t = s := by
  have hmem (t : Switch) : t ∈ abbreviatedBy name ↔ name <+: t.name.toList := by
    simp [abbreviatedBy, mem_all, List.isPrefixOf_iff_prefix]
  constructor
  · intro h t
    rw [← hmem, h, List.mem_singleton]
  · intro h
    have hfilter : abbreviatedBy name = all.filter (· = s) := by
      refine List.filter_congr fun t _ => ?_
      rw [Bool.eq_iff_iff, List.isPrefixOf_iff_prefix, h t, decide_eq_true_eq]
    rw [hfilter]
    cases s <;> rfl

theorem hyphens_prefix_name (s : Switch) : ['-', '-'] <+: s.name.toList := by
  cases s <;> decide

/-- The hyphens alone begin more than one name. -/
theorem not_prefix_hyphens {name : List Char} {s : Switch}
    (h : ∀ t : Switch, name <+: t.name.toList ↔ t = s) : ¬ name <+: ['-', '-'] := by
  intro hp
  have hhelp : help = s := (h help).mp (hp.trans (hyphens_prefix_name help))
  have hstrict : strict = s := (h strict).mp (hp.trans (hyphens_prefix_name strict))
  exact absurd (hhelp.trans hstrict.symm) (by decide)

theorem exists_hyphens {name : List Char} {s : Switch}
    (h : ∀ t : Switch, name <+: t.name.toList ↔ t = s) : ∃ rest, name = '-' :: '-' :: rest := by
  rcases List.prefix_or_prefix_of_prefix ((h s).mpr rfl) (hyphens_prefix_name s) with hp | hp
  · exact absurd hp (not_prefix_hyphens h)
  · obtain ⟨rest, hrest⟩ := hp
    exact ⟨rest, hrest.symm⟩

/-- A full name names its switch. -/
theorem named_of_name {s : Switch} {text : String} {value : Option String}
    (h : text.toList = s.name.toList ++ valueText value) : s.Named text value :=
  ⟨s.name.toList, h, s.equals_not_mem_name, s.name_prefix_name_iff⟩

end Switch

namespace Argument

open Switch (valueText)

/-- A text is divided at its first equals sign. -/
theorem splitValue_eq_iff (cs name : List Char) (value : Option String) :
    splitValue cs = (name, value) ↔ cs = name ++ valueText value ∧ '=' ∉ name := by
  constructor
  · intro h
    have hdivide : cs.takeWhile (· != '=') ++ cs.drop (cs.takeWhile (· != '=')).length = cs :=
      List.prefix_iff_eq_append.mp (List.takeWhile_prefix _)
    have hdrop : cs.drop (cs.takeWhile (· != '=')).length = cs.dropWhile (· != '=') :=
      List.append_cancel_left (hdivide.trans List.takeWhile_append_dropWhile.symm)
    have hname : '=' ∉ cs.takeWhile (· != '=') := by
      intro hmem
      simpa using List.mem_takeWhile_imp hmem
    simp only [splitValue] at h
    split at h
    next hnil =>
      obtain ⟨rfl, rfl⟩ := Prod.mk.inj h
      rw [hnil] at hdivide
      exact ⟨hdivide.symm, hname⟩
    next c rest hcons =>
      obtain ⟨rfl, rfl⟩ := Prod.mk.inj h
      have hc : c = '=' := by
        have hhead := List.head?_dropWhile_not (· != '=') cs
        rw [← hdrop, hcons] at hhead
        simpa using hhead
      rw [hcons, hc] at hdivide
      rw [valueText, String.toList_ofList]
      exact ⟨hdivide.symm, hname⟩
  · rintro ⟨rfl, hname⟩
    have hp : ∀ c ∈ name, (c != '=') = true := by
      intro c hc
      rw [bne_iff_ne]
      rintro rfl
      exact hname hc
    have htake : (name ++ valueText value).takeWhile (· != '=') = name := by
      rw [List.takeWhile_append_of_pos hp]
      cases value <;> simp [valueText]
    simp only [splitValue, htake, List.drop_left]
    cases value <;> simp [valueText]

variable {text : String} {s : Switch} {value : Option String}

theorem ofName?_of_unique {name : List Char} (h : ∀ t : Switch, name <+: t.name.toList ↔ t = s)
    (given : Option String) :
    ofName? (String.ofList name) given = none ∨
      ofName? (String.ofList name) given = some (.switch s given) := by
  have hne : String.ofList name ≠ Switch.shortHelp := by
    obtain ⟨rest, rfl⟩ := Switch.exists_hyphens h
    rw [ne_eq, ← String.toList_inj, String.toList_ofList]
    simp [Switch.shortHelp]
  rw [ofName?, if_neg hne]
  cases ht : Switch.ofName? (String.ofList name) with
  | none => exact .inl rfl
  | some t =>
    have hname : t.name.toList = name := by
      rw [← (Switch.ofName?_eq_some_iff _ t).mp ht, String.toList_ofList]
    obtain rfl : t = s := (h t).mp (hname ▸ List.prefix_rfl)
    exact .inr rfl

theorem ofName?_of_equals (h : '=' ∈ text.toList) (given : Option String) :
    ofName? text given = none := by
  have hne : text ≠ Switch.shortHelp := by
    rintro rfl
    exact absurd h (by decide)
  rw [ofName?, if_neg hne, Option.map_eq_none_iff, Option.eq_none_iff_forall_ne_some]
  intro t ht
  rw [(Switch.ofName?_eq_some_iff text t).mp ht] at h
  exact t.equals_not_mem_name h

/-- A text that names a switch is not taken for anything else. -/
theorem named?_of_named (h : s.Named text value) :
    named? text = none ∨ named? text = some (.switch s value) := by
  obtain ⟨name, htext, hequals, hname⟩ := h
  have hsplit := (splitValue_eq_iff text.toList name value).mpr ⟨htext, hequals⟩
  unfold named?
  cases value with
  | none =>
    have hwhole : text = String.ofList name := by
      rw [← String.toList_inj, htext, String.toList_ofList]
      exact List.append_nil name
    rcases ofName?_of_unique hname none with hn | hn <;> rw [← hwhole] at hn <;>
      simp [hn, hsplit]
  | some v =>
    have hmem : '=' ∈ text.toList := by simp [htext, valueText]
    simp only [ofName?_of_equals hmem, hsplit]
    exact ofName?_of_unique hname (some v)

theorem ofText_of_named (h : s.Named text value) : ofText text = .ok (.switch s value) := by
  rw [ofText]
  rcases named?_of_named h with hn | hn
  · obtain ⟨name, htext, hequals, hname⟩ := h
    obtain ⟨rest, hrest⟩ := Switch.exists_hyphens hname
    have hhyphens : text.toList = '-' :: '-' :: (rest ++ valueText value) := by rw [htext, hrest]; rfl
    have hsplit := (splitValue_eq_iff text.toList name value).mpr ⟨htext, hequals⟩
    have hone := (Switch.abbreviatedBy_eq_singleton_iff name s).mpr hname
    simp only [hn, hhyphens]
    simp only [ofLong, hsplit, hone]
  · simp only [hn]

/-- What a text can be read as: a switch that it names, itself, or a request for help. -/
inductive Reads (text : String) : Except Ambiguity Argument → Prop where
  | switch {s : Switch} {value : Option String} (h : s.Named text value) :
      Reads text (.ok (.switch s value))
  | expression : Reads text (.ok (.expression text))
  | unknown : Reads text (.ok (.unknown text))
  | shortHelp (behind : String) : Reads text (.ok (.shortHelp behind))
  | ambiguous (switches : List Switch) : Reads text (.error (.ambiguous text switches))

theorem reads_unnamed (text : String) : Reads text (.ok (unnamed text)) := by
  unfold unnamed
  split
  · exact .expression
  · exact .unknown

theorem reads_ofShort (text : String) : Reads text (.ok (ofShort text)) := by
  unfold ofShort
  split
  · exact .shortHelp _
  · exact reads_unnamed text

theorem reads_ofLong (text : String) : Reads text (ofLong text) := by
  simp only [ofLong]
  split
  next => exact reads_unnamed text
  next t hone =>
    obtain ⟨htext, hequals⟩ := (splitValue_eq_iff text.toList _ _).mp rfl
    exact .switch ⟨_, htext, hequals, (Switch.abbreviatedBy_eq_singleton_iff _ _).mp hone⟩
  next => exact .ambiguous _

theorem reads_ofName? {name : String} {given : Option String} {a : Argument}
    (htext : text.toList = name.toList ++ valueText given) (h : ofName? name given = some a) :
    Reads text (.ok a) := by
  rw [ofName?] at h
  split at h
  · obtain rfl := Option.some.inj h
    exact .shortHelp _
  · obtain ⟨t, ht, rfl⟩ := Option.map_eq_some_iff.mp h
    rw [(Switch.ofName?_eq_some_iff name t).mp ht] at htext
    exact .switch (Switch.named_of_name htext)

theorem reads_named? {a : Argument} (h : named? text = some a) : Reads text (.ok a) := by
  unfold named? at h
  split at h
  next b hb =>
    obtain rfl := Option.some.inj h
    exact reads_ofName? (List.append_nil _).symm hb
  next name given hno hsplit =>
    obtain ⟨htext, -⟩ := (splitValue_eq_iff _ _ _).mp hsplit
    exact reads_ofName? (by rw [htext, String.toList_ofList]) h
  next => contradiction

theorem reads_ofText (text : String) : Reads text (ofText text) := by
  unfold ofText
  split
  next a ha => exact reads_named? ha
  next => exact reads_ofLong text
  next => exact reads_ofShort text
  next => exact .expression

/-- An argument is read as a switch exactly if it names it. -/
theorem ofText_eq_switch_iff (text : String) (s : Switch) (value : Option String) :
    ofText text = .ok (.switch s value) ↔ s.Named text value := by
  refine ⟨fun h => ?_, ofText_of_named⟩
  have hreads := reads_ofText text
  rw [h] at hreads
  cases hreads with
  | switch hnamed => exact hnamed

/-- What is read as no switch keeps its text. -/
theorem eq_of_ofText {t : String}
    (h : ofText text = .ok (.expression t) ∨ ofText text = .ok (.unknown t)) : t = text := by
  have hreads := reads_ofText text
  rcases h with h | h
  · rw [h] at hreads
    cases hreads
    rfl
  · rw [h] at hreads
    cases hreads
    rfl

end Argument

end RationalCalculator.CommandLine
