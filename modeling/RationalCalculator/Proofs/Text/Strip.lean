import Mathlib
import RationalCalculator.Text.Blank
import RationalCalculator.Text.Letter

/-!
# Stripped texts and their words

Stripping takes blanks away at both ends and nothing else, so it does not touch the words of a
text. A text whose only word is `w` is `w` with blanks around it, so it is stripped to `w`. What
can be said of a stripped line can therefore be said of the words of the line. Letters are never
blanks, so a letter on its own is a word.
-/

namespace RationalCalculator.Text

theorem CharSet.not_contains_of_apart {s t : CharSet}
    (h : ∀ q ∈ s.intervals, ∀ r ∈ t.intervals, q.2 < r.1 ∨ r.2 < q.1) {c : Char}
    (hc : s.contains c = true) : t.contains c = false := by
  rw [Bool.eq_false_iff, ne_eq, contains_iff]
  rintro ⟨r, hr, hlo, hhi⟩
  obtain ⟨q, hq, hlo', hhi'⟩ := (s.contains_iff c).mp hc
  rcases h q hq r hr with hlt | hlt <;> omega

theorem not_isBlank_of_isLetter {c : Char} (h : isLetter c = true) : isBlank c = false :=
  CharSet.not_contains_of_apart (s := letters) (by decide +kernel) h

theorem isLetter_of_isAlpha {c : Char} (h : c.isAlpha = true) : isLetter c = true := by
  rw [isLetter, CharSet.contains_iff]
  simp only [Char.isAlpha, Char.isUpper, Char.isLower, Bool.or_eq_true, Bool.and_eq_true,
    decide_eq_true_eq] at h
  rcases h with ⟨hlo, hhi⟩ | ⟨hlo, hhi⟩
  · exact ⟨(0x41, 0x5A), by decide, hlo, hhi⟩
  · exact ⟨(0x61, 0x7A), by decide, hlo, hhi⟩

theorem not_isBlank_of_isAlpha {c : Char} (h : c.isAlpha = true) : isBlank c = false :=
  not_isBlank_of_isLetter (isLetter_of_isAlpha h)

/-- A text has no words exactly if it has only blanks. -/
theorem words_eq_nil_iff (cs : List Char) : words cs = [] ↔ ∀ c ∈ cs, isBlank c = true := by
  induction cs with
  | nil => simp
  | cons c cs ih =>
    rw [List.forall_mem_cons]
    cases hc : isBlank c with
    | true => rw [words_cons_of_isBlank cs hc, ih, and_iff_right rfl]
    | false => simp [words_cons_ne_nil cs hc]

theorem words_append_of_forall_isBlank (cs : List Char) {bs : List Char}
    (h : ∀ b ∈ bs, isBlank b = true) : words (cs ++ bs) = words cs := by
  cases bs with
  | nil => rw [List.append_nil]
  | cons b bs =>
    obtain ⟨hb, hbs⟩ := List.forall_mem_cons.mp h
    rw [words_append_blank cs bs hb, (words_eq_nil_iff bs).mpr hbs, List.append_nil]

theorem words_dropWhile_isBlank (cs : List Char) : words (cs.dropWhile isBlank) = words cs := by
  induction cs with
  | nil => rfl
  | cons c cs ih =>
    cases hc : isBlank c with
    | true => rw [List.dropWhile_cons_of_pos hc, ih, words_cons_of_isBlank cs hc]
    | false => rw [List.dropWhile_cons_of_neg (by simp [hc])]

theorem words_stripEnd (cs : List Char) : words (stripEnd cs) = words cs := by
  have hsplit : stripEnd cs ++ cs.rtakeWhile isBlank = cs := List.rdropWhile_append_rtakeWhile
  have hblank : ∀ b ∈ cs.rtakeWhile isBlank, isBlank b = true := fun b hb =>
    List.mem_rtakeWhile_imp hb
  rw [← words_append_of_forall_isBlank (stripEnd cs) hblank, hsplit]

@[simp] theorem words_strip (cs : List Char) : words (strip cs) = words cs := by
  rw [strip, words_stripEnd, words_dropWhile_isBlank]

@[simp] theorem split_stripped (line : String) : split (stripped line) = split line := by
  rw [split, stripped, String.toList_ofList, words_strip, split]

theorem toList_stripped (line : String) : (stripped line).toList = strip line.toList :=
  String.toList_ofList

/-- A text that starts with a character other than a blank keeps it. -/
theorem exists_strip_cons {c : Char} (cs : List Char) (h : isBlank c = false) :
    ∃ ds, strip (c :: cs) = c :: ds := by
  have hfront : strip (c :: cs) <+: c :: cs := by
    rw [strip, List.dropWhile_cons_of_neg (by simp [h])]
    exact List.rdropWhile_prefix _ _
  cases hs : strip (c :: cs) with
  | nil =>
    have hwords := words_strip (c :: cs)
    rw [hs, words_nil] at hwords
    exact absurd hwords.symm (words_cons_ne_nil cs h)
  | cons d ds =>
    rw [hs, List.cons_prefix_cons] at hfront
    exact ⟨ds, by rw [hfront.1]⟩

theorem not_isBlank_head_strip {cs : List Char} {c : Char} (h : c ∈ (strip cs).head?) :
    isBlank c = false := by
  obtain ⟨rest, hrest⟩ : strip cs <+: cs.dropWhile isBlank := List.rdropWhile_prefix _ _
  have hhead : (cs.dropWhile isBlank).head? = some c := by
    rw [← hrest, List.head?_append, Option.mem_def.mp h, Option.some_or]
  have hnot := List.head?_dropWhile_not isBlank cs
  rw [hhead] at hnot
  simpa using hnot

theorem not_isBlank_getLast_strip {cs : List Char} {c : Char} (h : c ∈ (strip cs).getLast?) :
    isBlank c = false := by
  obtain ⟨hne, rfl⟩ := List.mem_getLast?_eq_getLast h
  have hnot := List.rdropWhile_last_not isBlank (cs.dropWhile isBlank) hne
  exact Bool.eq_false_iff.mpr hnot

theorem strip_eq_nil_of_words {cs : List Char} (h : words cs = []) : strip cs = [] := by
  rw [List.eq_nil_iff_forall_not_mem]
  cases hs : strip cs with
  | nil => simp
  | cons c ds =>
    have hhead : isBlank c = false := not_isBlank_head_strip (by rw [hs]; rfl)
    rw [← words_strip, hs] at h
    exact absurd h (words_cons_ne_nil ds hhead)

/-- A text is left as it is if it has no blank at either end. -/
theorem strip_eq_self {cs : List Char} (hfirst : ∀ c ∈ cs.head?, isBlank c = false)
    (hlast : ∀ c ∈ cs.getLast?, isBlank c = false) : strip cs = cs := by
  have hdrop : cs.dropWhile isBlank = cs := by
    cases cs with
    | nil => rfl
    | cons c cs => exact List.dropWhile_cons_of_neg (by simpa using hfirst c rfl)
  rw [strip, hdrop]
  refine List.rdropWhile_eq_self_iff.mpr fun hne => ?_
  simpa using hlast _ (List.getLast?_eq_some_getLast hne)

@[simp] theorem stripped_stripped (text : String) : stripped (stripped text) = stripped text := by
  have h : strip (strip text.toList) = strip text.toList :=
    strip_eq_self (fun _ => not_isBlank_head_strip) fun _ => not_isBlank_getLast_strip
  rw [stripped, stripped, String.toList_ofList, h]

/-- A blank inside a stripped text has a word on either side. -/
theorem words_ne_nil_of_strip_eq {cs xs ys : List Char} {b : Char}
    (h : strip cs = xs ++ b :: ys) (hb : isBlank b = true) : words xs ≠ [] ∧ words ys ≠ [] := by
  constructor
  · cases xs with
    | nil =>
      have hhead : b ∈ (strip cs).head? := by rw [h]; rfl
      rw [not_isBlank_head_strip hhead] at hb
      contradiction
    | cons x xs =>
      have hhead : x ∈ (strip cs).head? := by rw [h]; rfl
      exact words_cons_ne_nil xs (not_isBlank_head_strip hhead)
  · rw [ne_eq, words_eq_nil_iff]
    intro hys
    have hblank : ∀ c ∈ b :: ys, isBlank c = true := List.forall_mem_cons.mpr ⟨hb, hys⟩
    have hne : b :: ys ≠ [] := List.cons_ne_nil b ys
    have hlast : (b :: ys).getLast hne ∈ (strip cs).getLast? := by
      rw [h, List.getLast?_append, List.getLast?_eq_some_getLast hne, Option.some_or]
      rfl
    have hclear := not_isBlank_getLast_strip hlast
    rw [hblank _ (List.getLast_mem hne)] at hclear
    contradiction

/-- A text with a single word has no blank inside. -/
theorem strip_of_words_eq_singleton {cs w : List Char} (h : words cs = [w]) : strip cs = w := by
  have hw : words (strip cs) = [w] := by rw [words_strip, h]
  have hclear : ∀ b ∈ strip cs, isBlank b = false := by
    intro b hmem
    by_contra hb
    rw [Bool.not_eq_false] at hb
    obtain ⟨xs, ys, hsplit⟩ := List.append_of_mem hmem
    obtain ⟨hxs, hys⟩ := words_ne_nil_of_strip_eq hsplit hb
    have hlen := congrArg List.length hw
    rw [hsplit, words_append_blank xs ys hb, List.length_append, List.length_singleton] at hlen
    have hxpos := List.length_pos_of_ne_nil hxs
    have hypos := List.length_pos_of_ne_nil hys
    omega
  have hne : strip cs ≠ [] := by
    intro hnil
    rw [hnil, words_nil] at hw
    contradiction
  rw [words_of_forall_not_isBlank hne hclear] at hw
  exact List.singleton_inj.mp hw

/-- Lines with the same word, or none, are stripped to the same text. -/
theorem stripped_congr {line line' : String} (h : split line = split line')
    (hlen : (split line).length ≤ 1) : stripped line = stripped line' := by
  have hwords : words line.toList = words line'.toList :=
    List.map_injective_iff.mpr (fun _ _ => String.ofList_inj.mp) h
  rw [split, List.length_map] at hlen
  rw [stripped, stripped, String.ofList_inj]
  rcases hw : words line.toList with _ | ⟨word, _ | ⟨next, rest⟩⟩
  · rw [strip_eq_nil_of_words hw, strip_eq_nil_of_words (hwords ▸ hw)]
  · rw [strip_of_words_eq_singleton hw, strip_of_words_eq_singleton (hwords ▸ hw)]
  · rw [hw] at hlen
    simp at hlen

end RationalCalculator.Text
