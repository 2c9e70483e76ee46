import RationalCalculator.Proofs.Session.Recall

/-!
# A line is its words

Blanks come in many kinds, and any number of them may stand around the words of a line and between
them. None of this is seen by a session: lines with the same words end alike, in the same value and
the same session or in the same fault, whose text then quotes either line as it was written.

The line is read twice in different ways, stripped and whole to see if it recalls a register, and
word by word otherwise. Both ways are decided by the words, and where both could be taken, on a line
of one letter, they agree.
-/

namespace RationalCalculator

namespace Session

/-- How the evaluation of a line ends. -/
inductive End where
  | value (v : Fraction)
  | invalid
  | divided

/-- The answer and the session that make this end. -/
def Ends (s : Session) (line : String) : End → Prop
  | .value v => (s.evaluate line).result = .ok v ∧
      (s.evaluate line).session = { s with lastResult := some v }
  | .invalid => (s.evaluate line).result = .error (.invalidExpression line) ∧
      (s.evaluate line).session = s
  | .divided => (s.evaluate line).result = .error .divisionByZero ∧ (s.evaluate line).session = s

variable {s : Session} {line line' : String}

theorem ends_of_readingFault {f : Fault} (hv : s.value line = .error f)
    (hf : f.isReadingFault = true) : s.Ends line .invalid := by
  rw [Ends, evaluate_of_readingFault hv hf]
  exact ⟨rfl, rfl⟩

theorem ends_of_divisionByZero (hv : s.value line = .error .divisionByZero) :
    s.Ends line .divided := by
  rw [Ends, evaluate_of_divisionByZero hv]
  exact ⟨rfl, rfl⟩

theorem ends_of_value {v : Fraction} (hv : s.value line = .ok v) : s.Ends line (.value v) := by
  rw [Ends, evaluate_of_value hv]
  exact ⟨rfl, rfl⟩

/-- Two lines with the same words have an end in common. -/
theorem exists_ends_of_split_eq (s : Session) (h : Text.split line = Text.split line') :
    ∃ e, s.Ends line e ∧ s.Ends line' e := by
  have hcongr : s.value line = s.value line' := value_congr h
  cases hv : s.value line with
  | ok v => exact ⟨.value v, ends_of_value hv, ends_of_value (hcongr.symm.trans hv)⟩
  | error f =>
    have hv' : s.value line' = .error f := hcongr.symm.trans hv
    rcases isReadingFault_or_of_value hv with hf | rfl
    · exact ⟨.invalid, ends_of_readingFault hv hf, ends_of_readingFault hv' hf⟩
    · exact ⟨.divided, ends_of_divisionByZero hv, ends_of_divisionByZero hv'⟩

theorem recalled?_of_split_eq_singleton {c : Char} (h : Text.split line = [String.singleton c])
    (hc : c.isAlpha = true) : recalled? line = some c := by
  rw [recalled?_eq_some_iff]
  refine ⟨[], by rw [h, String.singleton_eq_ofList], ?_⟩
  rintro d hd
  rwa [List.mem_singleton.mp hd]

/-- Read as an expression, the line of one letter is the register of this name. -/
theorem evaluate_of_split_eq_singleton {c : Char} (h : Text.split line = [String.singleton c])
    (hc : Text.isLetter c = true) (registers : Registers) (strict : Bool) :
    RationalCalculator.evaluate registers strict line = fetch registers c := by
  have hscan : Token.scan line = [.register c] := by
    rw [Token.scan, h, List.map_singleton, Token.ofWord_singleton hc]
  rw [evaluate_of_scan_singleton hscan]
  rfl

/-- Lines with the same words end alike, and both recall the same register or neither does: a line
recalls a register if it has a single word of ASCII letters. A line of one letter comes to the
register of this name, and it does so read as an expression, too, in either mode. -/
theorem evaluate_by_words :
    (∀ (s : Session) (line line' : String), Text.split line = Text.split line' →
      (∃ e, s.Ends line e ∧ s.Ends line' e) ∧ recalled? line = recalled? line') ∧
    (∀ (line : String) (c : Char), recalled? line = some c ↔
      ∃ cs, Text.split line = [String.ofList (c :: cs)] ∧ ∀ d ∈ c :: cs, d.isAlpha = true) ∧
    (∀ (s : Session) (line : String) (c : Char), Text.split line = [String.singleton c] →
      Text.isLetter c = true →
      (c.isAlpha = true → recalled? line = some c) ∧ s.value line = fetch s.registers c ∧
        ∀ strict, RationalCalculator.evaluate s.registers strict line = fetch s.registers c) := by
  refine ⟨?_, recalled?_eq_some_iff, ?_⟩
  · intro s line line' h
    exact ⟨exists_ends_of_split_eq s h, recalled?_congr h⟩
  · intro s line c h hc
    have hsingle := Text.split_singleton (Text.not_isBlank_of_isLetter hc)
    have hvalue : s.value line = s.value (String.singleton c) := value_congr (h.trans hsingle.symm)
    exact ⟨recalled?_of_split_eq_singleton h, hvalue.trans (value_singleton_of_isLetter s hc),
      evaluate_of_split_eq_singleton h hc s.registers⟩

/-- A quotient and a register, with a no-break space, tabs and an em space around the words. -/
theorem evaluate_by_words_at_wide_blanks :
    ∃ s : Session, (s.evaluate "1 / 8").result = .ok (.reduce 1 8 (by decide)) ∧
      Text.split "1 / 8" = Text.split "\t1\u00a0/\t\t8\n" ∧
      (∃ e, s.Ends "1 / 8" e ∧ s.Ends "\t1\u00a0/\t\t8\n" e) ∧
      Text.split "\u2003a " = [String.singleton 'a'] ∧ recalled? "\u2003a " = some 'a' ∧
      RationalCalculator.evaluate s.registers true "\u2003a " = .ok (.ofInt 2) := by
  let s : Session := ⟨none, Registers.empty.set 'a' (.ofInt 2), false⟩
  have hwords : Text.split "1 / 8" = Text.split "\t1\u00a0/\t\t8\n" := by decide +kernel
  have hone : Text.split "\u2003a " = [String.singleton 'a'] := by decide +kernel
  have hletter : Text.isLetter 'a' = true := by decide +kernel
  obtain ⟨hends, -, hsingle⟩ := evaluate_by_words
  obtain ⟨hrecalled, -, hread⟩ := hsingle s _ 'a' hone hletter
  exact ⟨s, by decide +kernel, hwords, (hends s _ _ hwords).1, hone, hrecalled (by decide),
    (hread true).trans (by decide +kernel)⟩

end Session

end RationalCalculator
