import RationalCalculator.Proofs.Expression.Correspondence

/-!
# Registers replaced by what they hold

A register in a line can be replaced by the text of its value, as long as the value has one. The
text is a literal of the value, so the token in its place is alike, and all other tokens are left
as they are. A register that holds nothing stays in the line and is at fault there as before.
-/

namespace RationalCalculator

namespace Token

variable {registers : Registers}

/-- The text of its value for a register that holds one, and any other word as it is. -/
def inlineWord (registers : Registers) (word : String) : Except Numeral.Overlong String :=
  match ofWord word with
  | .register c =>
    match registers.get? c with
    | some v => v.text
    | none => .ok word
  | _ => .ok word

/-- The words of a line, joined by single spaces, with all registers inlined. -/
def inlined (registers : Registers) (line : String) : Except Numeral.Overlong String := do
  return Text.join (← (Text.split line).mapM (inlineWord registers))

theorem inlineWord_of_get? {word : String} {c : Char} {v : Fraction}
    (hword : ofWord word = .register c) (hv : registers.get? c = some v) :
    inlineWord registers word = v.text := by
  simp only [inlineWord, hword, hv]

theorem inlineWord_eq_self {word : String}
    (h : ∀ c v, ofWord word = .register c → registers.get? c ≠ some v) :
    inlineWord registers word = .ok word := by
  unfold inlineWord
  split
  next c hc =>
    split
    next v hv => exact absurd hv (h c v hc)
    next => rfl
  next => rfl

/-- The text of a value is alike the register that holds it. -/
theorem alike_of_text {c : Char} {v : Fraction} {s : String} (hv : registers.get? c = some v)
    (hs : v.text = .ok s) : (register c).Alike registers registers (ofWord s) where
  operator := by
    obtain ⟨a, ha, -, -⟩ :=
      Atom.of_value_token (value_of_literal? (Fraction.literal?_of_text hs) registers)
    rw [← ha, a.operator?_token]
    rfl
  value := by
    rw [value_of_literal? (Fraction.literal?_of_text hs), value, hv]

theorem exists_inlineWord (hlimit : ∀ c v, registers.get? c = some v → v.WithinLimit)
    {word : String} (hword : Text.IsWord word) :
    ∃ u, inlineWord registers word = .ok u ∧ Text.IsWord u ∧
      (ofWord word).Alike registers registers (ofWord u) := by
  by_cases h : ∃ c v, ofWord word = .register c ∧ registers.get? c = some v
  · obtain ⟨c, v, hc, hv⟩ := h
    obtain ⟨s, hs⟩ := (Fraction.exists_text_iff v).mpr (hlimit c v hv)
    refine ⟨s, (inlineWord_of_get? hc hv).trans hs, (Fraction.standsFor_of_text hs).word, ?_⟩
    rw [hc]
    exact alike_of_text hv hs
  · push Not at h
    exact ⟨word, inlineWord_eq_self h, hword, rfl, rfl⟩

theorem exists_mapM_inlineWord (hlimit : ∀ c v, registers.get? c = some v → v.WithinLimit)
    {ws : List String} (hws : ∀ w ∈ ws, Text.IsWord w) :
    ∃ us, ws.mapM (inlineWord registers) = .ok us ∧ (∀ u ∈ us, Text.IsWord u) ∧
      List.Forall₂ (Alike registers registers) (ws.map ofWord) (us.map ofWord) := by
  induction ws with
  | nil => exact ⟨[], rfl, by simp, .nil⟩
  | cons w ws ih =>
    obtain ⟨hw, hrest⟩ := List.forall_mem_cons.mp hws
    obtain ⟨u, hu, huword, halike⟩ := exists_inlineWord hlimit hw
    obtain ⟨us, hus, huswords, hall⟩ := ih hrest
    refine ⟨u :: us, ?_, List.forall_mem_cons.mpr ⟨huword, huswords⟩, .cons halike hall⟩
    rw [List.mapM_cons, hu, hus]
    rfl

end Token

theorem Registers.withinLimit_set {registers : Registers} {w : Fraction}
    (hlimit : ∀ c v, registers.get? c = some v → v.WithinLimit) (hw : w.WithinLimit) (name : Char) :
    ∀ c v, (registers.set name w).get? c = some v → v.WithinLimit := by
  intro c v h
  rw [get?_set] at h
  split at h
  · exact Option.some.inj h ▸ hw
  · exact hlimit c v h

/-- If every value in the registers has a text, inlining the registers of a line changes neither
its value nor the kind of its fault. -/
theorem evaluate_inlined (registers : Registers)
    (hlimit : ∀ c v, registers.get? c = some v → v.WithinLimit) (strict : Bool) (line : String) :
    ∃ line', Token.inlined registers line = .ok line' ∧
      (evaluate registers strict line').mapError Fault.kind
        = (evaluate registers strict line).mapError Fault.kind := by
  have hsplit : ∀ w ∈ Text.split line, Text.IsWord w := fun _ => Text.isWord_of_mem_split
  obtain ⟨us, hus, hwords, halike⟩ := Token.exists_mapM_inlineWord hlimit hsplit
  refine ⟨Text.join us, ?_, (kind_evaluate_of_alike ?_ strict).symm⟩
  · rw [Token.inlined, hus]
    rfl
  · rw [Token.scan, Token.scan, Text.split_join hwords]
    exact halike

/-- A negative fraction and zero are inlined, the latter as a divisor; `b` holds nothing. -/
theorem evaluate_inlined_at_zero_divisor :
    ∃ registers : Registers, (∀ c v, registers.get? c = some v → v.WithinLimit) ∧
      Token.inlined registers " a  / z + b " = .ok "-3/4 / 0 + b" ∧
      ∃ line', Token.inlined registers " a  / z + b " = .ok line' ∧
        (evaluate registers true line').mapError Fault.kind
          = (evaluate registers true " a  / z + b ").mapError Fault.kind := by
  have hempty : ∀ c v, Registers.empty.get? c = some v → v.WithinLimit := nofun
  have ha := Registers.withinLimit_set hempty (w := .reduce (-3) 4 (by decide))
    ⟨by decide, by decide⟩ 'a'
  have hlimit := Registers.withinLimit_set ha (w := .zero) ⟨by decide, by decide⟩ 'z'
  exact ⟨_, hlimit, by decide +kernel, evaluate_inlined _ hlimit true " a  / z + b "⟩

end RationalCalculator
