import RationalCalculator.Proofs.Expression.Cut
import RationalCalculator.Proofs.Session.Recall

/-!
# A calculation over two lines

A calculation can be broken off behind a complete expression: its value is evaluated first, stored
under a letter, and the rest is evaluated behind this letter. The registers then differ from those
of the unbroken line in that one letter, which the first part may use for a value of its own but
the second part may not. What is answered at the end is the same, up to the words of a fault.
-/

namespace RationalCalculator

theorem Fault.isReadingFault_congr {f g : Fault} (h : f.kind = g.kind) :
    f.isReadingFault = g.isReadingFault := by
  rw [isReadingFault, h, isReadingFault]

namespace Session

variable {s : Session} {line : String} {v : Fraction}

/-- What strict mode accepts has the same value in a session of either mode, also if the line is a
letter that is recalled. -/
theorem value_of_strict (h : RationalCalculator.evaluate s.registers true line = .ok v) :
    s.value line = .ok v := by
  cases hr : recalled? line with
  | none =>
    rw [value_of_not_recalled hr]
    cases s.strict with
    | true => exact h
    | false => exact Reading.lenient_of_strict h
  | some c =>
    obtain ⟨cs, hsplit, hall⟩ := (recalled?_eq_some_iff line c).mp hr
    have hscan : Token.scan line = [Token.ofWord (String.ofList (c :: cs))] := by
      rw [Token.scan, hsplit, List.map_singleton]
    rw [evaluate_of_scan_singleton hscan] at h
    rcases Token.register_or_literal?_of_value h with ⟨d, hd, hv⟩ | hl
    · obtain ⟨hword, -⟩ := (Token.ofWord_eq_register_iff _ d).mp hd
      rw [String.singleton_eq_ofList, String.ofList_inj] at hword
      obtain rfl := (List.cons.inj hword).1
      rw [value, hr]
      simp only [fetch, hv]
    · have halpha := hall c List.mem_cons_self
      rw [Token.not_isAlpha_of_literal? hl (by simp)] at halpha
      contradiction

theorem kind_reported_congr {line' : String} {f g : Fault} (h : f.kind = g.kind) :
    (reported line f).kind = (reported line' g).kind := by
  rw [reported, reported, Fault.isReadingFault_congr h]
  split
  · rfl
  · exact h

/-- The kind of what is reported depends on the kind of what is found. -/
theorem kind_result_congr {s' : Session} {line' : String}
    (h : (s.value line).mapError Fault.kind = (s'.value line').mapError Fault.kind) :
    (s.evaluate line).result.mapError Fault.kind
      = (s'.evaluate line').result.mapError Fault.kind := by
  cases hv : s.value line with
  | ok v =>
    cases hv' : s'.value line' with
    | ok w =>
      rw [hv, hv'] at h
      rw [evaluate_of_value hv, evaluate_of_value hv']
      exact h
    | error g => simp [hv, hv', Except.mapError] at h
  | error f =>
    cases hv' : s'.value line' with
    | ok w => simp [hv, hv', Except.mapError] at h
    | error g =>
      have hkind : f.kind = g.kind := by simpa [hv, hv', Except.mapError] using h
      rw [evaluate_of_fault hv, evaluate_of_fault hv']
      exact congrArg Except.error (kind_reported_congr hkind)

/-- The session after a line and a store of its value. -/
def setAside (s : Session) (line : String) (c : Char) : Session :=
  ((s.evaluate line).session.store (String.singleton c)).session

/-- The first part is evaluated and stored without a fault, and the second part, evaluated behind
the register, is answered as the whole line is: with its value, or with a fault of its kind. -/
theorem evaluate_over_two_lines (s : Session) (first second : String) (c : Char) (v : Fraction)
    (h : Cut s.registers first second c v) :
    (s.evaluate first).result = .ok v ∧
    ((s.evaluate first).session.store (String.singleton c)).result = .ok () ∧
    ((s.setAside first c).evaluate (String.singleton c ++ " " ++ second)).result.mapError Fault.kind
      = (s.evaluate (first ++ " " ++ second)).result.mapError Fault.kind := by
  have hfirst := evaluate_of_value (value_of_strict h.accepted)
  have hstore : { s with lastResult := some v }.store (String.singleton c)
      = ⟨.ok (), { s with lastResult := some v, registers := s.registers.set c v },
        [.stored v c]⟩ := store_of_getLast? rfl (by simp)
  have hnone (front : String) : recalled? (front ++ " " ++ second) = none := by
    obtain ⟨op, hhead, -⟩ := h.operator
    apply recalled?_eq_none_of_operator
    rw [Text.split_append_space]
    exact List.mem_append_right _ (List.mem_of_mem_head? hhead)
  rw [setAside, hfirst, hstore]
  refine ⟨rfl, rfl, kind_result_congr ?_⟩
  rw [value_of_not_recalled (hnone _), value_of_not_recalled (hnone _)]
  exact h.kind_evaluate s.strict

/-- The first part reads the register its value is stored in, and the cut is inside a term. -/
theorem evaluate_over_two_lines_at_own_register :
    ∃ s : Session, s.registers.get? 'a' = some (.ofInt 2) ∧
      Cut s.registers "a * 3" "/ 4 + 1" 'a' (.ofInt 6) ∧
      ((s.setAside "a * 3" 'a').evaluate (String.singleton 'a' ++ " " ++ "/ 4 + 1")).result.mapError
        Fault.kind = .ok (.reduce 5 2 (by decide)) := by
  have hcut : Cut (Registers.empty.set 'a' (.ofInt 2)) "a * 3" "/ 4 + 1" 'a' (.ofInt 6) := by
    refine ⟨by decide +kernel, ⟨.divide, by decide +kernel, .inr ?_⟩, by decide +kernel,
      by decide +kernel⟩
    intro op hop
    cases op with
    | add => decide +kernel
    | subtract => decide +kernel
    | multiply => contradiction
    | divide => contradiction
  obtain ⟨-, -, hanswer⟩ :=
    evaluate_over_two_lines ⟨none, _, false⟩ "a * 3" "/ 4 + 1" 'a' (.ofInt 6) hcut
  refine ⟨_, rfl, hcut, hanswer.trans ?_⟩
  decide +kernel

end Session

end RationalCalculator
