import RationalCalculator.Proofs.Expression.LeftmostFault
import RationalCalculator.Proofs.Text.Join

/-!
# Strict and lenient evaluation

Lenient evaluation takes the longest complete expression in front of a line, and strict
evaluation wants it to be the whole line. The two modes agree on every fault of the walk and on
every line that is used up. They differ on the lines where something other than an operator
follows the expression, and there strict evaluation names the token.
-/

namespace RationalCalculator

namespace Reading

variable {registers : Registers} {line : String} {j : Nat} {v : Fraction}

/-- The line of the first `j` tokens is accepted in strict mode, and no operator follows it. -/
structure AcceptedUpTo (registers : Registers) (line : String) (j : Nat) (v : Fraction) :
    Prop where
  odd : j % 2 = 1
  le : j ≤ (Token.scan line).length
  accepted : evaluate registers true (Token.front line j) = .ok v
  ends : j = (Token.scan line).length ∨ ∃ t, (Token.scan line)[j]? = some t ∧ t.operator? = none

theorem evaluate_congr {line' : String} (h : Token.scan line = Token.scan line')
    (registers : Registers) (strict : Bool) :
    evaluate registers strict line = evaluate registers strict line' := by
  rw [evaluate, evaluate, h]

/-- A line with a value is passed up to some position. -/
theorem exists_endsAt {strict : Bool} (h : evaluate registers strict line = .ok v) :
    ∃ k, EndsAt registers (Token.scan line) k := by
  cases verdict registers line with
  | empty _ he =>
    rw [he] at h
    contradiction
  | fault _ he =>
    rw [he] at h
    contradiction
  | complete hj _ => exact ⟨_, hj⟩
  | leftOver hj _ _ _ => exact ⟨_, hj⟩

/-- The walk ends behind a tree that cannot be continued. -/
theorem EndsAt.eq_length {e : Expression} {r : List Token}
    (h : EndsAt registers (e.tokens ++ r) j) (hr : Stops r) : j = e.tokens.length := by
  have hj := h.odd
  have he := e.length_tokens_odd
  rcases Nat.lt_trichotomy j e.tokens.length with hlt | heq | hgt
  · obtain ⟨op, hop⟩ := e.operator_of_odd hlt hj
    exact absurd ((List.getElem?_append_left hlt).trans hop) (h.ends op)
  · exact heq
  · obtain ⟨op, hop⟩ := h.reached _ hgt he
    rw [List.getElem?_append_right le_rfl, Nat.sub_self, ← List.head?_eq_getElem?] at hop
    have hno := hr _ hop
    contradiction

theorem stops_drop_of_ends {ts : List Token}
    (h : j = ts.length ∨ ∃ t, ts[j]? = some t ∧ t.operator? = none) : Stops (ts.drop j) := by
  intro t ht
  rw [List.head?_drop, Option.mem_def] at ht
  rcases h with rfl | ⟨u, hu, hno⟩
  · simp at ht
  · rw [hu, Option.some.injEq] at ht
    exact ht ▸ hno

/-- The accepted part of a line is what the walk passes. -/
theorem acceptedUpTo_iff : AcceptedUpTo registers line j v ↔
    EndsAt registers (Token.scan line) j ∧ evaluate registers false line = .ok v := by
  constructor
  · intro h
    obtain ⟨e, r, hts, -, hr, hd, hv⟩ := (evaluate_eq_ok_iff registers true _ v).mp h.accepted
    rw [Token.scan_front, hr rfl, List.append_nil] at hts
    have hsplit : Token.scan line = e.tokens ++ (Token.scan line).drop j := by
      rw [← hts, List.take_append_drop]
    have hstop := stops_drop_of_ends h.ends
    have hl : evaluate registers false line = .ok v :=
      (evaluate_eq_ok_iff registers false line v).mpr
        ⟨e, _, hsplit, hstop, fun hf => by contradiction, hd, hv⟩
    obtain ⟨k, hk⟩ := exists_endsAt hl
    have hk' := hk
    rw [hsplit] at hk'
    have hlen : e.tokens.length = j := by
      rw [← hts, List.length_take, Nat.min_eq_left h.le]
    have hkj : k = j := (hk'.eq_length hstop).trans hlen
    exact ⟨hkj ▸ hk, hl⟩
  · rintro ⟨hj, hl⟩
    obtain ⟨e, r, hts, hstop, -, hd, hv⟩ := (evaluate_eq_ok_iff registers false line v).mp hl
    have hj' := hj
    rw [hts] at hj'
    have hlen := hj'.eq_length hstop
    have htake : Token.scan (Token.front line j) = e.tokens := by
      rw [Token.scan_front, hts, hlen, List.take_left]
    refine ⟨hj.odd, hj.le, ?_, ?_⟩
    · rw [evaluate_eq_ok_iff]
      refine ⟨e, [], ?_, stops_nil, fun _ => rfl, hd, hv⟩
      rw [htake, List.append_nil]
    · rcases hj.le.eq_or_lt with heq | hlt
      · exact .inl heq
      · refine .inr ⟨_, List.getElem?_eq_getElem hlt, ?_⟩
        cases ht : ((Token.scan line)[j]).operator? with
        | none => rfl
        | some op =>
          have hop := Token.eq_operator ht
          exact absurd (List.getElem?_eq_getElem hlt ▸ congrArg some hop) (hj.ends op)

theorem exists_acceptedUpTo_iff :
    evaluate registers false line = .ok v ↔ ∃ j, AcceptedUpTo registers line j v := by
  constructor
  · intro h
    obtain ⟨k, hk⟩ := exists_endsAt h
    exact ⟨k, acceptedUpTo_iff.mpr ⟨hk, h⟩⟩
  · rintro ⟨j, hj⟩
    exact (acceptedUpTo_iff.mp hj).2

theorem AcceptedUpTo.unique {k : Nat} {w : Fraction} (hj : AcceptedUpTo registers line j v)
    (hk : AcceptedUpTo registers line k w) : j = k ∧ v = w := by
  obtain ⟨hej, hv⟩ := acceptedUpTo_iff.mp hj
  obtain ⟨hek, hw⟩ := acceptedUpTo_iff.mp hk
  rw [hv] at hw
  exact ⟨hej.unique hek, Except.ok.inj hw⟩

/-- What follows the accepted part has no influence, as long as it is no operator. -/
theorem AcceptedUpTo.of_take_eq {line' : String} (h : AcceptedUpTo registers line j v)
    (ht : (Token.scan line').take j = (Token.scan line).take j)
    (he : j = (Token.scan line').length ∨
      ∃ t, (Token.scan line')[j]? = some t ∧ t.operator? = none) :
    AcceptedUpTo registers line' j v where
  odd := h.odd
  le := by
    have hlen := congrArg List.length ht
    rw [List.length_take, List.length_take, Nat.min_eq_left h.le] at hlen
    omega
  accepted := by
    have hfront : Token.scan (Token.front line' j) = Token.scan (Token.front line j) := by
      rw [Token.scan_front, Token.scan_front, ht]
    rw [evaluate_congr hfront]
    exact h.accepted
  ends := he

theorem lenient_of_strict (h : evaluate registers true line = .ok v) :
    evaluate registers false line = .ok v := by
  rw [evaluate_eq_ok_iff] at h ⊢
  obtain ⟨e, r, hts, hstop, -, hd, hv⟩ := h
  exact ⟨e, r, hts, hstop, fun hf => by contradiction, hd, hv⟩

/-- The two modes agree unless a token is left over. -/
theorem agree_or_left_over (registers : Registers) (line : String) :
    evaluate registers true line = evaluate registers false line ∨
      ∃ j v, AcceptedUpTo registers line j v ∧ j < (Token.scan line).length := by
  cases verdict registers line with
  | empty _ he => exact .inl ((he true).trans (he false).symm)
  | fault _ he => exact .inl ((he true).trans (he false).symm)
  | complete _ he => exact .inl ((he true).trans (he false).symm)
  | leftOver hj ht hl _ =>
    exact .inr ⟨_, _, acceptedUpTo_iff.mpr ⟨hj, hl⟩, (List.getElem?_eq_some_iff.mp ht).1⟩

theorem strict_of_lenient_error {f : Fault} (h : evaluate registers false line = .error f) :
    evaluate registers true line = .error f := by
  rcases agree_or_left_over registers line with heq | ⟨j, v, hj, -⟩
  · rw [heq, h]
  · have hl := (acceptedUpTo_iff.mp hj).2
    rw [hl] at h
    contradiction

theorem strict_ne_lenient_iff :
    evaluate registers true line ≠ evaluate registers false line ↔
      ∃ j v, AcceptedUpTo registers line j v ∧ j < (Token.scan line).length := by
  constructor
  · exact (agree_or_left_over registers line).resolve_left
  · rintro ⟨j, v, h, hlt⟩ heq
    obtain ⟨hj, hl⟩ := acceptedUpTo_iff.mp h
    rw [hl, evaluate_strict_of_endsAt hj (List.getElem?_eq_getElem hlt)] at heq
    contradiction

end Reading

open Reading

/-- Lenient evaluation gives the strict value of the one part of the line that strict mode
accepts and no operator follows, whatever stands behind it. Strict evaluation gives the same
answer, be it a value or a fault, unless a token is left over, and then it names this token. -/
theorem lenient_and_strict (registers : Registers) (line : String) :
    (∀ v, evaluate registers false line = .ok v ↔ ∃ j, AcceptedUpTo registers line j v) ∧
    (∀ j k v w, AcceptedUpTo registers line j v → AcceptedUpTo registers line k w →
      j = k ∧ v = w) ∧
    (∀ j v, AcceptedUpTo registers line j v → ∀ line' : String,
      (Token.scan line').take j = (Token.scan line).take j →
      (j = (Token.scan line').length ∨
        ∃ t, (Token.scan line')[j]? = some t ∧ t.operator? = none) →
      evaluate registers false line' = .ok v) ∧
    (∀ v, evaluate registers true line = .ok v → evaluate registers false line = .ok v) ∧
    (∀ f, evaluate registers false line = .error f → evaluate registers true line = .error f) ∧
    (evaluate registers true line ≠ evaluate registers false line ↔
      ∃ j v, AcceptedUpTo registers line j v ∧ j < (Token.scan line).length) ∧
    (∀ j v t, AcceptedUpTo registers line j v → (Token.scan line)[j]? = some t →
      evaluate registers true line = .error (.unexpectedToken t.text)) ∧
    (∀ s, (Fault.unexpectedToken s).report = (.invalidOperand, "Unexpected token: " ++ s)) := by
  refine ⟨fun v => exists_acceptedUpTo_iff, fun j k v w => AcceptedUpTo.unique, ?_,
    fun v => lenient_of_strict, fun f => strict_of_lenient_error, strict_ne_lenient_iff, ?_,
    fun _ => rfl⟩
  · intro j v h line' ht he
    exact exists_acceptedUpTo_iff.mpr ⟨j, h.of_take_eq ht he⟩
  · intro j v t h ht
    exact evaluate_strict_of_endsAt (acceptedUpTo_iff.mp h).1 ht

/-- `2 + 3` is accepted in front of `4` and in front of two registers. -/
theorem lenient_and_strict_at_two_operands :
    AcceptedUpTo .empty "2 + 3 4" 3 (.ofInt 5) ∧
    evaluate .empty false "2 + 3 x y" = .ok (.ofInt 5) ∧
    evaluate .empty true "2 + 3 4" = .error (.unexpectedToken "4") := by
  have hs : Token.scan "2 + 3 4" = [.integer "2" 2, .operator .add, .integer "3" 3,
      .integer "4" 4] := by decide +kernel
  have hs' : Token.scan "2 + 3 x y" = [.integer "2" 2, .operator .add, .integer "3" 3,
      .register 'x', .register 'y'] := by decide +kernel
  have h : AcceptedUpTo .empty "2 + 3 4" 3 (.ofInt 5) := by
    refine ⟨rfl, ?_, by decide +kernel, .inr ⟨.integer "4" 4, ?_, rfl⟩⟩
    · rw [hs]
      decide
    · rw [hs]
      rfl
  obtain ⟨-, -, hsuffix, -, -, -, hname, -⟩ := lenient_and_strict .empty "2 + 3 4"
  refine ⟨h, hsuffix 3 _ h "2 + 3 x y" ?_ (.inr ⟨.register 'x', ?_, rfl⟩),
    hname 3 _ (.integer "4" 4) h ?_⟩
  · rw [hs, hs']
    rfl
  · rw [hs']
    rfl
  · rw [hs]
    rfl

end RationalCalculator
