import RationalCalculator.Proofs.Expression.Shape

/-!
# Lines that read alike

A walk asks two things of a token: which operator it is, if it is one, and what it is worth as an
operand. Two lists of tokens that answer alike, one by one, each over registers of its own, are
therefore walked in the same steps (`Reading.alike_walk`). What is left over may differ in its
words, and these are seen in the message of a strict reading; its kind of fault is the same.
-/

namespace RationalCalculator

variable {registers registers' : Registers}

/-- A walk over the one registers does to `t` what a walk over the others does to `u`. -/
structure Token.Alike (registers registers' : Registers) (t u : Token) : Prop where
  operator : t.operator? = u.operator?
  value : t.value registers = u.value registers'

theorem Token.Alike.eq_of_operator {t u : Token} {op : Operator}
    (h : t.Alike registers registers' u) (ht : t.operator? = some op) : t = u := by
  rw [eq_operator ht, eq_operator (h.operator.symm.trans ht)]

/-- Storing under a name changes nothing for the tokens that are not its register. -/
theorem Token.alike_set {t : Token} {c : Char} (h : t ≠ .register c) (registers : Registers)
    (v : Fraction) : t.Alike registers (registers.set c v) t where
  operator := rfl
  value := by
    cases t with
    | register d =>
      have hne : c ≠ d := fun he => h (congrArg _ he.symm)
      rw [value, value, Registers.get?_set, if_neg hne]
    | operator op => rfl
    | fraction text w => rfl
    | integer text n => rfl
    | invalid text => rfl

namespace Reading

structure Alike (registers registers' : Registers) (r r' : Reading) : Prop where
  value : r.value = r'.value
  rest : List.Forall₂ (Token.Alike registers registers') r.rest r'.rest

variable {t u : Token} {ts us : List Token}

theorem alike_operand (h : t.Alike registers registers' u)
    (hrest : List.Forall₂ (Token.Alike registers registers') ts us) :
    Alike registers registers' (operand registers t ts) (operand registers' u us) where
  value := h.value
  rest := by
    simp only [operand, ← h.operator]
    split
    · exact .cons h hrest
    · exact hrest

theorem alike_walk (h : List.Forall₂ (Token.Alike registers registers') ts us) (part : Part)
    (p : Partial) :
    Alike registers registers' (walk part registers p ts) (walk part registers' p us) := by
  fun_induction walk part registers p ts generalizing us with
  | case1 p =>
    cases h
    exact ⟨rfl, .nil⟩
  | case2 p t rest ht =>
    obtain _ | ⟨htu, hrest⟩ := h
    rw [walk, ← htu.operator, ht]
    exact ⟨rfl, .cons htu hrest⟩
  | case3 p t op ht hc =>
    obtain _ | ⟨htu, ⟨⟩⟩ := h
    -- The fault names the operator, so here the two have to be the same token.
    obtain rfl := htu.eq_of_operator ht
    simp only [walk, ht, hc, if_true]
    exact ⟨rfl, .nil⟩
  | case4 p t op ht hc u rest f hf =>
    obtain _ | ⟨htu, _ | ⟨hu, hrest⟩⟩ := h
    simp only [walk, ← htu.operator, ht, hc, if_true, ← hu.value, hf]
    exact alike_operand hu hrest
  | case5 p t op ht hc u rest v hv f hf =>
    obtain _ | ⟨htu, _ | ⟨hu, hrest⟩⟩ := h
    simp only [walk, ← htu.operator, ht, hc, if_true, ← hu.value, hv, hf]
    exact ⟨rfl, hrest⟩
  | case6 p t op ht hc u rest v hv q hq ih =>
    obtain _ | ⟨htu, _ | ⟨hu, hrest⟩⟩ := h
    simp only [walk, ← htu.operator, ht, hc, if_true, ← hu.value, hv, hq]
    exact ih hrest
  | case7 p t rest op ht hc =>
    obtain _ | ⟨htu, hrest⟩ := h
    simp only [walk, ← htu.operator, ht, hc]
    exact ⟨rfl, .cons htu hrest⟩

theorem alike_read (h : t.Alike registers registers' u)
    (hrest : List.Forall₂ (Token.Alike registers registers') ts us) (part : Part) :
    Alike registers registers' (read part registers t ts) (read part registers' u us) := by
  rw [read, read, ← h.value]
  split
  · exact alike_operand h hrest
  · exact alike_walk hrest part _

/-- Readings that are alike complete to the same value or to faults of the same kind. -/
theorem Alike.kind_complete {r r' : Reading} (h : r.Alike registers registers' r')
    (strict : Bool) :
    (r.complete strict).value.mapError Fault.kind
      = (r'.complete strict).value.mapError Fault.kind := by
  obtain ⟨value, rest⟩ := r
  obtain ⟨value', rest'⟩ := r'
  obtain ⟨rfl, hrest⟩ := h
  cases value with
  | error f => rfl
  | ok v =>
    cases hrest with
    | nil => rfl
    | cons _ _ => cases strict <;> rfl

end Reading

/-- Lines of tokens that are alike come to the same value or to faults of the same kind. -/
theorem kind_evaluate_of_alike {line line' : String}
    (h : List.Forall₂ (Token.Alike registers registers') (Token.scan line) (Token.scan line'))
    (strict : Bool) :
    (evaluate registers strict line).mapError Fault.kind
      = (evaluate registers' strict line').mapError Fault.kind := by
  rw [evaluate, evaluate]
  generalize Token.scan line = ts at h ⊢
  generalize Token.scan line' = us at h ⊢
  cases h with
  | nil => rfl
  | cons ht hrest => exact (Reading.alike_read ht hrest .expression).kind_complete strict

end RationalCalculator
