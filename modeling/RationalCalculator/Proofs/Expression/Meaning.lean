import RationalCalculator.Proofs.Expression.Tree

/-!
# What a line comes to

The walk over a line keeps a sum and a last term. At every step these two belong to a syntax tree
of the tokens read so far (`Partial.Reads`), and each operator with the operand after it extends
the tree on the right. So a walk that succeeds has read a tree to which no operator is left to
be added, and conversely the walk over the tokens of a tree arrives at the value of the tree.
-/

namespace RationalCalculator

namespace Expression

/-- The value of the terms before the last one. -/
def sum (registers : Registers) : Expression → ℚ
  | term _ => 0
  | plus e _ | minus e _ => e.value registers

/-- Is the last term subtracted? -/
def subtracts : Expression → Bool
  | minus _ _ => true
  | _ => false

def last : Expression → Term
  | term t | plus _ t | minus _ t => t

theorem value_eq (registers : Registers) (e : Expression) :
    e.value registers = if e.subtracts then e.sum registers - e.last.value registers
      else e.sum registers + e.last.value registers := by
  cases e with
  | term t => simp [value, subtracts, sum, last]
  | plus e t => rfl
  | minus e t => rfl

theorem sum_mapLast (registers : Registers) (f : Term → Term) (e : Expression) :
    (e.mapLast f).sum registers = e.sum registers := by
  cases e <;> rfl

theorem subtracts_mapLast (f : Term → Term) (e : Expression) :
    (e.mapLast f).subtracts = e.subtracts := by
  cases e <;> rfl

theorem last_mapLast (f : Term → Term) (e : Expression) : (e.mapLast f).last = f e.last := by
  cases e <;> rfl

end Expression

namespace Partial

/-- The partial reading belongs to the tree `e`. -/
structure Reads (registers : Registers) (p : Partial) (e : Expression) : Prop where
  sum : p.sum.toRat = e.sum registers
  sign : p.subtracts = e.subtracts
  term : p.term.toRat = e.last.value registers

variable {registers : Registers} {p : Partial} {e : Expression}

theorem reads_start {a : Atom} {v : Fraction} (hv : v.toRat = a.value registers) :
    (start v).Reads registers (.term (.atom a)) where
  sum := Fraction.toRat_zero
  sign := rfl
  term := hv

theorem Reads.toRat_value (h : p.Reads registers e) : p.value.toRat = e.value registers := by
  rw [Expression.value_eq, ← h.sum, ← h.sign, ← h.term, value]
  split
  · exact Fraction.toRat_sub _ _
  · exact Fraction.toRat_add _ _

theorem extend_eq_error_iff (op : Operator) (v : Fraction) (f : Fault) :
    p.extend op v = .error f ↔ op = .divide ∧ v = .zero ∧ f = .divisionByZero := by
  rw [← Operator.apply_eq_error_iff op p.term v f]
  cases op with
  | add => simp [extend, Operator.apply]
  | subtract => simp [extend, Operator.apply]
  | multiply => simp [extend, Operator.apply, Except.map]
  | divide => cases h : Operator.divide.apply p.term v <;> simp [extend, h, Except.map]

/-- A step of the walk extends the tree on the right. -/
theorem Reads.extend {q : Partial} {op : Operator} {a : Atom} {v : Fraction}
    (h : p.Reads registers e) (hv : v.toRat = a.value registers) (hq : p.extend op v = .ok q) :
    q.Reads registers (e.extend op a) := by
  cases op with
  | add =>
    obtain rfl := Except.ok.inj hq
    exact ⟨h.toRat_value, rfl, hv⟩
  | subtract =>
    obtain rfl := Except.ok.inj hq
    exact ⟨h.toRat_value, rfl, hv⟩
  | multiply =>
    simp only [Partial.extend, Operator.apply, Except.map, Except.ok.injEq] at hq
    obtain rfl := hq
    refine ⟨?_, ?_, ?_⟩
    · rw [Expression.extend, Expression.sum_mapLast, h.sum]
    · rw [Expression.extend, Expression.subtracts_mapLast, h.sign]
    · rw [Expression.extend, Expression.last_mapLast, Term.value, ← h.term, ← hv]
      exact Fraction.toRat_mul _ _
  | divide =>
    cases ha : Operator.divide.apply p.term v with
    | error f => simp [Partial.extend, ha, Except.map] at hq
    | ok t =>
      simp only [Partial.extend, ha, Except.map, Except.ok.injEq] at hq
      obtain rfl := hq
      obtain ⟨-, ht⟩ := Fraction.toRat_of_divide_apply ha
      refine ⟨?_, ?_, ?_⟩
      · rw [Expression.extend, Expression.sum_mapLast, h.sum]
      · rw [Expression.extend, Expression.subtracts_mapLast, h.sign]
      · rw [Expression.extend, Expression.last_mapLast, Term.value, ← h.term, ← hv]
        exact ht

/-- A step succeeds unless it divides by zero. -/
theorem exists_extend {op : Operator} {a : Atom} {v : Fraction}
    (hv : v.toRat = a.value registers) (hz : op = .divide → a.value registers ≠ 0) :
    ∃ q, p.extend op v = .ok q := by
  cases hq : p.extend op v with
  | ok q => exact ⟨q, rfl⟩
  | error f =>
    obtain ⟨hop, rfl, -⟩ := (extend_eq_error_iff op v f).mp hq
    exact absurd (hv ▸ Fraction.toRat_zero) (hz hop)

/-- A divisor that is let through is not zero. -/
theorem ne_zero_of_extend {q : Partial} {op : Operator} {a : Atom} {v : Fraction}
    (hv : v.toRat = a.value registers) (hq : p.extend op v = .ok q) (hop : op = .divide) :
    a.value registers ≠ 0 := by
  intro hz
  have hv0 : v = .zero := (Fraction.toRat_eq_zero_iff v).mp (hv.trans hz)
  have hf := (extend_eq_error_iff (p := p) op v .divisionByZero).mpr ⟨hop, hv0, rfl⟩
  rw [hq] at hf
  contradiction

end Partial

namespace Reading

/-- No operator continues an expression that ends before these tokens. -/
def Stops (ts : List Token) : Prop := ∀ t ∈ ts.head?, t.operator? = none

variable {registers : Registers}

theorem stops_nil : Stops [] := by
  intro t ht
  contradiction

theorem walk_of_stops {ts : List Token} (h : Stops ts) (part : Part) (p : Partial) :
    walk part registers p ts = ⟨.ok p.value, ts⟩ := by
  cases ts with
  | nil => rw [walk]
  | cons t ts =>
    have ht : t.operator? = none := h t rfl
    rw [walk, ht]

theorem walk_operator {p q : Partial} {op : Operator} {u : Token} {v : Fraction}
    (hv : u.value registers = .ok v) (hq : p.extend op v = .ok q) (rest : List Token) :
    walk .expression registers p (.operator op :: u :: rest)
      = walk .expression registers q rest := by
  simp only [walk, Token.operator?, Part.continues, if_true, hv, hq]

/-- Soundness: the walk has extended its tree to one of all the tokens it has read. -/
theorem exists_tree_of_walk {p : Partial} {e : Expression} {ts r : List Token} {v : Fraction}
    (hp : p.Reads registers e) (hd : e.Defined registers)
    (h : walk .expression registers p ts = ⟨.ok v, r⟩) :
    ∃ e' : Expression, e.tokens ++ ts = e'.tokens ++ r ∧ Stops r ∧ e'.Defined registers ∧
      v.toRat = e'.value registers := by
  fun_induction walk Part.expression registers p ts generalizing e with
  | case1 p =>
    cases h
    exact ⟨e, rfl, stops_nil, hd, hp.toRat_value⟩
  | case2 p t rest ht =>
    cases h
    refine ⟨e, rfl, ?_, hd, hp.toRat_value⟩
    intro u hu
    simp only [List.head?_cons, Option.mem_def, Option.some.injEq] at hu
    rw [← hu, ht]
  | case3 => cases h
  | case4 p t op hop hc u rest f hf => simp [operand, hf] at h
  | case5 => cases h
  | case6 p t op hop hc u rest v' hv q hq ih =>
    obtain ⟨a, rfl, ha, hva⟩ := Atom.of_value_token hv
    have hz := Partial.ne_zero_of_extend hva hq
    have hd' := (Expression.defined_extend_iff registers e op a).mpr ⟨hd, ha, hz⟩
    obtain ⟨e', hts, hr⟩ := ih (hp.extend hva hq) hd' h
    refine ⟨e', ?_, hr⟩
    rw [← hts, Expression.tokens_extend, Token.eq_operator hop]
    simp
  | case7 p t rest op hop hc => simp [Part.continues] at hc

/-- Completeness: reading the tokens of a tree arrives at a partial reading of the tree. -/
theorem exists_walk_of_tree {e : Expression} (hd : e.Defined registers) :
    ∃ p : Partial, p.Reads registers e ∧ ∀ r, ∃ t rest, e.tokens ++ r = t :: rest ∧
      read .expression registers t rest = walk .expression registers p r := by
  induction e using Expression.extend_induction with
  | atom a =>
    obtain ⟨v, hv, hva⟩ := Atom.exists_value_token hd
    refine ⟨.start v, Partial.reads_start hva, fun r => ⟨a.token, r, rfl, ?_⟩⟩
    rw [read, hv]
  | step e op a ih =>
    obtain ⟨hde, ha, hz⟩ := (Expression.defined_extend_iff registers e op a).mp hd
    obtain ⟨p, hp, hread⟩ := ih hde
    obtain ⟨v, hv, hva⟩ := Atom.exists_value_token ha
    obtain ⟨q, hq⟩ := Partial.exists_extend (p := p) hva hz
    refine ⟨q, hp.extend hva hq, fun r => ?_⟩
    obtain ⟨t, rest, hts, hw⟩ := hread (.operator op :: a.token :: r)
    refine ⟨t, rest, ?_, ?_⟩
    · rw [← hts, Expression.tokens_extend]
      simp
    · rw [hw, walk_operator hv hq]

/-- A reading succeeds exactly if it starts with a tree that cannot be continued. -/
theorem read_eq_ok_iff (t : Token) (rest r : List Token) (v : Fraction) :
    read .expression registers t rest = ⟨.ok v, r⟩ ↔
      ∃ e : Expression, t :: rest = e.tokens ++ r ∧ Stops r ∧ e.Defined registers ∧
        v.toRat = e.value registers := by
  constructor
  · intro h
    rw [read] at h
    split at h
    next f hf => simp [operand, hf] at h
    next w hw =>
      obtain ⟨a, rfl, ha, hwa⟩ := Atom.of_value_token hw
      exact exists_tree_of_walk (e := .term (.atom a)) (Partial.reads_start hwa) ha h
  · rintro ⟨e, hts, hr, hd, hv⟩
    obtain ⟨p, hp, hread⟩ := exists_walk_of_tree hd
    obtain ⟨t', rest', hts', hw⟩ := hread r
    rw [← hts, List.cons.injEq] at hts'
    obtain ⟨rfl, rfl⟩ := hts'
    have hpv : p.value = v := Fraction.toRat_inj.mp (hp.toRat_value.trans hv.symm)
    rw [hw, walk_of_stops hr, hpv]

theorem value_complete_eq_ok_iff (strict : Bool) (r : Reading) (v : Fraction) :
    (r.complete strict).value = .ok v ↔ r.value = .ok v ∧ (strict = true → r.rest = []) := by
  obtain ⟨value, rest⟩ := r
  cases value with
  | error f => simp [complete]
  | ok w =>
    cases rest with
    | nil => simp [complete]
    | cons t rest => cases strict <;> simp [complete]

end Reading

/-- A line has a value exactly if it starts with a tree that cannot be continued; in strict mode
the tree has to be the whole line. -/
theorem evaluate_eq_ok_iff (registers : Registers) (strict : Bool) (line : String) (v : Fraction) :
    evaluate registers strict line = .ok v ↔
      ∃ (e : Expression) (r : List Token), Token.scan line = e.tokens ++ r ∧ Reading.Stops r ∧
        (strict = true → r = []) ∧ e.Defined registers ∧ v.toRat = e.value registers := by
  unfold evaluate
  split
  next hs =>
    refine ⟨fun h => by contradiction, ?_⟩
    rintro ⟨e, r, hts, -⟩
    have hodd := e.length_tokens_odd
    have hlen := congrArg List.length hts
    rw [hs, List.length_nil, List.length_append] at hlen
    omega
  next t rest hs =>
    rw [hs, Reading.value_complete_eq_ok_iff]
    constructor
    · rintro ⟨hv, hr⟩
      have hread : Reading.read .expression registers t rest = ⟨.ok v, _⟩ :=
        congrArg (Reading.mk · _) hv
      obtain ⟨e, hts, hstop, hd, hval⟩ := (Reading.read_eq_ok_iff t rest _ v).mp hread
      exact ⟨e, _, hts, hstop, hr, hd, hval⟩
    · rintro ⟨e, r, hts, hstop, hr, hd, hval⟩
      rw [(Reading.read_eq_ok_iff t rest r v).mpr ⟨e, hts, hstop, hd, hval⟩]
      exact ⟨rfl, hr⟩

/-- In strict mode a line has a value exactly if its tokens are those of a tree in which every
register holds something and nothing is divided by zero, and the value is that of the tree. -/
theorem evaluate_strict_eq_ok_iff (registers : Registers) (line : String) (v : Fraction) :
    evaluate registers true line = .ok v ↔
      ∃ e : Expression, e.tokens = Token.scan line ∧ e.Defined registers ∧
        v.toRat = e.value registers := by
  rw [evaluate_eq_ok_iff]
  constructor
  · rintro ⟨e, r, hts, -, hr, hd, hv⟩
    rw [hr rfl, List.append_nil] at hts
    exact ⟨e, hts.symm, hd, hv⟩
  · rintro ⟨e, hts, hd, hv⟩
    refine ⟨e, [], ?_, Reading.stops_nil, fun _ => rfl, hd, hv⟩
    rw [hts, List.append_nil]

example : evaluate .empty true "1 + 2 * 3 - 4 / 8" = .ok (.reduce 13 2 (by decide)) := by
  decide +kernel

end RationalCalculator
