import RationalCalculator.Proofs.Expression.Meaning

/-!
# Reading by recursive descent

The grammar can be read rule by rule: a term is a chain of operands and an expression is a chain
of terms, and each chain is a loop of its own that evaluates from left to right. Here the rules
are written down in this form. The single walk that reads a line gives the same value or fault
as the nested loops, and leaves the same tokens (`Part.read_rule`).
-/

namespace RationalCalculator

namespace Partial

variable {p q : Partial} {op : Operator} {v : Fraction}

/-- An additive operator starts a term, which it joins to what has been read. -/
theorem extend_of_additive (h : op.isAdditive = true) (hq : p.extend op v = .ok q) :
    q.term = v ∧ ∀ t, op.apply p.value t = .ok { q with term := t }.value := by
  cases op with
  | add =>
    obtain rfl := Except.ok.inj hq
    exact ⟨rfl, fun _ => rfl⟩
  | subtract =>
    obtain rfl := Except.ok.inj hq
    exact ⟨rfl, fun _ => rfl⟩
  | multiply => contradiction
  | divide => contradiction

/-- Any other operator is applied to the term alone. -/
theorem extend_of_multiplicative (h : op.isAdditive = false) (hq : p.extend op v = .ok q) :
    op.apply p.term v = .ok q.term ∧ ∀ t, { q with term := t } = { p with term := t } := by
  cases op with
  | add => contradiction
  | subtract => contradiction
  | multiply =>
    obtain rfl := Except.ok.inj hq
    exact ⟨rfl, fun _ => rfl⟩
  | divide =>
    cases ha : Operator.divide.apply p.term v with
    | error f => simp [extend, ha, Except.map] at hq
    | ok t =>
      simp only [extend, ha, Except.map, Except.ok.injEq] at hq
      exact ⟨by rw [← hq], fun _ => by rw [← hq]⟩

theorem value_start_with (v w : Fraction) : { start v with term := w }.value = w := by
  rw [← Fraction.toRat_inj]
  change (Fraction.zero + w).toRat = w.toRat
  rw [Fraction.toRat_add, Fraction.toRat_zero, zero_add]

end Partial

/-- Carry on with the value and the tokens of a reading, unless it ends in a fault. -/
def Reading.andThen (r : Reading) (next : Fraction → List Token → Reading) : Reading :=
  match r.value with
  | .error _ => r
  | .ok v => next v r.rest

theorem Reading.andThen_ok (v : Fraction) (rest : List Token)
    (next : Fraction → List Token → Reading) : andThen ⟨.ok v, rest⟩ next = next v rest :=
  rfl

theorem Reading.andThen_eq_self (r : Reading) : (r.andThen fun v rest => ⟨.ok v, rest⟩) = r := by
  obtain ⟨_ | _, _⟩ := r <;> rfl

theorem Reading.andThen_of_error {r : Reading} {f : Fault} (h : r.value = .error f)
    (next : Fraction → List Token → Reading) : r.andThen next = r := by
  rw [andThen, h]

/-- A rule of the grammar. It is told the token it follows, and leaves no more tokens than it is
given. -/
structure Rule where
  read : Token → List Token → Reading
  short : ∀ t ts, (read t ts).rest.length ≤ ts.length

namespace Rule

/-- As long as an operator of the chain follows, read its right operand by the rule and apply
it. -/
def loop (rule : Rule) (continues : Operator → Bool) (left : Fraction) (ts : List Token) :
    Reading :=
  match ts with
  | [] => ⟨.ok left, []⟩
  | t :: rest =>
    match t.operator? with
    | none => ⟨.ok left, t :: rest⟩
    | some op =>
      if continues op then
        match (rule.read t rest).value with
        | .error _ => rule.read t rest
        | .ok right =>
          match op.apply left right with
          | .error f => ⟨.error f, (rule.read t rest).rest⟩
          | .ok v => loop rule continues v (rule.read t rest).rest
      else ⟨.ok left, t :: rest⟩
termination_by ts.length
decreasing_by
  have h := rule.short t rest
  rw [List.length_cons]
  omega

theorem length_rest_loop (rule : Rule) (continues : Operator → Bool) (left : Fraction)
    (ts : List Token) : (rule.loop continues left ts).rest.length ≤ ts.length := by
  fun_induction loop rule continues left ts with
  | case1 => exact le_rfl
  | case2 => exact le_rfl
  | case3 left t rest op _ _ f _ =>
    have h := rule.short t rest
    rw [List.length_cons]
    omega
  | case4 left t rest op _ _ right _ f _ =>
    have h : (rule.read t rest).rest.length ≤ rest.length := rule.short t rest
    change (rule.read t rest).rest.length ≤ _
    rw [List.length_cons]
    omega
  | case5 left t rest op _ _ right _ v _ ih =>
    have h := rule.short t rest
    rw [List.length_cons]
    omega
  | case6 => exact le_rfl

/-- The rule, then operators of the chain and the rule again. -/
def chain (rule : Rule) (continues : Operator → Bool) : Rule where
  read t ts := (rule.read t ts).andThen (rule.loop continues)
  short t ts := by
    have h := rule.short t ts
    rw [Reading.andThen]
    split
    · exact h
    · exact (rule.length_rest_loop continues _ _).trans h

def operand (registers : Registers) : Rule where
  read
    | t, [] => ⟨.error (.missingOperand t.text), []⟩
    | _, u :: rest => Reading.operand registers u rest
  short t ts := by
    cases ts with
    | nil => exact le_rfl
    | cons u rest => exact Reading.length_rest_operand registers u rest

def term (registers : Registers) : Rule := (operand registers).chain Part.term.continues

def expression (registers : Registers) : Rule := (term registers).chain Operator.isAdditive

variable {registers : Registers}

/-- A chain stops at what is not one of its operators. -/
theorem loop_of_not_continues (rule : Rule) {continues : Operator → Bool} {t : Token}
    (h : ∀ op, t.operator? = some op → continues op = false) (left : Fraction)
    (rest : List Token) : rule.loop continues left (t :: rest) = ⟨.ok left, t :: rest⟩ := by
  rw [loop]
  cases ht : t.operator? with
  | none => rfl
  | some op => simp only [h op ht, Bool.false_eq_true, if_false]

theorem loop_of_error (rule : Rule) {continues : Operator → Bool} {op : Operator}
    (hc : continues op = true) (left : Fraction) {rest : List Token} {f : Fault}
    (hf : (rule.read (.operator op) rest).value = .error f) :
    rule.loop continues left (.operator op :: rest) = rule.read (.operator op) rest := by
  rw [loop]
  simp only [Token.operator?, hc, if_true, hf]

theorem loop_of_continues (rule : Rule) {continues : Operator → Bool} {op : Operator}
    (hc : continues op = true) (left : Fraction) (rest : List Token) :
    rule.loop continues left (.operator op :: rest)
      = (rule.read (.operator op) rest).andThen fun right rest' =>
        match op.apply left right with
        | .error f => ⟨.error f, rest'⟩
        | .ok v => rule.loop continues v rest' := by
  rw [loop]
  simp only [Token.operator?, hc, if_true, Reading.andThen]

theorem read_chain_of_error (rule : Rule) (continues : Operator → Bool) {t : Token}
    {ts : List Token} {f : Fault} (hf : (rule.read t ts).value = .error f) :
    (rule.chain continues).read t ts = rule.read t ts :=
  Reading.andThen_of_error hf _

theorem read_operand_of_value {u : Token} {v : Fraction} (h : u.value registers = .ok v)
    (t : Token) (rest : List Token) : (operand registers).read t (u :: rest) = ⟨.ok v, rest⟩ := by
  obtain ⟨a, rfl, -, -⟩ := Atom.of_value_token h
  simp [operand, Reading.operand, a.operator?_token, h]

theorem read_term_of_value {u : Token} {v : Fraction} (h : u.value registers = .ok v)
    (t : Token) (rest : List Token) : (term registers).read t (u :: rest)
      = (operand registers).loop Part.term.continues v rest := by
  have hu := read_operand_of_value h t rest
  change ((operand registers).read t (u :: rest)).andThen _ = _
  rw [hu]
  rfl

/-- Reading a term, the walk is the inner loop: the sum before the term is only carried along. -/
theorem walk_term (p : Partial) (ts : List Token) :
    Reading.walk .term registers p ts
      = ((operand registers).loop Part.term.continues p.term ts).andThen fun v rest =>
        ⟨.ok { p with term := v }.value, rest⟩ := by
  fun_induction Reading.walk Part.term registers p ts with
  | case1 p =>
    rw [loop]
    rfl
  | case2 p t rest ht =>
    rw [loop_of_not_continues _ (by simp [ht])]
    rfl
  | case3 p t op ht hc =>
    obtain rfl := Token.eq_operator ht
    have hf : ((operand registers).read (.operator op) []).value
        = .error (.missingOperand op.symbol) := rfl
    rw [loop_of_error _ hc _ hf, Reading.andThen_of_error hf]
    rfl
  | case4 p t op ht hc u rest f hf =>
    obtain rfl := Token.eq_operator ht
    have hu : ((operand registers).read (.operator op) (u :: rest)).value = .error f := hf
    rw [loop_of_error _ hc _ hu, Reading.andThen_of_error hu]
    rfl
  | case5 p t op ht hc u rest v hv f hf =>
    obtain rfl := Token.eq_operator ht
    have happly : op.apply p.term v = .error f := by
      rw [Operator.apply_eq_error_iff]
      exact (Partial.extend_eq_error_iff op v f).mp hf
    rw [loop_of_continues _ hc, read_operand_of_value hv]
    simp only [Reading.andThen, happly]
  | case6 p t op ht hc u rest v hv q hq ih =>
    obtain rfl := Token.eq_operator ht
    have hop : op.isAdditive = false := by simpa [Part.continues] using hc
    obtain ⟨happly, hwith⟩ := Partial.extend_of_multiplicative hop hq
    rw [loop_of_continues _ hc, read_operand_of_value hv, ih]
    simp only [Reading.andThen, happly, hwith]
  | case7 p t rest op ht hc =>
    obtain rfl := Token.eq_operator ht
    rw [loop_of_not_continues]
    · rfl
    · rintro op' ⟨⟩
      simpa [Part.continues] using hc

theorem stops_of_additive {op : Operator} (h : op.isAdditive = true) :
    ∀ op', (Token.operator op).operator? = some op' → Part.term.continues op' = false := by
  rintro op' ⟨⟩
  rw [Part.continues, h]
  rfl

theorem continues_of_multiplicative {op : Operator} (h : op.isAdditive = false) :
    Part.term.continues op = true := by
  rw [Part.continues, h]
  rfl

/-- A fault of the next operand ends both loops. -/
theorem loops_of_error {op : Operator} {rest : List Token} {f : Fault} (p : Partial)
    (hf : ((operand registers).read (.operator op) rest).value = .error f) :
    (((operand registers).loop Part.term.continues p.term (.operator op :: rest)).andThen
      fun v rest => (term registers).loop Operator.isAdditive { p with term := v }.value rest)
      = (operand registers).read (.operator op) rest := by
  cases hop : op.isAdditive with
  | false =>
    rw [loop_of_error _ (continues_of_multiplicative hop) _ hf, Reading.andThen_of_error hf]
  | true =>
    have hread : (term registers).read (.operator op) rest
        = (operand registers).read (.operator op) rest := read_chain_of_error _ _ hf
    rw [loop_of_not_continues _ (stops_of_additive hop), Reading.andThen_ok,
      loop_of_error _ hop _ (hread ▸ hf), hread]

/-- Reading an expression, the walk is the outer loop behind the inner one. -/
theorem walk_expression (p : Partial) (ts : List Token) :
    Reading.walk .expression registers p ts
      = ((operand registers).loop Part.term.continues p.term ts).andThen fun v rest =>
        (term registers).loop Operator.isAdditive { p with term := v }.value rest := by
  fun_induction Reading.walk Part.expression registers p ts with
  | case1 p =>
    rw [loop, Reading.andThen_ok, loop]
  | case2 p t rest ht =>
    rw [loop_of_not_continues _ (by simp [ht]), Reading.andThen_ok,
      loop_of_not_continues _ (by simp [ht])]
  | case3 p t op ht hc =>
    obtain rfl := Token.eq_operator ht
    have hu : ((operand registers).read (.operator op) []).value
        = .error (.missingOperand op.symbol) := rfl
    rw [loops_of_error p hu]
    rfl
  | case4 p t op ht hc u rest f hf =>
    obtain rfl := Token.eq_operator ht
    have hu : ((operand registers).read (.operator op) (u :: rest)).value = .error f := hf
    rw [loops_of_error p hu]
    rfl
  | case5 p t op ht hc u rest v hv f hf =>
    obtain rfl := Token.eq_operator ht
    obtain ⟨rfl, rfl, rfl⟩ := (Partial.extend_eq_error_iff op v f).mp hf
    have happly := (Operator.apply_eq_error_iff .divide p.term .zero _).mpr ⟨rfl, rfl, rfl⟩
    rw [loop_of_continues _ rfl, read_operand_of_value hv]
    simp only [Reading.andThen, happly]
  | case6 p t op ht hc u rest v hv q hq ih =>
    obtain rfl := Token.eq_operator ht
    rw [ih]
    -- an additive operator ends the inner loop and is taken by the outer one
    cases hop : op.isAdditive with
    | false =>
      obtain ⟨happly, hwith⟩ := Partial.extend_of_multiplicative hop hq
      rw [loop_of_continues _ (continues_of_multiplicative hop), read_operand_of_value hv]
      simp only [Reading.andThen, happly, hwith]
    | true =>
      obtain ⟨rfl, happly⟩ := Partial.extend_of_additive hop hq
      rw [loop_of_not_continues _ (stops_of_additive hop), Reading.andThen_ok,
        loop_of_continues _ hop, read_term_of_value hv]
      simp only [happly]
  | case7 p t rest op ht hc => simp [Part.continues] at hc

/-- Reading an operand, the walk does not start. -/
theorem walk_operand (p : Partial) (ts : List Token) :
    Reading.walk .operand registers p ts = ⟨.ok p.value, ts⟩ := by
  cases ts with
  | nil => rw [Reading.walk]
  | cons t rest =>
    cases ht : t.operator? with
    | none => rw [Reading.walk, ht]
    | some op => simp [Reading.walk, ht, Part.continues]

end Rule

/-- The rule of a part. -/
def Part.rule (registers : Registers) : Part → Rule
  | operand => .operand registers
  | term => .term registers
  | expression => .expression registers

/-- The one walk reads each part of an expression just as its rule does. -/
theorem Part.read_rule (part : Part) (registers : Registers) (before t : Token)
    (rest : List Token) :
    (part.rule registers).read before (t :: rest) = Reading.read part registers t rest := by
  rw [Reading.read]
  cases hv : t.value registers with
  | error f =>
    have h : ((Rule.operand registers).read before (t :: rest)).value = .error f := hv
    have hterm : (Rule.term registers).read before (t :: rest) = _ :=
      Rule.read_chain_of_error _ _ h
    cases part with
    | operand => rfl
    | term => exact hterm
    | expression => exact (Rule.read_chain_of_error _ _ (hterm ▸ h)).trans hterm
  | ok v =>
    have hterm := Rule.read_term_of_value hv before rest
    cases part with
    | operand =>
      have hstart : (Partial.start v).value = v := Partial.value_start_with v v
      change _ = Reading.walk .operand registers _ _
      rw [Rule.walk_operand, hstart]
      exact Rule.read_operand_of_value hv before rest
    | term =>
      change _ = Reading.walk .term registers _ _
      simp only [Rule.walk_term, Partial.value_start_with, Reading.andThen_eq_self]
      exact hterm
    | expression =>
      change _ = Reading.walk .expression registers _ _
      simp only [Rule.walk_expression, Partial.value_start_with]
      exact congrArg (Reading.andThen · _) hterm

end RationalCalculator
