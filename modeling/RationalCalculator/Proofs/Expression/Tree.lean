import RationalCalculator.Expression.Reading
import RationalCalculator.Proofs.Fraction.Rational

/-!
# Syntax trees of expressions

The grammar has two levels: an expression is a sum of terms and a term is a product of operands.
Both lists are written here as trees that lean to the left, so the value of a tree is the value
that left-associative arithmetic gives it. A tree has tokens, a rational value, and a condition
under which the value makes sense: its registers hold something and nothing is divided by zero.

Every tree grows from a single operand by adding an operator and an operand on the right
(`Expression.extend_induction`). Reading from left to right follows this growth.
-/

namespace RationalCalculator

/-- An operand of an expression. -/
inductive Atom where
  | integer (text : String) (value : Int)
  | fraction (text : String) (value : Fraction)
  | register (name : Char)

inductive Term where
  | atom (a : Atom)
  | times (t : Term) (a : Atom)
  | dividedBy (t : Term) (a : Atom)

inductive Expression where
  | term (t : Term)
  | plus (e : Expression) (t : Term)
  | minus (e : Expression) (t : Term)

theorem Token.eq_operator {t : Token} {op : Operator} (h : t.operator? = some op) :
    t = .operator op := by
  cases t with
  | operator op' => rw [Option.some.inj h]
  | _ => contradiction

namespace Atom

def token : Atom → Token
  | integer text n => .integer text n
  | fraction text v => .fraction text v
  | register c => .register c

def Defined (registers : Registers) : Atom → Prop
  | register c => ∃ v, registers.get? c = some v
  | _ => True

def value (registers : Registers) : Atom → ℚ
  | integer _ n => n
  | fraction _ v => v.toRat
  | register c => (registers.get? c).elim 0 Fraction.toRat

theorem operator?_token (a : Atom) : a.token.operator? = none := by
  cases a <;> rfl

theorem exists_value_token {registers : Registers} {a : Atom} (h : a.Defined registers) :
    ∃ v, a.token.value registers = .ok v ∧ v.toRat = a.value registers := by
  cases a with
  | integer text n => exact ⟨.ofInt n, rfl, Fraction.toRat_ofInt n⟩
  | fraction text v => exact ⟨v, rfl, rfl⟩
  | register c =>
    obtain ⟨v, hv⟩ := h
    refine ⟨v, ?_, ?_⟩
    · rw [token, Token.value, hv]
    · rw [value, hv, Option.elim_some]

/-- A token with a value is an operand. -/
theorem of_value_token {registers : Registers} {t : Token} {v : Fraction}
    (h : t.value registers = .ok v) :
    ∃ a : Atom, a.token = t ∧ a.Defined registers ∧ v.toRat = a.value registers := by
  cases t with
  | operator op => contradiction
  | invalid text => contradiction
  | integer text n =>
    obtain rfl := Except.ok.inj h
    exact ⟨.integer text n, rfl, trivial, Fraction.toRat_ofInt n⟩
  | fraction text w =>
    obtain rfl := Except.ok.inj h
    exact ⟨.fraction text w, rfl, trivial, rfl⟩
  | register c =>
    cases hw : registers.get? c with
    | none => simp [Token.value, hw] at h
    | some w =>
      simp only [Token.value, hw, Except.ok.injEq] at h
      obtain rfl := h
      refine ⟨.register c, rfl, ⟨w, hw⟩, ?_⟩
      rw [value, hw, Option.elim_some]

end Atom

namespace Term

def tokens : Term → List Token
  | atom a => [a.token]
  | times t a => t.tokens ++ [.operator .multiply, a.token]
  | dividedBy t a => t.tokens ++ [.operator .divide, a.token]

def Defined (registers : Registers) : Term → Prop
  | atom a => a.Defined registers
  | times t a => t.Defined registers ∧ a.Defined registers
  | dividedBy t a => t.Defined registers ∧ a.Defined registers ∧ a.value registers ≠ 0

def value (registers : Registers) : Term → ℚ
  | atom a => a.value registers
  | times t a => t.value registers * a.value registers
  | dividedBy t a => t.value registers / a.value registers

end Term

namespace Expression

def tokens : Expression → List Token
  | term t => t.tokens
  | plus e t => e.tokens ++ .operator .add :: t.tokens
  | minus e t => e.tokens ++ .operator .subtract :: t.tokens

/-- All registers hold a value and no divisor is zero. -/
def Defined (registers : Registers) : Expression → Prop
  | term t => t.Defined registers
  | plus e t | minus e t => e.Defined registers ∧ t.Defined registers

def value (registers : Registers) : Expression → ℚ
  | term t => t.value registers
  | plus e t => e.value registers + t.value registers
  | minus e t => e.value registers - t.value registers

/-- Change the last term. -/
def mapLast (f : Term → Term) : Expression → Expression
  | term t => term (f t)
  | plus e t => plus e (f t)
  | minus e t => minus e (f t)

/-- One more operator and operand on the right: a new term, or a factor of the last one. -/
def extend (e : Expression) (op : Operator) (a : Atom) : Expression :=
  match op with
  | .add => e.plus (.atom a)
  | .subtract => e.minus (.atom a)
  | .multiply => e.mapLast (·.times a)
  | .divide => e.mapLast (·.dividedBy a)

theorem tokens_extend (e : Expression) (op : Operator) (a : Atom) :
    (e.extend op a).tokens = e.tokens ++ [.operator op, a.token] := by
  cases op with
  | add => rfl
  | subtract => rfl
  | multiply => cases e <;> simp [extend, mapLast, tokens, Term.tokens]
  | divide => cases e <;> simp [extend, mapLast, tokens, Term.tokens]

theorem defined_extend_iff (registers : Registers) (e : Expression) (op : Operator) (a : Atom) :
    (e.extend op a).Defined registers ↔ e.Defined registers ∧ a.Defined registers ∧
      (op = .divide → a.value registers ≠ 0) := by
  cases op with
  | add => simp [extend, Defined, Term.Defined]
  | subtract => simp [extend, Defined, Term.Defined]
  | multiply => cases e <;> simp [extend, mapLast, Defined, Term.Defined, and_assoc]
  | divide => cases e <;> simp [extend, mapLast, Defined, Term.Defined, and_assoc]

/-- Every tree grows from an operand on the right. -/
theorem extend_induction {P : Expression → Prop} (atom : ∀ a, P (term (.atom a)))
    (step : ∀ e op a, P e → P (e.extend op a)) (e : Expression) : P e := by
  induction e with
  | term t =>
    induction t with
    | atom a => exact atom a
    | times t a ih => exact step (term t) .multiply a ih
    | dividedBy t a ih => exact step (term t) .divide a ih
  | plus e t he =>
    induction t with
    | atom a => exact step e .add a he
    | times t a ih => exact step (e.plus t) .multiply a ih
    | dividedBy t a ih => exact step (e.plus t) .divide a ih
  | minus e t he =>
    induction t with
    | atom a => exact step e .subtract a he
    | times t a ih => exact step (e.minus t) .multiply a ih
    | dividedBy t a ih => exact step (e.minus t) .divide a ih

theorem length_tokens_odd (e : Expression) : e.tokens.length % 2 = 1 := by
  induction e using extend_induction with
  | atom a => rfl
  | step e op a ih =>
    rw [tokens_extend, List.length_append, List.length_cons, List.length_singleton]
    omega

/-- A token of a tree that has grown is one of the tree before, the new operator or the new
operand. -/
theorem token_extend_cases (e : Expression) (op : Operator) (a : Atom) {i : Nat}
    (hi : i < (e.extend op a).tokens.length) :
    (i < e.tokens.length ∧ (e.extend op a).tokens[i]? = e.tokens[i]?) ∨
    (i = e.tokens.length ∧ (e.extend op a).tokens[i]? = some (.operator op)) ∨
    (i = e.tokens.length + 1 ∧ (e.extend op a).tokens[i]? = some a.token) := by
  rw [tokens_extend] at hi ⊢
  rw [List.length_append, List.length_cons, List.length_singleton] at hi
  obtain hlt | rfl | rfl :
      i < e.tokens.length ∨ i = e.tokens.length ∨ i = e.tokens.length + 1 := by omega
  · exact .inl ⟨hlt, List.getElem?_append_left hlt⟩
  · refine .inr (.inl ⟨rfl, ?_⟩)
    rw [List.getElem?_append_right le_rfl, Nat.sub_self, List.getElem?_cons_zero]
  · refine .inr (.inr ⟨rfl, ?_⟩)
    rw [List.getElem?_append_right (Nat.le_add_right _ 1), Nat.add_sub_cancel_left]
    rfl

/-- Operators stand at the odd positions. -/
theorem operator_of_odd (e : Expression) {i : Nat} (hi : i < e.tokens.length) (ho : i % 2 = 1) :
    ∃ op, e.tokens[i]? = some (.operator op) := by
  induction e using extend_induction generalizing i with
  | atom a =>
    simp only [tokens, Term.tokens, List.length_singleton] at hi
    omega
  | step e op a ih =>
    obtain ⟨hlt, heq⟩ | ⟨-, heq⟩ | ⟨hlast, -⟩ := e.token_extend_cases op a hi
    · rw [heq]
      exact ih hlt ho
    · exact ⟨op, heq⟩
    · have hodd := e.length_tokens_odd
      omega

/-- Operands stand at the even positions. -/
theorem operand_of_even (e : Expression) {i : Nat} (hi : i < e.tokens.length) (he : i % 2 = 0) :
    ∃ a : Atom, e.tokens[i]? = some a.token := by
  induction e using extend_induction generalizing i with
  | atom a =>
    simp only [tokens, Term.tokens, List.length_singleton] at hi
    obtain rfl : i = 0 := by omega
    exact ⟨a, rfl⟩
  | step e op a ih =>
    obtain ⟨hlt, heq⟩ | ⟨hlast, -⟩ | ⟨-, heq⟩ := e.token_extend_cases op a hi
    · rw [heq]
      exact ih hlt he
    · have hodd := e.length_tokens_odd
      omega
    · exact ⟨a, heq⟩

theorem exists_operator_iff_odd (e : Expression) {i : Nat} {t : Token}
    (ht : e.tokens[i]? = some t) : (∃ op, t = .operator op) ↔ i % 2 = 1 := by
  have hi := (List.getElem?_eq_some_iff.mp ht).1
  rcases Nat.mod_two_eq_zero_or_one i with he | ho
  · obtain ⟨a, ha⟩ := e.operand_of_even hi he
    obtain rfl := Option.some.inj (ha.symm.trans ht)
    refine iff_of_false ?_ (by omega)
    rintro ⟨op, hop⟩
    have hno := a.operator?_token
    rw [hop] at hno
    contradiction
  · obtain ⟨op, hop⟩ := e.operator_of_odd hi ho
    exact iff_of_true ⟨op, Option.some.inj (ht.symm.trans hop)⟩ ho

end Expression

end RationalCalculator
