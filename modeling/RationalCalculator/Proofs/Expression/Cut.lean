import RationalCalculator.Proofs.Expression.Correspondence

/-!
# Cutting a line

A line that starts with a complete expression can be cut behind it: the value of the first part
goes into a register, and the second part is read behind this register. When the walk gets to the
cut it holds more than the value of the first part, namely a sum and a last term. An additive
operator asks for the value only. Any other operator continues the last term, so the first part
must be a single term there, of which the walk holds nothing but the value.
-/

namespace RationalCalculator

variable {registers : Registers} {first second : String} {c : Char} {v : Fraction}

theorem Token.scan_append_space (s t : String) : scan (s ++ " " ++ t) = scan s ++ scan t := by
  rw [scan, Text.split_append_space, List.map_append, scan, scan]

/-- A tree without additive operators is a single term. -/
theorem Expression.exists_term_of_not_mem {e : Expression}
    (h : ∀ op : Operator, op.isAdditive = true → .operator op ∉ e.tokens) : ∃ t, e = .term t := by
  cases e with
  | term t => exact ⟨t, rfl⟩
  | plus e t => exact absurd (by simp [tokens]) (h .add rfl)
  | minus e t => exact absurd (by simp [tokens]) (h .subtract rfl)

namespace Partial

variable {p : Partial} {op : Operator}

theorem extend_eq_of_additive (h : op.isAdditive = true) (hp : p.value = v) (w : Fraction) :
    p.extend op w = (start v).extend op w := by
  have hstart : (start v).value = v := value_start_with v v
  cases op with
  | add => rw [extend, extend, hp, hstart]
  | subtract => rw [extend, extend, hp, hstart]
  | multiply => contradiction
  | divide => contradiction

theorem Reads.eq_start {t : Term} (h : p.Reads registers (.term t))
    (hv : v.toRat = t.value registers) : p = start v := by
  obtain ⟨sum, subtracts, term⟩ := p
  have hsum : sum = .zero := (Fraction.toRat_eq_zero_iff sum).mp h.sum
  have hsign : subtracts = false := h.sign
  have hterm : term = v := Fraction.toRat_inj.mp (h.term.trans hv.symm)
  rw [hsum, hsign, hterm, start]

end Partial

/-- The operator does not reach into the first part. -/
def Operator.CutsAfter (op : Operator) (first : String) : Prop :=
  op.isAdditive = true ∨ ∀ op' : Operator, op'.isAdditive = true → op'.symbol ∉ Text.split first

/-- The first part has the value `v`, the second part starts with an operator that does not reach
into it, and the second part makes no use of the register `c`. -/
structure Cut (registers : Registers) (first second : String) (c : Char) (v : Fraction) :
    Prop where
  accepted : evaluate registers true first = .ok v
  operator : ∃ op : Operator, (Text.split second).head? = some op.symbol ∧ op.CutsAfter first
  letter : Text.isLetter c = true
  unused : String.singleton c ∉ Text.split second

namespace Reading

theorem walk_operator_congr {p q : Partial} {op : Operator}
    (h : ∀ v, p.extend op v = q.extend op v) (rest : List Token) :
    walk .expression registers p (.operator op :: rest)
      = walk .expression registers q (.operator op :: rest) := by
  cases rest with
  | nil => rfl
  | cons u rest => simp only [walk, Token.operator?, Part.continues, if_true, h]

/-- Behind a complete expression an operator that does not reach into it finds its value. -/
theorem exists_read_eq_walk {op : Operator} (hfirst : evaluate registers true first = .ok v)
    (hop : op.CutsAfter first) (r : List Token) :
    ∃ t rest, Token.scan first ++ .operator op :: r = t :: rest ∧
      read .expression registers t rest
        = walk .expression registers (.start v) (.operator op :: r) := by
  obtain ⟨e, he, hd, hv⟩ := exists_tree_of_evaluate_strict hfirst
  obtain ⟨p, hp, hread⟩ := exists_walk_of_tree hd
  have hextend : ∀ w, p.extend op w = (Partial.start v).extend op w := by
    rcases hop with hadd | hmem
    · exact Partial.extend_eq_of_additive hadd
        (Fraction.toRat_inj.mp (hp.toRat_value.trans hv.symm))
    · obtain ⟨t, rfl⟩ : ∃ t, e = .term t := by
        refine Expression.exists_term_of_not_mem fun op' hop' hin => hmem op' hop' ?_
        rwa [he, Token.operator_mem_scan_iff] at hin
      intro w
      rw [hp.eq_start hv]
  obtain ⟨t, rest, hts, hw⟩ := hread (.operator op :: r)
  exact ⟨t, rest, he ▸ hts, hw.trans (walk_operator_congr hextend r)⟩

end Reading

/-- Cutting a line and putting the value of the first part into a register leaves the value of
the line, or the kind of its fault, as it was. -/
theorem Cut.kind_evaluate (h : Cut registers first second c v) (strict : Bool) :
    (evaluate (registers.set c v) strict (String.singleton c ++ " " ++ second)).mapError Fault.kind
      = (evaluate registers strict (first ++ " " ++ second)).mapError Fault.kind := by
  obtain ⟨op, hhead, hop⟩ := h.operator
  obtain ⟨ws, hws⟩ := List.head?_eq_some_iff.mp hhead
  have hsecond : Token.scan second = .operator op :: ws.map Token.ofWord := by
    rw [Token.scan, hws, List.map_cons, Token.ofWord_symbol]
  have hvalue : (Token.register c).value (registers.set c v) = .ok v := by
    rw [Token.value, Registers.get?_set, if_pos rfl]
  have halike : List.Forall₂ (Token.Alike registers (registers.set c v)) (Token.scan second)
      (Token.scan second) := by
    refine List.forall₂_same.mpr fun t ht => Token.alike_set ?_ registers v
    rintro rfl
    exact h.unused ((Token.register_mem_scan_iff second c).mp ht).1
  obtain ⟨t, rest, hts, hread⟩ := Reading.exists_read_eq_walk h.accepted hop (ws.map Token.ofWord)
  have hwhole : Token.scan (first ++ " " ++ second) = t :: rest := by
    rw [Token.scan_append_space, hsecond, hts]
  have hrest : Token.scan (String.singleton c ++ " " ++ second)
      = .register c :: Token.scan second := by
    rw [Token.scan_append_space, Token.scan_singleton h.letter, List.singleton_append]
  rw [evaluate_of_scan_cons hwhole, evaluate_of_scan_cons hrest, hread, ← hsecond, Reading.read,
    hvalue]
  exact ((Reading.alike_walk halike .expression _).kind_complete strict).symm

end RationalCalculator
