import RationalCalculator.Expression.Plausible
import RationalCalculator.Proofs.Session.Recall

/-!
# Plausible lines

In the tokens of an expression operands and operators take turns. Two words that clash are both
operators or both numbers, so a line that strict mode accepts has no two such neighbours: it is
plausible. A strict session that finds a value for a line would therefore have found it without
looking at the words first.
-/

namespace RationalCalculator

theorem isOperatorSymbol_iff (word : String) :
    isOperatorSymbol word = true ↔ ∃ op, Token.ofWord word = .operator op := by
  simp only [isOperatorSymbol, Option.isSome_iff_exists, Token.ofWord_eq_operator_iff,
    Operator.ofSymbol?_eq_some_iff]

theorem isOperatorSymbol_of_length {word : String} (hlen : word.toList.length ≠ 1) :
    isOperatorSymbol word = false := by
  rw [Bool.eq_false_iff, ne_eq, isOperatorSymbol_iff]
  rintro ⟨op, hop⟩
  obtain ⟨d, hd, -⟩ := op.exists_symbol_eq
  rw [(Token.ofWord_eq_operator_iff word op).mp hop, hd, String.toList_singleton] at hlen
  exact hlen rfl

theorem not_isPlainNumber_symbol (op : Operator) : isPlainNumber op.symbol = false := by
  cases op <;> decide

/-- Words that clash are both operators, or neither of them is. -/
theorem operator_iff_of_clash {a b : String} (h : clash a b = true) :
    (∃ op, Token.ofWord a = .operator op) ↔ ∃ op, Token.ofWord b = .operator op := by
  have hnumber {word : String} (hw : isPlainNumber word = true) :
      ¬ ∃ op, Token.ofWord word = .operator op := by
    rintro ⟨op, hop⟩
    rw [(Token.ofWord_eq_operator_iff word op).mp hop, not_isPlainNumber_symbol] at hw
    contradiction
  rw [clash, Bool.or_eq_true, Bool.and_eq_true, Bool.and_eq_true] at h
  rcases h with ⟨ha, hb⟩ | ⟨ha, hb⟩
  · exact iff_of_false (hnumber ha) (hnumber hb)
  · rw [isOperatorSymbol_iff] at ha hb
    exact iff_of_true ha hb

theorem hasClash_eq_false_iff (ws : List String) :
    hasClash ws = false ↔ ws.IsChain fun a b => clash a b = false := by
  induction ws with
  | nil => simp [hasClash]
  | cons a ws ih =>
    rw [List.isChain_cons, ← ih, hasClash, Bool.or_eq_false_iff]
    cases ws.head? with
    | none => simp
    | some b => simp

/-- A line is plausible if no two neighbours clash. -/
theorem isPlausible_iff (line : String) :
    isPlausible line = true ↔
      ∀ ⦃a b before after⦄, Text.split line = before ++ a :: b :: after → clash a b = false := by
  rw [isPlausible, Bool.not_eq_true', hasClash_eq_false_iff,
    List.isChain_iff_forall_rel_of_append_cons_cons]

theorem isPlausible_stripped (line : String) :
    isPlausible (Text.stripped line) = isPlausible line := by
  rw [isPlausible, isPlausible, Text.split_stripped]

/-- A line of the tokens of an expression is plausible. -/
theorem isPlausible_of_tokens {line : String} {e : Expression} (h : e.tokens = Token.scan line) :
    isPlausible line = true := by
  rw [isPlausible_iff]
  intro a b before after hsplit
  have ha : e.tokens[before.length]? = some (Token.ofWord a) := by simp [h, Token.scan, hsplit]
  have hb : e.tokens[before.length + 1]? = some (Token.ofWord b) := by
    simp [h, Token.scan, hsplit]
  by_contra hclash
  have hiff := operator_iff_of_clash (Bool.eq_true_of_not_eq_false hclash)
  rw [e.exists_operator_iff_odd ha, e.exists_operator_iff_odd hb] at hiff
  omega

/-- What strict mode accepts is plausible. -/
theorem isPlausible_of_evaluate {registers : Registers} {line : String} {v : Fraction}
    (h : evaluate registers true line = .ok v) : isPlausible line = true := by
  obtain ⟨e, he, -⟩ := exists_tree_of_evaluate_strict h
  exact isPlausible_of_tokens he

theorem isPlausible_of_split_singleton {line word : String} (h : Text.split line = [word]) :
    isPlausible line = true := by
  rw [isPlausible, h]
  rfl

theorem isPlausible_of_value {s : Session} {line : String} {v : Fraction} (hs : s.strict = true)
    (h : s.value line = .ok v) : isPlausible line = true := by
  cases hr : Session.recalled? line with
  | some c =>
    obtain ⟨cs, hsplit, -⟩ := (Session.recalled?_eq_some_iff line c).mp hr
    exact isPlausible_of_split_singleton hsplit
  | none =>
    rw [Session.value_of_not_recalled hr, hs] at h
    exact isPlausible_of_evaluate h

end RationalCalculator
