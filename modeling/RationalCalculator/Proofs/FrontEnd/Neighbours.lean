import RationalCalculator.Proofs.Expression.PlainNumber
import RationalCalculator.Proofs.FrontEnd.ConsoleRun

/-!
# Neighbouring words at the console

A lenient session gives the value of an expression and ignores what does not continue it, for
instance a second number. A console therefore looks at the words of a line first. It refuses every
line with two operators in a row, and every line with two literals in a row unless one of them has a
plus sign. Such a pair is overlooked, and the second literal is dropped from the result.
-/

namespace RationalCalculator

variable {approximate : Bool} {c : Console} {line a b : String} {v w : Fraction}

/-- The console refuses an implausible line before the session sees it. -/
theorem Console.answer_of_not_isPlausible (approximate : Bool) (c : Console)
    (hline : Command.ofLine line = .evaluate (Text.stripped line))
    (hp : isPlausible line = false) :
    c.answer approximate line = ⟨.ok (.refused "Error: Invalid expression format"), c, []⟩ := by
  rw [answer, hline]
  rw [← isPlausible_stripped] at hp
  simp only [evaluate, hp, Bool.false_eq_true, if_false]

/-- A plausible line is answered with its value, if this can be shown. -/
theorem Console.answer_of_value (approximate : Bool) (c : Console)
    (hline : Command.ofLine line = .evaluate (Text.stripped line))
    (hp : isPlausible line = true) (hv : c.session.value line = .ok v) (hw : v.WithinLimit) :
    ∃ text, display approximate v = .ok text ∧
      (c.answer approximate line).result = .ok (.accepted s!"Result: {text}") := by
  obtain ⟨text, htext⟩ := (exists_display_iff approximate v).mpr hw
  have hvalue := Session.evaluate_of_value ((c.session.value_stripped line).trans hv)
  rw [← isPlausible_stripped] at hp
  refine ⟨text, htext, ?_⟩
  rw [answer, hline]
  simp only [evaluate, hp, if_true, hvalue, htext]

namespace Token

theorem split_literals (ha : (ofWord a).literal? = some v) (hb : (ofWord b).literal? = some w) :
    Text.split (Text.join [a, b]) = [a, b] := by
  refine Text.split_join ?_
  simpa only [List.forall_mem_cons] using ⟨isWord_of_literal? ha, isWord_of_literal? hb, by simp⟩

/-- A lenient reading ends behind the first of two literals. -/
theorem evaluate_literals (ha : (ofWord a).literal? = some v) (hb : (ofWord b).literal? = some w)
    (registers : Registers) : evaluate registers false (Text.join [a, b]) = .ok v := by
  have hscan : scan (Text.join [a, b]) = [ofWord a, ofWord b] := by
    rw [scan, split_literals ha hb, List.map_cons, List.map_singleton]
  have hno : (ofWord b).operator? = none := by
    cases ht : ofWord b with
    | operator op =>
      rw [ht] at hb
      contradiction
    | _ => rfl
  have hv : (Partial.start v).value = v := Partial.value_start_with v v
  rw [evaluate_of_scan_cons hscan, Reading.read, value_of_literal? ha registers]
  simp only [Reading.walk, hno, Reading.complete, hv, Bool.false_eq_true, if_false]

theorem value_literals (ha : (ofWord a).literal? = some v) (hb : (ofWord b).literal? = some w)
    {s : Session} (hs : s.strict = false) : s.value (Text.join [a, b]) = .ok v := by
  have hno : Session.recalled? (Text.join [a, b]) = none :=
    Session.recalled?_eq_none_of_split (split_literals ha hb)
  rw [Session.value_of_not_recalled hno, hs, evaluate_literals ha hb]

/-- A line that starts with a literal is no command. -/
theorem ofLine_literals (ha : (ofWord a).literal? = some v) (b : String) :
    Command.ofLine (Text.join [a, b]) = .evaluate (Text.stripped (Text.join [a, b])) := by
  obtain ⟨hne, hblank⟩ := isWord_of_literal? ha
  have hline : (Text.join [a, b]).toList = a.toList ++ ' ' :: b.toList := by
    rw [Text.join, String.intercalate_cons_cons, String.intercalate_singleton]
    simp
  cases hs : a.toList with
  | nil => exact absurd (String.toList_eq_nil_iff.mp hs) hne
  | cons x xs =>
    have hx : x ∈ a.toList := hs ▸ List.mem_cons_self
    obtain ⟨ds, hds⟩ := Text.exists_strip_cons (xs ++ ' ' :: b.toList) (hblank x hx)
    rw [← List.cons_append, ← hs, ← hline] at hds
    exact Command.ofLine_of_not_isAlpha hds (not_isAlpha_of_literal? ha hx)

end Token

/-- The words stand next to each other in the line. -/
def Neighbours (line a b : String) : Prop :=
  ∃ before after, Text.split line = before ++ a :: b :: after

/-- There is a plus sign in one of the words. -/
def HasPlus (a b : String) : Prop := '+' ∈ a.toList ∨ '+' ∈ b.toList

theorem not_isPlausible_of_clash (hline : Neighbours line a b) (h : clash a b = true) :
    isPlausible line = false := by
  obtain ⟨before, after, hsplit⟩ := hline
  rw [Bool.eq_false_iff]
  intro hp
  rw [(isPlausible_iff line).mp hp hsplit] at h
  contradiction

theorem clash_eq_false_of_hasPlus (ha : (Token.ofWord a).literal? = some v)
    (hb : (Token.ofWord b).literal? = some w) (h : HasPlus a b) : clash a b = false := by
  rw [Bool.eq_false_iff]
  intro hclash
  obtain ⟨hpa, hpb⟩ := (Token.clash_of_literals_iff ha hb).mp hclash
  exact h.elim hpa hpb

theorem isPlausible_literals_of_hasPlus (ha : (Token.ofWord a).literal? = some v)
    (hb : (Token.ofWord b).literal? = some w) (h : HasPlus a b) :
    isPlausible (Text.join [a, b]) = true := by
  rw [isPlausible, Token.split_literals ha hb, Bool.not_eq_true', hasClash_eq_false_iff,
    List.isChain_pair]
  exact clash_eq_false_of_hasPlus ha hb h

/-- Two operators in a row are refused, and so are two literals in a row without a plus sign. Two
literals with a plus sign are not refused by themselves, and a lenient console answers them with the
first. -/
theorem neighbours_refused_unless_plus (hline : Neighbours line a b) :
    (∀ op op' : Operator, Token.ofWord a = .operator op → Token.ofWord b = .operator op' →
      isPlausible line = false) ∧
    (∀ v w : Fraction, (Token.ofWord a).literal? = some v → (Token.ofWord b).literal? = some w →
      ¬ HasPlus a b →
        isPlausible line = false ∧ ∀ (approximate : Bool) (c : Console),
          Command.ofLine line = .evaluate (Text.stripped line) →
            (c.answer approximate line).result
              = .ok (.refused "Error: Invalid expression format")) ∧
    (∀ v w : Fraction, (Token.ofWord a).literal? = some v → (Token.ofWord b).literal? = some w →
      HasPlus a b →
        isPlausible (Text.join [a, b]) = true ∧ ∀ (approximate : Bool) (c : Console),
          c.session.strict = false → ∃ text, display approximate v = .ok text ∧
            (c.answer approximate (Text.join [a, b])).result
              = .ok (.accepted s!"Result: {text}")) := by
  refine ⟨?_, ?_, ?_⟩
  · intro op op' ha hb
    exact not_isPlausible_of_clash hline (Token.clash_of_operators ha hb)
  · intro v w ha hb hplus
    have hclash := (Token.clash_of_literals_iff ha hb).mpr (not_or.mp hplus)
    have hp := not_isPlausible_of_clash hline hclash
    refine ⟨hp, fun approximate c hevaluate => ?_⟩
    rw [Console.answer_of_not_isPlausible approximate c hevaluate hp]
  · intro v w ha hb hplus
    have hp := isPlausible_literals_of_hasPlus ha hb hplus
    refine ⟨hp, fun approximate c hstrict => ?_⟩
    have hvalue := Token.value_literals ha hb hstrict
    have hlimit := Token.withinLimit_of_literal? ha
    exact Console.answer_of_value approximate c (Token.ofLine_literals ha b) hp hvalue hlimit

/-- Two operators, two numbers with a minus sign in between other words, and two numbers of which
one has a plus sign behind its slash. -/
theorem neighbours_refused_unless_plus_at :
    (Neighbours "a * - 2" "*" "-" ∧ isPlausible "a * - 2" = false) ∧
    (Neighbours " 2 -3/4 *" "2" "-3/4" ∧ ¬ HasPlus "2" "-3/4" ∧
      isPlausible " 2 -3/4 *" = false) ∧
    (HasPlus "6/+8" "5" ∧ ∃ text, display false (.reduce 3 4 (by decide)) = .ok text ∧
      ((Console.mk (.start false) true).answer false "6/+8 5").result
        = .ok (.accepted s!"Result: {text}")) := by
  have hfirst : Neighbours "a * - 2" "*" "-" := ⟨["a"], ["2"], by decide +kernel⟩
  have hsecond : Neighbours " 2 -3/4 *" "2" "-3/4" := ⟨[], ["*"], by decide +kernel⟩
  have hthird : Neighbours "6/+8 5" "6/+8" "5" := ⟨[], [], by decide +kernel⟩
  obtain ⟨hoperators, -, -⟩ := neighbours_refused_unless_plus hfirst
  obtain ⟨-, hnumbers, -⟩ := neighbours_refused_unless_plus hsecond
  obtain ⟨-, -, hplus⟩ := neighbours_refused_unless_plus hthird
  have hno : ¬ HasPlus "2" "-3/4" := by simp [HasPlus]
  have hsign : HasPlus "6/+8" "5" := by simp [HasPlus]
  refine ⟨⟨hfirst, hoperators .multiply .subtract rfl rfl⟩, ⟨hsecond, hno, ?_⟩, hsign, ?_⟩
  · exact (hnumbers (.ofInt 2) (.reduce (-3) 4 (by decide)) (by decide +kernel)
      (by decide +kernel) hno).1
  · exact (hplus (.reduce 3 4 (by decide)) (.ofInt 5) (by decide +kernel) (by decide +kernel)
      hsign).2 false _ rfl

/-- The second number has a plus sign: the line is taken for plausible, and the result is the first
number. -/
theorem signed_number_is_dropped :
    Neighbours "1 +2" "1" "+2" ∧ (Token.ofWord "1").literal? = some (.ofInt 1) ∧
    (Token.ofWord "+2").literal? = some (.ofInt 2) ∧ isPlausible "1 +2" = true ∧
    ((Console.mk (.start false) true).answer false "1 +2").result = .ok (.accepted "Result: 1") :=
  ⟨⟨[], [], by decide +kernel⟩, by decide +kernel, by decide +kernel, by decide +kernel,
    by decide +kernel⟩

end RationalCalculator
