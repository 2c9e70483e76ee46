import RationalCalculator.Proofs.FrontEnd.ConsoleRun

/-!
# What stops a batch or a console

All that stops a batch or a console is a value that has no text. Such a value is not out of
reach: the largest power of ten that can be read, times ten, is beyond the limit, and the line
that asks for it is short enough to be read in any session.
-/

namespace RationalCalculator

namespace Text

/-- A text with no blank at either end is not shortened. -/
theorem strip_of_not_isBlank {a b : Char} (ha : isBlank a = false) (hb : isBlank b = false)
    (cs : List Char) : strip (a :: (cs ++ [b])) = a :: (cs ++ [b]) := by
  simp [strip, stripEnd, ha, hb]

end Text

namespace Numeral

/-- A power of ten, written out. -/
def powerOfTen (k : Nat) : String := String.ofList ('1' :: List.replicate k '0')

theorem ofDigitChars_zeros (n k : Nat) :
    Nat.ofDigitChars 10 (List.replicate k '0') n = n * Nat.pow 10 k := by
  induction k generalizing n with
  | zero => simp [Nat.ofDigitChars]
  | succ k ih =>
    have hstep : Nat.ofDigitChars 10 (List.replicate (k + 1) '0') n
        = Nat.ofDigitChars 10 (List.replicate k '0') (10 * n) := by
      simp [Nat.ofDigitChars, List.replicate_succ]
    have hpow : Nat.pow 10 (k + 1) = Nat.pow 10 k * 10 := rfl
    rw [hstep, ih, hpow]
    ac_rfl

theorem read_powerOfTen {k : Nat} (h : k < digitLimit) :
    read (powerOfTen k) = .ok (Nat.pow 10 k : Nat) := by
  have hdigits : isDigits ('1' :: List.replicate k '0') = true := by
    have hzero : '0'.isDigit = true := by decide
    simp [isDigits, hzero]
  have hvalue : Nat.ofDigitChars 10 ('1' :: List.replicate k '0') 0 = Nat.pow 10 k := by
    have hstep : Nat.ofDigitChars 10 ('1' :: List.replicate k '0') 0
        = Nat.ofDigitChars 10 (List.replicate k '0') 1 := rfl
    rw [hstep, ofDigitChars_zeros, Nat.one_mul]
  rw [read, powerOfTen, String.toList_ofList, readChars_of_isDigits hdigits (by simpa using h),
    hvalue]

end Numeral

open Numeral (powerOfTen digitLimit)

/-- The line that multiplies a power of ten by ten. -/
def tenfold (k : Nat) : String := Text.join [powerOfTen k, "*", "10"]

theorem toList_tenfold (k : Nat) :
    (tenfold k).toList = '1' :: (List.replicate k '0' ++ [' ', '*', ' ', '1'] ++ ['0']) := by
  rw [tenfold, Text.join, String.intercalate_cons_cons, String.intercalate_cons_cons,
    String.intercalate_singleton, powerOfTen]
  simp

theorem stripped_tenfold (k : Nat) : Text.stripped (tenfold k) = tenfold k := by
  rw [Text.stripped, toList_tenfold, Text.strip_of_not_isBlank (by decide) (by decide),
    ← toList_tenfold, String.ofList_toList]

theorem ofWord_powerOfTen {k : Nat} (h : k < digitLimit) :
    Token.ofWord (powerOfTen k) = .integer (powerOfTen k) (Nat.pow 10 k : Nat) :=
  Token.ofWord_of_read (Numeral.read_powerOfTen h)

theorem ofWord_ten : Token.ofWord "10" = .integer "10" 10 := by decide +kernel

theorem isWord_of_integer {word : String} {n : Int} (h : Token.ofWord word = .integer word n) :
    Text.IsWord word :=
  Token.isWord_of_literal? (v := .ofInt n) (by rw [h, Token.literal?])

theorem split_tenfold {k : Nat} (h : k < digitLimit) :
    Text.split (tenfold k) = [powerOfTen k, "*", "10"] := by
  have hstar : Text.IsWord "*" := by
    refine ⟨by decide, fun c hc => ?_⟩
    obtain rfl : c = '*' := by simpa using hc
    decide
  refine Text.split_join ?_
  simpa only [List.forall_mem_cons] using
    ⟨isWord_of_integer (ofWord_powerOfTen h), hstar, isWord_of_integer ofWord_ten, by simp⟩

theorem scan_tenfold {k : Nat} (h : k < digitLimit) :
    Token.scan (tenfold k) =
      [.integer (powerOfTen k) (Nat.pow 10 k : Nat), .operator .multiply, .integer "10" 10] := by
  have hstar : Token.ofWord "*" = .operator .multiply := by decide +kernel
  rw [Token.scan, split_tenfold h, List.map_cons, List.map_cons, List.map_cons, List.map_nil,
    ofWord_powerOfTen h, hstar, ofWord_ten]

theorem evaluate_tenfold {k : Nat} (h : k < digitLimit) (registers : Registers) (strict : Bool) :
    evaluate registers strict (tenfold k) = .ok (.ofInt (Nat.pow 10 (k + 1) : Nat)) := by
  have hpow : Nat.pow 10 (k + 1) = Nat.pow 10 k * 10 := rfl
  rw [evaluate_eq_ok_iff]
  refine ⟨.term (.times (.atom (.integer (powerOfTen k) (Nat.pow 10 k : Nat))) (.integer "10" 10)),
    [], scan_tenfold h, Reading.stops_nil, fun _ => rfl, ⟨trivial, trivial⟩, ?_⟩
  rw [Fraction.toRat_ofInt, hpow]
  simp only [Expression.value, Term.value, Atom.value]
  push_cast
  rfl

theorem isPlausible_tenfold {k : Nat} (h : k < digitLimit) : isPlausible (tenfold k) = true := by
  have hoperator : isOperatorSymbol (powerOfTen k) = false := by
    rw [Bool.eq_false_iff, ne_eq, isOperatorSymbol, Option.isSome_iff_exists]
    rintro ⟨op, hop⟩
    have hword := ofWord_powerOfTen h
    rw [Token.ofWord, hop] at hword
    cases hword
  have hstar : isPlainNumber "*" = false := by decide
  have hten : isOperatorSymbol "10" = false := by decide
  rw [isPlausible, split_tenfold h]
  simp [hasClash, clash, hoperator, hstar, hten]

theorem ofLine_tenfold (k : Nat) : Command.ofLine (tenfold k) = .evaluate (tenfold k) := by
  obtain ⟨cs, hcs⟩ : ∃ cs, Text.strip (tenfold k).toList = '1' :: cs := by
    rw [toList_tenfold, Text.strip_of_not_isBlank (by decide) (by decide)]
    exact ⟨_, rfl⟩
  rw [Command.ofLine_of_not_isAlpha hcs rfl, stripped_tenfold]

theorem not_isRecall_tenfold (k : Nat) : ¬ Session.IsRecall (tenfold k) := by
  rintro ⟨-, halpha⟩
  have hone := halpha '1'
  rw [toList_tenfold, Text.strip_of_not_isBlank (by decide) (by decide)] at hone
  exact absurd (hone List.mem_cons_self) (by decide)

theorem value_tenfold {k : Nat} (h : k < digitLimit) (s : Session) :
    s.value (tenfold k) = .ok (.ofInt (Nat.pow 10 (k + 1) : Nat)) := by
  have hno := (Session.recalled?_eq_none_iff _).mpr (not_isRecall_tenfold k)
  rw [Session.value, hno]
  exact evaluate_tenfold h _ _

theorem result_evaluate_tenfold {k : Nat} (h : k < digitLimit) (s : Session) :
    (s.evaluate (tenfold k)).result = .ok (.ofInt (Nat.pow 10 (k + 1) : Nat)) := by
  rw [Session.evaluate_of_value (value_tenfold h s)]

theorem not_withinLimit_of_pow {k : Nat} (h : digitLimit ≤ k) :
    ¬ (Fraction.ofInt (Nat.pow 10 k : Nat)).WithinLimit := by
  rw [Fraction.withinLimit_iff]
  rintro ⟨hnum, -⟩
  have hmono {m : Nat} (hm : m ≤ k) : Nat.pow 10 m ≤ Nat.pow 10 k :=
    Nat.pow_le_pow_right (by decide) hm
  rw [Fraction.ofInt, Numeral.isWritable, decide_eq_true_eq, Int.natAbs_natCast] at hnum
  exact Nat.not_lt.mpr (hmono h) hnum

theorem isStore_tenfold (k : Nat) : Batch.isStore (tenfold k) = false := by
  rw [Batch.isStore, toList_tenfold]
  rfl

theorem Batch.stoppedBy_tenfold {k : Nat} (h : k + 1 = digitLimit) (s : Session) :
    Batch.StoppedBy s (tenfold k) :=
  ⟨isStore_tenfold k, _, result_evaluate_tenfold (by omega) s, not_withinLimit_of_pow h.ge⟩

theorem Batch.lastResult_after_tenfold {k : Nat} (h : k + 1 = digitLimit) (s : Session) :
    (Batch.after s (tenfold k)).lastResult = some (.ofInt (Nat.pow 10 digitLimit : Nat)) := by
  have hv := value_tenfold (k := k) (by omega) s
  rw [h] at hv
  rw [after, attempt, isStore_tenfold]
  simp only [Bool.false_eq_true, if_false, Session.session_tryEvaluate,
    Session.evaluate_of_value hv]

theorem Console.stoppedBy_tenfold {k : Nat} (h : k + 1 = digitLimit) (c : Console) :
    c.StoppedBy (tenfold k) :=
  ⟨tenfold k, _, ofLine_tenfold k, isPlausible_tenfold (by omega),
    result_evaluate_tenfold (by omega) c.session, not_withinLimit_of_pow h.ge⟩

/-- A batch and a console come to their end, whatever they are given, unless an argument or a
line evaluates to a value beyond the digit limit. A batch has a status and a line is answered in
all other cases, and in these only. -/
theorem stopped_by_overlong_values_only (approximate : Bool) (s : Session)
    (arguments : List String) (c : Console) (line : String) (inputs : List (Option String)) :
    Batch.Ending approximate s arguments ∧
    ((∃ succeeded, (Batch.run approximate s arguments).result = .ok succeeded) ↔
      ∀ x ∈ visits Batch.after s arguments, ¬ Batch.StoppedBy x.1 x.2) ∧
    ((∃ response, (c.answer approximate line).result = .ok response) ↔ ¬ c.StoppedBy line) ∧
    Console.Ending c inputs (c.run approximate inputs) :=
  ⟨Batch.ending approximate s arguments, Batch.exists_result_run_iff approximate s arguments,
    Console.exists_result_answer_iff c approximate line, Console.ending approximate c inputs⟩

/-- A power of ten is read, but its tenfold cannot be written. The batch has no status and its
second argument is not looked at; the console leaves its second line unread. -/
theorem tenfold_stops_batch_and_console :
    (Batch.run false (.start false) [tenfold 4299, "1"]).result = .error .overlong ∧
    (Batch.run false (.start false) [tenfold 4299, "1"]).session.lastResult
      = some (.ofInt (Nat.pow 10 digitLimit : Nat)) ∧
    ((Console.mk (.start false) true).run false [some (tenfold 4299), some "1"]).result
      = .error .overlong ∧
    ((Console.mk (.start false) true).run false [some (tenfold 4299), some "1"]).unread = 1 := by
  obtain ⟨hr, hs⟩ := Batch.serve_of_stoppedBy false (Batch.stoppedBy_tenfold rfl (.start false))
  obtain ⟨hresult, hsession⟩ := Batch.run_cons_of_error ["1"] hr
  have hends := Console.run_ends (Console.loop_of_stoppedBy false [some "1"] rfl
    (Console.stoppedBy_tenfold rfl (Console.mk (.start false) true)))
  refine ⟨hresult, ?_, hends.result, hends.unread⟩
  rw [hsession, hs]
  exact Batch.lastResult_after_tenfold rfl (.start false)

end RationalCalculator
