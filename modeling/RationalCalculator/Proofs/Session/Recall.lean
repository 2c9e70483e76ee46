import RationalCalculator.Proofs.Expression.Shape
import RationalCalculator.Proofs.Expression.Strictness
import RationalCalculator.Proofs.Session.Answers

/-!
# Reading back what was stored

Whether a line recalls a register or is read as an expression is decided by its words: it recalls
one if it has a single word of ASCII letters. So the value of a line depends on its words alone,
and a line of one letter comes to what the register holds, whichever way it is read.

Storing takes any character for the name of a register. Such a register is read back by its name
if the name is a letter. The line of a digit is the number instead, and any other character on its
own is no expression.
-/

namespace RationalCalculator

namespace Session

variable {s : Session} {line : String}

theorem recalled?_eq_some_iff (line : String) (c : Char) :
    recalled? line = some c ↔ ∃ cs, Text.split line = [String.ofList (c :: cs)] ∧
      ∀ d ∈ c :: cs, d.isAlpha = true := by
  constructor
  · intro h
    unfold recalled? at h
    split at h
    · contradiction
    next d ds hstrip =>
      split at h
      next hall =>
        obtain rfl := Option.some.inj h
        rw [List.all_eq_true] at hall
        refine ⟨ds, ?_, hall⟩
        have hword := Text.words_of_forall_not_isBlank (List.cons_ne_nil d ds)
          fun e he => Text.not_isBlank_of_isAlpha (hall e he)
        rw [Text.split, ← Text.words_strip, hstrip, hword, List.map_singleton]
      · contradiction
  · rintro ⟨cs, hsplit, hall⟩
    obtain ⟨w, hw, hwc⟩ := List.map_eq_singleton_iff.mp hsplit
    rw [String.ofList_inj] at hwc
    have hstrip := Text.strip_of_words_eq_singleton (hwc ▸ hw)
    have hall' : (c :: cs).all Char.isAlpha = true := List.all_eq_true.mpr hall
    rw [recalled?, hstrip]
    simp only [hall', if_true]

theorem recalled?_congr {line' : String} (h : Text.split line = Text.split line') :
    recalled? line = recalled? line' := by
  refine Option.ext fun c => ?_
  rw [recalled?_eq_some_iff, recalled?_eq_some_iff, h]

/-- A line of several words is read as an expression. -/
theorem recalled?_eq_none_of_split {a b : String} {rest : List String}
    (h : Text.split line = a :: b :: rest) : recalled? line = none := by
  rw [Option.eq_none_iff_forall_ne_some]
  intro c hc
  obtain ⟨cs, hone, -⟩ := (recalled?_eq_some_iff line c).mp hc
  rw [h] at hone
  simp at hone

/-- A line with an operator is read as an expression. -/
theorem recalled?_eq_none_of_operator {op : Operator} (h : op.symbol ∈ Text.split line) :
    recalled? line = none := by
  rw [Option.eq_none_iff_forall_ne_some]
  intro c hc
  obtain ⟨cs, hsplit, hall⟩ := (recalled?_eq_some_iff line c).mp hc
  rw [hsplit, List.mem_singleton] at h
  obtain ⟨d, hd, hno⟩ := op.exists_symbol_eq
  rw [hd, String.singleton_eq_ofList, String.ofList_inj] at h
  obtain rfl := (List.cons.inj h).1
  rw [Text.isLetter_of_isAlpha (hall d List.mem_cons_self)] at hno
  contradiction

theorem value_of_not_recalled (h : recalled? line = none) :
    s.value line = RationalCalculator.evaluate s.registers s.strict line := by
  rw [value, h]

/-- The value of a line depends on its words alone. -/
theorem value_congr {line' : String} (h : Text.split line = Text.split line') :
    s.value line = s.value line' := by
  have hscan : Token.scan line = Token.scan line' := by rw [Token.scan, h, Token.scan]
  rw [value, value, recalled?_congr h, Reading.evaluate_congr hscan]

theorem value_stripped (s : Session) (line : String) :
    s.value (Text.stripped line) = s.value line :=
  value_congr (Text.split_stripped line)

/-- A line of one letter comes to the register, whether it is recalled or read. -/
theorem value_singleton_of_isLetter (s : Session) {c : Char} (h : Text.isLetter c = true) :
    s.value (String.singleton c) = fetch s.registers c := by
  have hsplit := Text.split_singleton (Text.not_isBlank_of_isLetter h)
  cases hr : recalled? (String.singleton c) with
  | some d =>
    obtain ⟨cs, hd, -⟩ := (recalled?_eq_some_iff _ d).mp hr
    rw [hsplit, List.singleton_inj, String.singleton_eq_ofList, String.ofList_inj] at hd
    obtain rfl := (List.cons.inj hd).1
    rw [value, hr]
  | none =>
    rw [value_of_not_recalled hr, evaluate_of_scan_singleton (Token.scan_singleton h)]
    rfl

theorem recalled?_singleton_of_not_isLetter {c : Char} (h : Text.isLetter c = false) :
    recalled? (String.singleton c) = none := by
  have halpha : c.isAlpha = false := by
    rw [Bool.eq_false_iff]
    intro ha
    rw [Text.isLetter_of_isAlpha ha] at h
    contradiction
  rw [recalled?, String.toList_singleton]
  cases hb : Text.isBlank c with
  | true => simp [Text.strip, Text.stripEnd, hb]
  | false => simp [Text.strip, Text.stripEnd, hb, halpha]

theorem value_singleton_of_isDigit (s : Session) {c : Char} (h : c.isDigit = true) :
    s.value (String.singleton c) = .ok (.ofInt (c.toNat - '0'.toNat : Nat)) := by
  rw [value_of_not_recalled (recalled?_singleton_of_not_isLetter (Text.not_isLetter_of_isDigit h))]
  exact Token.evaluate_of_literal? (Token.literal?_singleton_of_isDigit h) _ _

/-- A character that is neither a letter nor a digit is no expression on its own. -/
theorem exists_readingFault_of_singleton (s : Session) {c : Char}
    (hletter : Text.isLetter c = false) (hdigit : c.isDigit = false) :
    ∃ f, s.value (String.singleton c) = .error f ∧ f.isReadingFault = true := by
  rw [value_of_not_recalled (recalled?_singleton_of_not_isLetter hletter)]
  cases hb : Text.isBlank c with
  | true =>
    have hscan : Token.scan (String.singleton c) = [] := by
      rw [Token.scan, Text.split, String.toList_singleton, Text.words_cons_of_isBlank [] hb]
      rfl
    exact ⟨.emptyExpression, by rw [RationalCalculator.evaluate, hscan], rfl⟩
  | false =>
    have hscan : Token.scan (String.singleton c) = [Token.ofWord (String.singleton c)] := by
      rw [Token.scan, Text.split_singleton hb, List.map_singleton]
    rw [evaluate_of_scan_singleton hscan]
    cases hv : (Token.ofWord (String.singleton c)).value s.registers with
    | error f => exact ⟨f, rfl, Token.isReadingFault_of_value hv⟩
    | ok v =>
      rcases Token.register_or_literal?_of_value hv with ⟨d, hd, -⟩ | hl
      · obtain ⟨heq, hd⟩ := (Token.ofWord_eq_register_iff _ d).mp hd
        obtain rfl : c = d := by simpa [← String.toList_inj] using heq
        rw [hletter] at hd
        contradiction
      · rw [Token.isDigit_of_literal?_singleton hl] at hdigit
        contradiction

/-- What the line of the character `c` comes to when `v` has been stored under `c`. -/
def readBack (c : Char) (v : Fraction) : Except Fault Fraction :=
  if Text.isLetter c then .ok v
  else if c.isDigit then .ok (.ofInt (c.toNat - '0'.toNat : Nat))
  else .error (.invalidExpression (String.singleton c))

theorem readBack_eq_ok_iff (c : Char) (v : Fraction) :
    readBack c v = .ok v ↔
      Text.isLetter c = true ∨ (c.isDigit = true ∧ v = .ofInt (c.toNat - '0'.toNat : Nat)) := by
  unfold readBack
  split
  next h => simp [h]
  next h =>
    split
    next hd => simp [h, hd, eq_comm]
    next hd => simp [h, hd]

theorem result_evaluate_singleton {c : Char} {v : Fraction} (h : s.registers.get? c = some v) :
    (s.evaluate (String.singleton c)).result = readBack c v := by
  unfold readBack
  split
  next hc =>
    have hv : s.value (String.singleton c) = .ok v := by
      rw [value_singleton_of_isLetter s hc, fetch, h]
    rw [evaluate_of_value hv]
  next hc =>
    rw [Bool.not_eq_true] at hc
    split
    next hd => rw [evaluate_of_value (value_singleton_of_isDigit s hd)]
    next hd =>
      obtain ⟨f, hf, hreading⟩ :=
        exists_readingFault_of_singleton s hc (Bool.eq_false_iff.mpr hd)
      rw [evaluate_of_readingFault hf hreading]

theorem store_of_getLast? {selector : String} {c : Char} {v : Fraction}
    (hv : s.lastResult = some v) (hc : selector.toList.getLast? = some c) :
    s.store selector = ⟨.ok (), { s with registers := s.registers.set c v }, [.stored v c]⟩ := by
  simp only [store, hv, hc]

/-- A session with a last result refuses to store it only if there is no selector, and then
nothing changes. Under a letter the value is read back. Under a digit it is stored all the same,
but the digit as a line is a number; any other name makes a line that is invalid. -/
theorem read_back_after_store (s : Session) (v : Fraction) (hv : s.lastResult = some v)
    (selector : String) :
    (selector = "" → (s.store selector).result = .error .noSelector ∧
      (s.store selector).session = s) ∧
    ∀ c, selector.toList.getLast? = some c → (s.store selector).result = .ok () ∧
      ((s.store selector).session.evaluate (String.singleton c)).result = readBack c v ∧
      (readBack c v = .ok v ↔
        Text.isLetter c = true ∨ (c.isDigit = true ∧ v = .ofInt (c.toNat - '0'.toNat : Nat))) := by
  constructor
  · rintro rfl
    simp [store, hv]
  · intro c hc
    rw [store_of_getLast? hv hc]
    refine ⟨rfl, result_evaluate_singleton ?_, readBack_eq_ok_iff c v⟩
    rw [Registers.get?_set, if_pos rfl]

/-- Three halves are stored under a letter that is not an ASCII letter, and read back. -/
theorem read_back_after_store_at_e_acute :
    ∃ s : Session, s.lastResult = some (.reduce 3 2 (by decide)) ∧
      "STOREé".toList.getLast? = some 'é' ∧
      ((s.store "STOREé").session.evaluate (String.singleton 'é')).result
        = .ok (.reduce 3 2 (by decide)) := by
  have hv : ((start true).evaluate "3 / 2").session.lastResult
      = some (.reduce 3 2 (by decide)) := by decide +kernel
  have hc : "STOREé".toList.getLast? = some 'é' := by decide
  have hletter : Text.isLetter 'é' = true := by decide +kernel
  obtain ⟨-, hread⟩ := read_back_after_store _ _ hv "STOREé"
  obtain ⟨-, hresult, hiff⟩ := hread 'é' hc
  exact ⟨_, hv, hc, hresult.trans (hiff.mpr (.inl hletter))⟩

/-- Five is stored under `1`, and no fault is reported, but `1` is one. Stored under `!` it cannot
be read at all. -/
theorem digit_is_stored_and_not_read_back :
    ((start false).evaluate "5").session.lastResult = some (.ofInt 5) ∧
    ¬ ((∃ f, (((start false).evaluate "5").session.store "1").result = .error f) ∨
      ((((start false).evaluate "5").session.store "1").session.evaluate "1").result
        = .ok (.ofInt 5)) ∧
    ¬ ((∃ f, (((start false).evaluate "5").session.store "!").result = .error f) ∨
      ((((start false).evaluate "5").session.store "!").session.evaluate "!").result
        = .ok (.ofInt 5)) := by
  have hone : (((start false).evaluate "5").session.store "1").result = .ok () ∧
      ((((start false).evaluate "5").session.store "1").session.evaluate "1").result
        = .ok (.ofInt 1) := by decide +kernel
  have hmark : (((start false).evaluate "5").session.store "!").result = .ok () ∧
      ((((start false).evaluate "5").session.store "!").session.evaluate "!").result
        = .error (.invalidExpression "!") := by decide +kernel
  refine ⟨by decide +kernel, ?_, ?_⟩
  · rw [hone.1, hone.2]
    simp [Fraction.ofInt]
  · rw [hmark.1, hmark.2]
    simp

end Session

end RationalCalculator
