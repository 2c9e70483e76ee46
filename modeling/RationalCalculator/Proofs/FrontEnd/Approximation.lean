import RationalCalculator.Batch
import RationalCalculator.Console
import RationalCalculator.Proofs.FrontEnd.Printed
import RationalCalculator.Proofs.Text.Decimal

/-!
# Approximations are for display only

The same arguments or lines are run twice, without approximations and with them. The two runs keep
the same session at every step, succeed, fail and stop at the same steps, and report the same
faults. All that differs is the text of a result, which may have a decimal number behind it, and
the notes in the log on results that are too large for one.
-/

namespace RationalCalculator

/-- The text is the plain text, or that with a decimal number behind it. -/
def Approximates (plain text : String) : Prop :=
  text = plain ∨ ∃ number, IsDecimal number ∧ text = plain ++ s!" ≈ {number}"

theorem Approximates.append_left {plain text : String} (h : Approximates plain text)
    (opening : String) : Approximates (opening ++ plain) (opening ++ text) := by
  rcases h with rfl | ⟨number, hnumber, rfl⟩
  · exact .inl rfl
  · exact .inr ⟨number, hnumber, String.append_assoc.symm⟩

/-- How the same value is shown without and with approximations. -/
inductive ShownAlike : Except Numeral.Overlong String → Except Numeral.Overlong String → Prop where
  | shown (plain text : String) (approximates : Approximates plain text) :
      ShownAlike (.ok plain) (.ok text)
  | overlong (e : Numeral.Overlong) : ShownAlike (.error e) (.error e)

theorem approximationNote_false (v : Fraction) : approximationNote false v = "" := rfl

theorem approximationNote_of_overflow (approximate : Bool) {v : Fraction}
    (h : Double.nearest v = .error .overflow) : approximationNote approximate v = "" := by
  rw [approximationNote, approximation?, h]
  exact ite_self _

theorem approximates_append_approximationNote (approximate : Bool) (plain : String) (v : Fraction) :
    Approximates plain (plain ++ approximationNote approximate v) := by
  unfold approximationNote
  split
  · cases ha : approximation? v with
    | none => exact .inl String.append_empty
    | some number =>
      refine .inr ⟨number, ?_, rfl⟩
      unfold approximation? at ha
      split at ha
      · rw [← Option.some.inj ha]
        exact SignificantStyle.isDecimal_text _ _ _ _
      · contradiction
  · exact .inl String.append_empty

theorem shownAlike_display (v : Fraction) : ShownAlike (display false v) (display true v) := by
  unfold display
  cases v.text with
  | error e => exact .overlong e
  | ok plain =>
    have hplain : plain ++ approximationNote false v = plain := by
      rw [approximationNote_false, String.append_empty]
    simp only [Except.map, hplain]
    exact .shown _ _ (approximates_append_approximationNote true plain v)

/-- A value that has no approximation is shown plainly. -/
theorem display_of_overflow (approximate : Bool) {v : Fraction}
    (h : Double.nearest v = .error .overflow) : display approximate v = v.text := by
  rw [display, approximationNote_of_overflow approximate h]
  cases v.text with
  | error e => rfl
  | ok plain => simp [Except.map]

/-- Without approximations none is missing. -/
theorem approximationNotes_false (v : Fraction) : approximationNotes false v = [] := by
  unfold approximationNotes
  split
  next h => contradiction
  next => rfl

/-- The lines of a transcript, apart from the notes of the program. -/
def withoutNotes (lines : List Line) : List Line := lines.filter (!·.isNote)

theorem withoutNotes_events (events : List Session.Event) :
    withoutNotes (events.map .event) = events.map .event := by
  rw [withoutNotes, List.filter_eq_self]
  intro line hline
  obtain ⟨e, _, rfl⟩ := List.mem_map.mp hline
  rfl

theorem withoutNotes_approximationNotes (approximate : Bool) (v : Fraction) :
    withoutNotes (approximationNotes approximate v) = [] := by
  obtain h | ⟨text, h⟩ := approximationNotes_cases approximate v <;> rw [h] <;> rfl

theorem withoutNotes_append (first second : List Line) :
    withoutNotes (first ++ second) = withoutNotes first ++ withoutNotes second :=
  List.filter_append first second

/-- Two lines that are the same, or two lines of output of which the second has an approximation. -/
inductive Line.Alike : Line → Line → Prop where
  | same (line : Line) : Alike line line
  | approximated (plain text : String) (approximates : Approximates plain text) :
      Alike (.out plain) (.out text)

theorem Line.forall₂_alike_same (lines : List Line) : List.Forall₂ Alike lines lines :=
  List.forall₂_same.mpr fun line _ => .same line

namespace Batch

/-- Two reports that differ in approximations only. -/
structure Report.Alike (plain shown : Report) : Prop where
  result : shown.result = plain.result
  session : shown.session = plain.session
  lines : List.Forall₂ Line.Alike plain.lines (withoutNotes shown.lines)

theorem Report.Alike.andThen {plain shown : Report} {next next' : Session → Report}
    (h : Alike plain shown) (hnext : ∀ s, Alike (next s) (next' s)) :
    Alike (plain.andThen next) (shown.andThen next') := by
  obtain ⟨result, session, lines⟩ := h
  unfold Report.andThen
  rw [result, session]
  cases plain.result with
  | error e => exact ⟨rfl, rfl, lines⟩
  | ok succeeded =>
    obtain ⟨hresult, hsession, hlines⟩ := hnext plain.session
    dsimp only
    refine ⟨by rw [hresult], hsession, ?_⟩
    rw [withoutNotes_append]
    exact List.rel_append lines hlines

theorem alike_serve (s : Session) (argument : String) :
    Report.Alike (serve false s argument) (serve true s argument) := by
  unfold serve
  split
  · dsimp only
    split
    · exact ⟨rfl, rfl, by rw [withoutNotes_events]; exact Line.forall₂_alike_same _⟩
    · refine ⟨rfl, rfl, ?_⟩
      rw [withoutNotes_append, withoutNotes_events]
      exact Line.forall₂_alike_same _
  · dsimp only
    split
    · refine ⟨rfl, rfl, ?_⟩
      rw [withoutNotes_append, withoutNotes_events]
      exact Line.forall₂_alike_same _
    next v _ =>
      have hshown := shownAlike_display v
      generalize display false v = plain at hshown ⊢
      generalize display true v = shown at hshown ⊢
      cases hshown with
      | overlong e =>
        exact ⟨rfl, rfl, by rw [withoutNotes_events]; exact Line.forall₂_alike_same _⟩
      | shown plain text approximates =>
        refine ⟨rfl, rfl, ?_⟩
        rw [withoutNotes_append, withoutNotes_append, withoutNotes_events,
          withoutNotes_approximationNotes, approximationNotes_false]
        exact List.rel_append (Line.forall₂_alike_same _)
          (.cons (.approximated _ _ (approximates.append_left s!"{argument} = ")) .nil)

theorem alike_run (s : Session) (arguments : List String) :
    Report.Alike (run false s arguments) (run true s arguments) := by
  induction arguments generalizing s with
  | nil => exact ⟨rfl, rfl, .nil⟩
  | cons argument rest ih => exact (alike_serve s argument).andThen ih

end Batch

namespace Console

/-- Two ends of an answer that are the same, or two accepted lines of which the second has an
approximation. -/
inductive ResultAlike :
    Except Numeral.Overlong Response → Except Numeral.Overlong Response → Prop where
  | same (result : Except Numeral.Overlong Response) : ResultAlike result result
  | approximated (plain text : String) (approximates : Approximates plain text) :
      ResultAlike (.ok (.accepted plain)) (.ok (.accepted text))

/-- Two answers that differ in approximations only. -/
structure Answer.Alike (plain shown : Answer) : Prop where
  result : ResultAlike plain.result shown.result
  console : shown.console = plain.console
  log : withoutNotes shown.log = plain.log

theorem alike_evaluate (c : Console) (text : String) :
    Answer.Alike (c.evaluate false text) (c.evaluate true text) := by
  unfold evaluate
  split
  · dsimp only
    split
    · exact ⟨.same _, rfl, withoutNotes_events _⟩
    next v _ =>
      have hshown := shownAlike_display v
      generalize display false v = plain at hshown ⊢
      generalize display true v = shown at hshown ⊢
      cases hshown with
      | overlong e => exact ⟨.same _, rfl, withoutNotes_events _⟩
      | shown plain text approximates =>
        refine ⟨.approximated _ _ (approximates.append_left "Result: "), rfl, ?_⟩
        rw [withoutNotes_append, withoutNotes_events, withoutNotes_approximationNotes,
          approximationNotes_false]
  · exact ⟨.same _, rfl, rfl⟩

theorem withoutNotes_log_store (c : Console) (words : List String) :
    withoutNotes (c.store words).log = (c.store words).log := by
  obtain ⟨events, hlog⟩ := exists_log_store c words
  rw [hlog, withoutNotes_events]

theorem alike_answer (c : Console) (line : String) :
    Answer.Alike (c.answer false line) (c.answer true line) := by
  unfold answer
  split
  · exact ⟨.same _, rfl, rfl⟩
  · exact ⟨.same _, rfl, rfl⟩
  next words _ => exact ⟨.same _, rfl, withoutNotes_log_store c words⟩
  next text _ => exact alike_evaluate c text

theorem alike_answers (c : Console) (lines : List String) :
    List.Forall₂ Answer.Alike (c.answers false lines) (c.answers true lines) := by
  induction lines generalizing c with
  | nil => exact .nil
  | cons line rest ih =>
    have hanswer := alike_answer c line
    rw [answers, answers, hanswer.console]
    exact .cons hanswer (ih _)

end Console

/-- With approximations or without them, a batch and a console keep the same sessions, succeed,
fail and stop alike and report the same faults, after any number of steps. A result is shown by the
same text, or by that text with a decimal number behind it. The text is the same if the value is
too large for an approximation, which never keeps a value from being shown. -/
theorem approximation_is_display_only :
    (∀ (s : Session) (arguments : List String) (k : Nat),
      Batch.Report.Alike (Batch.run false s (arguments.take k))
        (Batch.run true s (arguments.take k))) ∧
    (∀ (c : Console) (lines : List String),
      List.Forall₂ Console.Answer.Alike (c.answers false lines) (c.answers true lines)) ∧
    (∀ v, ShownAlike (display false v) (display true v)) ∧
    ∀ v, Double.nearest v = .error .overflow → display true v = display false v := by
  refine ⟨fun s arguments k => Batch.alike_run s (arguments.take k), Console.alike_answers,
    shownAlike_display, fun v h => ?_⟩
  rw [display_of_overflow true h, display_of_overflow false h]

/-- A third of a large power of ten is shown without an approximation. -/
theorem approximation_is_display_only_at_large_value :
    let v := Fraction.reduce (Nat.pow 10 400 : Nat) 3 (by decide)
    Double.nearest v = .error .overflow ∧ display true v = display false v := by
  have hoverflow : Double.nearest (Fraction.reduce (Nat.pow 10 400 : Nat) 3 (by decide))
      = .error .overflow := by decide +kernel
  exact ⟨hoverflow, approximation_is_display_only.2.2.2 _ hoverflow⟩

end RationalCalculator
