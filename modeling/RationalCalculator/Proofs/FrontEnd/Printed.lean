import RationalCalculator.Console
import RationalCalculator.Transcript

/-!
# What a transcript prints

The lines of a transcript are printed, to the output or to the error output, or they belong to the
log. What goes to the log tells what has happened in the session (`Line.event?`), apart from the
notes of the program itself. Both streams of a transcript that is put together are those of its
parts, one behind the other.
-/

namespace RationalCalculator

namespace Line

/-- The line goes to one of the two outputs, whether the log is shown or not. -/
def isPrinted : Line → Bool
  | out _ | err _ => true
  | event _ | note _ => false

def isNote : Line → Bool
  | note _ => true
  | _ => false

/-- What has happened in a session, if the line tells of it. -/
def event? : Line → Option Session.Event
  | event e => some e
  | _ => none

end Line

theorem filterMap_outText?_events (events : List Session.Event) :
    (events.map Line.event).filterMap Line.outText? = [] := by
  rw [List.filterMap_map, List.filterMap_eq_nil_iff]
  intro e _
  rfl

theorem filterMap_event?_events (events : List Session.Event) :
    (events.map Line.event).filterMap Line.event? = events := by
  rw [List.filterMap_map]
  exact List.filterMap_some

theorem filter_isPrinted_events (events : List Session.Event) :
    (events.map Line.event).filter Line.isPrinted = [] := by
  rw [List.filter_eq_nil_iff]
  intro line hline
  obtain ⟨e, _, rfl⟩ := List.mem_map.mp hline
  exact Bool.false_ne_true

/-- There is at most one note on an approximation. -/
theorem approximationNotes_cases (approximate : Bool) (v : Fraction) :
    approximationNotes approximate v = [] ∨
      ∃ text, approximationNotes approximate v = [.note text] := by
  unfold approximationNotes
  split
  · exact .inr ⟨_, rfl⟩
  · exact .inl rfl

theorem filterMap_outText?_notes (approximate : Bool) (v : Fraction) :
    (approximationNotes approximate v).filterMap Line.outText? = [] := by
  obtain h | ⟨text, h⟩ := approximationNotes_cases approximate v <;> rw [h] <;> rfl

theorem filterMap_event?_notes (approximate : Bool) (v : Fraction) :
    (approximationNotes approximate v).filterMap Line.event? = [] := by
  obtain h | ⟨text, h⟩ := approximationNotes_cases approximate v <;> rw [h] <;> rfl

theorem filter_isPrinted_notes (approximate : Bool) (v : Fraction) :
    (approximationNotes approximate v).filter Line.isPrinted = [] := by
  obtain h | ⟨text, h⟩ := approximationNotes_cases approximate v <;> rw [h] <;> rfl

/-- The log of a store tells of nothing but the session. -/
theorem Console.exists_log_store (c : Console) (words : List String) :
    ∃ events, (c.store words).log = List.map Line.event events := by
  unfold store
  split
  · split
    · dsimp only
      split <;> exact ⟨_, rfl⟩
    · exact ⟨[], rfl⟩
  · exact ⟨[], rfl⟩

theorem outputOf_append (first second : List Line) :
    outputOf (first ++ second) = outputOf first ++ outputOf second := by
  simp only [outputOf, joinLines, List.filterMap_append, List.map_append, String.join_append]

theorem errorsOf_append (view : LogView) (first second : List Line) :
    errorsOf view (first ++ second) = errorsOf view first ++ errorsOf view second := by
  simp only [errorsOf, joinLines, List.filterMap_append, List.map_append, String.join_append]

end RationalCalculator
