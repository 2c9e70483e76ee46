import RationalCalculator.Transcript

/-!
# Batches of arguments

A batch works through its arguments in order, on one session. An argument that starts with
`STORE` stores the last result and is silent; any other argument is evaluated and shown with its
value. What cannot be done is reported, and the batch goes on. Only a result that is too long to
be written stops a batch, and then the session already holds it.
-/

namespace RationalCalculator.Batch

/-- What arguments lead to: whether all of them succeeded, the session after them, and the lines
written. -/
structure Report where
  result : Except Numeral.Overlong Bool
  session : Session
  lines : List Line

def isStore (argument : String) : Bool := "STORE".toList.isPrefixOf argument.toList

def faultLine (fault : Fault) : Line := .err s!"Error: {fault.message}"

def serve (approximate : Bool) (s : Session) (argument : String) : Report :=
  if isStore argument then
    let r := s.store argument
    match r.result with
    | .ok () => ⟨.ok true, r.session, r.events.map .event⟩
    | .error fault => ⟨.ok false, r.session, r.events.map .event ++ [faultLine fault]⟩
  else
    let r := s.evaluate argument
    let events := r.events.map Line.event
    match r.result with
    | .error fault => ⟨.ok false, r.session, events ++ [faultLine fault]⟩
    | .ok v =>
      match display approximate v with
      | .error e => ⟨.error e, r.session, events⟩
      | .ok text =>
        ⟨.ok true, r.session,
          events ++ approximationNotes approximate v ++ [.out s!"{argument} = {text}"]⟩

/-- One report and then another on the session it leaves, unless the first one stops the batch. -/
def Report.andThen (first : Report) (next : Session → Report) : Report :=
  match first.result with
  | .error e => ⟨.error e, first.session, first.lines⟩
  | .ok succeeded =>
    let others := next first.session
    ⟨others.result.map (succeeded && ·), others.session, first.lines ++ others.lines⟩

def Report.nothing (s : Session) : Report := ⟨.ok true, s, []⟩

def run (approximate : Bool) (s : Session) : List String → Report
  | [] => .nothing s
  | argument :: rest => (serve approximate s argument).andThen fun s => run approximate s rest

/-- The exit status of a batch that was worked through. -/
def status (succeeded : Bool) : Nat := if succeeded then 0 else 1

@[simp] theorem nothing_andThen (s : Session) (next : Session → Report) :
    (Report.nothing s).andThen next = next s := by
  rcases h : next s with ⟨_ | b, s, lines⟩ <;> simp [Report.nothing, Report.andThen, h, Except.map]

theorem andThen_assoc (first : Report) (next last : Session → Report) :
    (first.andThen next).andThen last = first.andThen fun s => (next s).andThen last := by
  obtain ⟨r, s, lines⟩ := first
  cases r with
  | error e => rfl
  | ok b =>
    rcases h : next s with ⟨_ | c, s', lines'⟩
    · simp [Report.andThen, h, Except.map]
    · rcases h' : last s' with ⟨_ | d, s'', lines''⟩ <;>
        simp [Report.andThen, h, h', Except.map, Bool.and_assoc]

/-- A batch may be divided in two anywhere. -/
theorem run_append (approximate : Bool) (s : Session) (xs ys : List String) :
    run approximate s (xs ++ ys) =
      (run approximate s xs).andThen fun s => run approximate s ys := by
  induction xs generalizing s with
  | nil => simp [run]
  | cons x xs ih =>
    simp only [List.cons_append, run, andThen_assoc]
    congr 1
    funext s
    exact ih s

/-- An argument that fails leaves the session alone. -/
theorem session_serve_of_failed {approximate : Bool} {s : Session} {argument : String}
    (h : (serve approximate s argument).result = .ok false) :
    (serve approximate s argument).session = s := by
  unfold serve at h ⊢
  by_cases hs : isStore argument = true
  · simp only [hs, if_true] at h ⊢
    cases hr : (s.store argument).result with
    | ok u => simp [hr] at h
    | error fault => exact Session.session_of_fault_store hr
  · simp only [hs] at h ⊢
    cases hr : (s.evaluate argument).result with
    | ok v => cases hd : display approximate v <;> simp [hr, hd] at h
    | error fault => exact Session.session_of_fault_evaluate hr

end RationalCalculator.Batch
