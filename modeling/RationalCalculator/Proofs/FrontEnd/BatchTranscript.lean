import RationalCalculator.Proofs.FrontEnd.BatchRun
import RationalCalculator.Proofs.FrontEnd.Printed

/-!
# What a batch does and prints

A batch whose values can all be written attempts its arguments in order, each of them once. What it
prints falls into one part for each argument: a line of output for a value, a line of error output
for a failure, and nothing for a store that succeeds. Its status tells whether there was a failure,
and failures leave no trace in the session. A batch that is divided in two prints the same, ends in
the same session, and has the greater of the two statuses.
-/

namespace RationalCalculator.Batch

/-- What is printed for an argument that finds the session. -/
inductive Prints (approximate : Bool) (s : Session) (argument : String) : List Line → Prop where
  | stored (v : Option Fraction) (store : isStore argument = true)
      (outcome : (s.tryStore argument).outcome = .success v) : Prints approximate s argument []
  | value (v : Fraction) (text : String) (noStore : isStore argument = false)
      (outcome : (s.tryEvaluate argument).outcome = .success (some v))
      (shown : display approximate v = .ok text) :
      Prints approximate s argument [.out s!"{argument} = {text}"]
  | failed (f : Fault) (outcome : (attempt s argument).outcome = .failure (some f)) :
      Prints approximate s argument [.err s!"Error: {f.message}"]

variable {approximate : Bool} {s : Session} {argument : String}

/-- A failure is logged with what has happened before it, and printed with its text. -/
theorem lines_of_failed (approximate : Bool) (events : List Session.Event) {f : Fault}
    (h : (attempt s argument).outcome = .failure (some f)) :
    (events.map Line.event ++ [faultLine f]).filterMap Line.event? = events ∧
      Prints approximate s argument
        ((events.map Line.event ++ [faultLine f]).filter Line.isPrinted) := by
  rw [List.filterMap_append, List.filter_append, filterMap_event?_events, filter_isPrinted_events]
  exact ⟨List.append_nil _, .failed f h⟩

/-- A store is logged as it is attempted, and printed only if it fails. -/
theorem lines_serve_of_isStore (approximate : Bool) (h : isStore argument = true) :
    (serve approximate s argument).lines.filterMap Line.event? = (attempt s argument).events ∧
      Prints approximate s argument
        ((serve approximate s argument).lines.filter Line.isPrinted) := by
  have hreport := Session.reports_tryStore s argument
  have hattempt : attempt s argument = s.tryStore argument := by rw [attempt, if_pos h]
  rw [hattempt, hreport.events, serve, if_pos h]
  cases hr : (s.store argument).result with
  | ok u =>
    simp only [hr, filterMap_event?_events, filter_isPrinted_events, true_and]
    exact .stored _ h (hreport.success u hr)
  | error f =>
    have houtcome : (attempt s argument).outcome = .failure (some f) := by
      rw [hattempt, hreport.failure f hr]
    simp only [hr]
    exact lines_of_failed approximate _ houtcome

/-- An evaluation is logged as it is attempted, and printed with its value or its failure. -/
theorem lines_serve_of_evaluate (h : isStore argument = false)
    (hstop : ¬ StoppedBy s argument) :
    (serve approximate s argument).lines.filterMap Line.event? = (attempt s argument).events ∧
      Prints approximate s argument
        ((serve approximate s argument).lines.filter Line.isPrinted) := by
  have hreport := Session.reports_tryEvaluate s argument
  have hattempt : attempt s argument = s.tryEvaluate argument := by simp [attempt, h]
  have hserve : ¬ isStore argument = true := by simp [h]
  rw [hattempt, hreport.events, serve, if_neg hserve]
  cases hr : (s.evaluate argument).result with
  | ok v =>
    have hv : v.WithinLimit := by
      by_contra hv
      exact hstop ⟨h, v, hr, hv⟩
    obtain ⟨text, hd⟩ := (exists_display_iff approximate v).mpr hv
    simp only [hr, hd, List.filterMap_append, List.filter_append, filterMap_event?_events,
      filter_isPrinted_events, filterMap_event?_notes, filter_isPrinted_notes]
    exact ⟨by simp [Line.event?], .value v text h (hreport.success v hr) hd⟩
  | error f =>
    have houtcome : (attempt s argument).outcome = .failure (some f) := by
      rw [hattempt, hreport.failure f hr]
    simp only [hr]
    exact lines_of_failed approximate _ houtcome

theorem lines_serve (approximate : Bool) (h : ¬ StoppedBy s argument) :
    (serve approximate s argument).lines.filterMap Line.event? = (attempt s argument).events ∧
      Prints approximate s argument
        ((serve approximate s argument).lines.filter Line.isPrinted) := by
  cases hs : isStore argument with
  | true => exact lines_serve_of_isStore approximate hs
  | false => exact lines_serve_of_evaluate hs h

/-- What fails leaves the session alone. -/
theorem after_of_failed (h : (attempt s argument).outcome.isSuccess = false) :
    after s argument = s := by
  -- What stops a batch has a value, so it does not fail as an attempt.
  have hstop : ¬ StoppedBy s argument := by
    rintro ⟨hs, v, hr, -⟩
    have hreport := Session.reports_tryEvaluate s argument
    simp [attempt, hs, hreport.success v hr, Outcome.isSuccess] at h
  obtain ⟨hresult, hsession⟩ := serve_of_not_stoppedBy false hstop
  rw [h] at hresult
  rw [← hsession, session_serve_of_failed hresult]

/-- No value that is to be printed is beyond the digit limit. -/
def Clear (s : Session) (arguments : List String) : Prop :=
  ∀ x ∈ visits after s arguments, ¬ StoppedBy x.1 x.2

/-- What a batch comes to, argument by argument. -/
structure WorksThrough (approximate : Bool) (s : Session) (arguments : List String)
    (r : Report) : Prop where
  /-- Each argument is attempted on the session that those before it have left. -/
  session : r.session = arguments.foldl (fun s argument => (attempt s argument).session) s
  /-- The attempts, and nothing else, are what has happened in the session. -/
  events : r.lines.filterMap Line.event? =
    (visits after s arguments).flatMap fun x => (attempt x.1 x.2).events
  printed : ∃ parts, List.Forall₂ (fun x part => Prints approximate x.1 x.2 part)
    (visits after s arguments) parts ∧ r.lines.filter Line.isPrinted = parts.flatten
  status : r.result.map status = .ok (if ∃ x ∈ visits after s arguments,
    (attempt x.1 x.2).outcome.isSuccess = false then 1 else 0)
  frame : ∀ x ∈ visits after s arguments, (attempt x.1 x.2).outcome.isSuccess = false →
    after x.1 x.2 = x.1

theorem clear_cons {arguments : List String} :
    Clear s (argument :: arguments) ↔
      ¬ StoppedBy s argument ∧ Clear (after s argument) arguments := by
  simp only [Clear, visits, List.forall_mem_cons]

theorem lines_run_cons (rest : List String) (h : ¬ StoppedBy s argument) :
    (run approximate s (argument :: rest)).lines =
      (serve approximate s argument).lines ++ (run approximate (after s argument) rest).lines := by
  obtain ⟨hr, hs⟩ := serve_of_not_stoppedBy approximate h
  simp only [run, Report.andThen, hr, hs]

theorem result_run_of_clear (approximate : Bool) {arguments : List String}
    (h : Clear s arguments) :
    (run approximate s arguments).result
        = .ok ((visits after s arguments).all fun x => (attempt x.1 x.2).outcome.isSuccess) ∧
      (run approximate s arguments).session = arguments.foldl after s := by
  cases ending approximate s arguments with
  | complete _ result session => exact ⟨result, session⟩
  | stopped before argument rest split _ stop _ _ =>
    have hmem := mem_visits after s before argument rest
    rw [← split] at hmem
    exact absurd stop (h _ hmem)

theorem events_run (approximate : Bool) {arguments : List String} (h : Clear s arguments) :
    (run approximate s arguments).lines.filterMap Line.event? =
      (visits after s arguments).flatMap fun x => (attempt x.1 x.2).events := by
  induction arguments generalizing s with
  | nil => rfl
  | cons argument rest ih =>
    obtain ⟨hstop, hrest⟩ := clear_cons.mp h
    rw [lines_run_cons rest hstop, List.filterMap_append, (lines_serve approximate hstop).1,
      ih hrest, visits, List.flatMap_cons]

theorem printed_run (approximate : Bool) {arguments : List String} (h : Clear s arguments) :
    ∃ parts, List.Forall₂ (fun x part => Prints approximate x.1 x.2 part)
        (visits after s arguments) parts ∧
      (run approximate s arguments).lines.filter Line.isPrinted = parts.flatten := by
  induction arguments generalizing s with
  | nil => exact ⟨[], .nil, rfl⟩
  | cons argument rest ih =>
    obtain ⟨hstop, hrest⟩ := clear_cons.mp h
    obtain ⟨parts, hparts, hprinted⟩ := ih hrest
    refine ⟨_ :: parts, .cons (lines_serve approximate hstop).2 hparts, ?_⟩
    rw [lines_run_cons rest hstop, List.filter_append, hprinted, List.flatten_cons]

/-- One failure among many decides the status. -/
theorem status_all {α : Type} (p : α → Bool) (xs : List α) :
    status (xs.all p) = if ∃ x ∈ xs, p x = false then 1 else 0 := by
  by_cases h : ∃ x ∈ xs, p x = false
  · have hall : xs.all p = false := by simpa using h
    rw [if_pos h, hall]
    rfl
  · have hall : xs.all p = true := by simpa using h
    rw [if_neg h, hall]
    rfl

theorem worksThrough (approximate : Bool) {arguments : List String} (h : Clear s arguments) :
    WorksThrough approximate s arguments (run approximate s arguments) where
  session := (result_run_of_clear approximate h).2
  events := events_run approximate h
  printed := printed_run approximate h
  status := by rw [(result_run_of_clear approximate h).1, Except.map, status_all]
  frame _ _ := after_of_failed

/-- A batch and the two that it is divided into. -/
structure Divides (whole first second : Report) : Prop where
  session : whole.session = second.session
  output : outputOf whole.lines = outputOf first.lines ++ outputOf second.lines
  errors : ∀ view,
    errorsOf view whole.lines = errorsOf view first.lines ++ errorsOf view second.lines
  status : ∃ b c, first.result = .ok b ∧ second.result = .ok c ∧
    whole.result.map status = .ok (max (status b) (status c))

theorem clear_append {xs ys : List String} :
    Clear s (xs ++ ys) ↔ Clear s xs ∧ Clear (xs.foldl after s) ys := by
  induction xs generalizing s with
  | nil => simp [Clear, visits]
  | cons x xs ih => rw [List.cons_append, clear_cons, clear_cons, ih, List.foldl_cons, and_assoc]

theorem status_and (b c : Bool) : status (b && c) = max (status b) (status c) := by
  cases b <;> cases c <;> rfl

theorem divides (approximate : Bool) {xs ys : List String} (h : Clear s (xs ++ ys)) :
    Divides (run approximate s (xs ++ ys)) (run approximate s xs)
      (run approximate (run approximate s xs).session ys) := by
  obtain ⟨hxs, hys⟩ := clear_append.mp h
  obtain ⟨hfirst, hsession⟩ := result_run_of_clear approximate hxs
  rw [← hsession] at hys
  obtain ⟨hsecond, -⟩ := result_run_of_clear approximate hys
  have hwhole := run_append approximate s xs ys
  simp only [Report.andThen, hfirst] at hwhole
  constructor
  · rw [hwhole]
  · rw [hwhole, outputOf_append]
  · intro view
    rw [hwhole, errorsOf_append]
  · refine ⟨_, _, hfirst, hsecond, ?_⟩
    rw [hwhole, hsecond, ← status_and]
    rfl

/-- A batch whose values can all be written attempts each argument once and in order, a store if it
starts with `STORE` and an evaluation if not. It prints one line of output for each value, one line
of error output for each failure and nothing else. A line is what is printed at once; it shows its
argument as it is, with the line breaks in it. The status is 1 if there is a failure and 0 if there
is none; no failure leaves a trace in the session. Divided in two, the batch prints the same, ends
in the same session and has the greater of the two statuses. -/
theorem run_attempts_each_once (approximate : Bool) (s : Session) (arguments : List String)
    (h : Clear s arguments) :
    WorksThrough approximate s arguments (run approximate s arguments) ∧
    ∀ xs ys, arguments = xs ++ ys →
      Divides (run approximate s arguments) (run approximate s xs)
        (run approximate (run approximate s xs).session ys) := by
  refine ⟨worksThrough approximate h, ?_⟩
  rintro xs ys rfl
  exact divides approximate h

/-- Stores and evaluations, each with success and without, and the batch cut in the middle. -/
theorem run_attempts_each_once_at_mixed_arguments :
    let arguments := ["STOREa", "1/2 + 1/3", "STOREa", "1 / 0", "a * 6"]
    Clear (.start false) arguments ∧
      WorksThrough false (.start false) arguments (run false (.start false) arguments) ∧
      Divides (run false (.start false) arguments)
        (run false (.start false) ["STOREa", "1/2 + 1/3", "STOREa"])
        (run false (run false (.start false) ["STOREa", "1/2 + 1/3", "STOREa"]).session
          ["1 / 0", "a * 6"]) := by
  have hresult : (run false (.start false)
      ["STOREa", "1/2 + 1/3", "STOREa", "1 / 0", "a * 6"]).result = .ok false := by
    decide +kernel
  have hclear := (exists_result_run_iff false _ _).mp ⟨false, hresult⟩
  obtain ⟨hworks, hdivides⟩ := run_attempts_each_once false _ _ hclear
  exact ⟨hclear, hworks, hdivides ["STOREa", "1/2 + 1/3", "STOREa"] ["1 / 0", "a * 6"] rfl⟩

end RationalCalculator.Batch
