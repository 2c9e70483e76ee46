import RationalCalculator.Batch
import RationalCalculator.Proofs.Fraction.Written
import RationalCalculator.Proofs.Session.Answers

/-!
# How a batch ends

Each argument of a batch is an attempt to store or to evaluate on the session that the arguments
before it have left. A batch comes to its end unless one of its arguments evaluates to a value
beyond the digit limit. Then it ends with the first such argument, and the session has the value
already.
-/

namespace RationalCalculator

/-- Each input with the state that it finds. -/
def visits {σ ι : Type} (next : σ → ι → σ) (s : σ) : List ι → List (σ × ι)
  | [] => []
  | i :: inputs => (s, i) :: visits next (next s i) inputs

theorem mem_visits {σ ι : Type} (next : σ → ι → σ) (s : σ) (before : List ι) (i : ι)
    (rest : List ι) : (before.foldl next s, i) ∈ visits next s (before ++ i :: rest) := by
  induction before generalizing s with
  | nil => exact List.mem_cons_self
  | cons j before ih => exact List.mem_cons_of_mem _ (ih (next s j))

theorem exists_display_iff (approximate : Bool) (v : Fraction) :
    (∃ text, display approximate v = .ok text) ↔ v.WithinLimit := by
  rw [← Fraction.exists_text_iff, display]
  cases v.text <;> simp [Except.map]

theorem display_of_not_withinLimit (approximate : Bool) {v : Fraction} (h : ¬ v.WithinLimit) :
    display approximate v = .error .overlong :=
  (display_eq_error_iff approximate v .overlong).mpr ((v.text_eq_error_iff .overlong).mpr h)

namespace Batch

/-- What an argument asks of the session. -/
def attempt (s : Session) (argument : String) : Session.Tried :=
  if isStore argument then s.tryStore argument else s.tryEvaluate argument

/-- The session after an argument. -/
def after (s : Session) (argument : String) : Session := (attempt s argument).session

/-- The argument evaluates to a value that is too long to be written. -/
def StoppedBy (s : Session) (argument : String) : Prop :=
  isStore argument = false ∧ ∃ v, (s.evaluate argument).result = .ok v ∧ ¬ v.WithinLimit

variable {approximate : Bool} {s : Session} {argument : String}

theorem serve_of_isStore (h : isStore argument = true) :
    (serve approximate s argument).result = .ok (attempt s argument).outcome.isSuccess ∧
      (serve approximate s argument).session = after s argument := by
  have hreport := Session.reports_tryStore s argument
  rw [after, attempt, if_pos h, serve, if_pos h, hreport.session]
  cases hr : (s.store argument).result with
  | ok u => simp [hr, hreport.success u hr, Outcome.isSuccess]
  | error f => simp [hr, hreport.failure f hr, Outcome.isSuccess]

theorem serve_of_fault {f : Fault} (h : isStore argument = false)
    (hr : (s.evaluate argument).result = .error f) :
    (serve approximate s argument).result = .ok (attempt s argument).outcome.isSuccess ∧
      (serve approximate s argument).session = after s argument := by
  have hreport := Session.reports_tryEvaluate s argument
  simp [after, attempt, serve, h, hr, hreport.failure f hr, Outcome.isSuccess]

theorem serve_of_value {v : Fraction} {text : String} (h : isStore argument = false)
    (hr : (s.evaluate argument).result = .ok v) (hd : display approximate v = .ok text) :
    (serve approximate s argument).result = .ok (attempt s argument).outcome.isSuccess ∧
      (serve approximate s argument).session = after s argument := by
  have hreport := Session.reports_tryEvaluate s argument
  simp [after, attempt, serve, h, hr, hd, hreport.success v hr, Outcome.isSuccess]

/-- Any other argument is worked off, be it with success or without. -/
theorem serve_of_not_stoppedBy (approximate : Bool) (h : ¬ StoppedBy s argument) :
    (serve approximate s argument).result = .ok (attempt s argument).outcome.isSuccess ∧
      (serve approximate s argument).session = after s argument := by
  cases hs : isStore argument with
  | true => exact serve_of_isStore hs
  | false =>
    cases hr : (s.evaluate argument).result with
    | error f => exact serve_of_fault hs hr
    | ok v =>
      have hv : v.WithinLimit := by
        by_contra hv
        exact h ⟨hs, v, hr, hv⟩
      obtain ⟨text, hd⟩ := (exists_display_iff approximate v).mpr hv
      exact serve_of_value hs hr hd

/-- A value beyond the limit cannot be shown, but the session has it. -/
theorem serve_of_stoppedBy (approximate : Bool) (h : StoppedBy s argument) :
    (serve approximate s argument).result = .error .overlong ∧
      (serve approximate s argument).session = after s argument := by
  obtain ⟨hs, v, hr, hv⟩ := h
  simp [after, attempt, serve, hs, hr, display_of_not_withinLimit approximate hv]

/-- How a batch ends, and in which session. -/
inductive Ending (approximate : Bool) (s : Session) (arguments : List String) : Prop where
  | complete (clear : ∀ x ∈ visits after s arguments, ¬ StoppedBy x.1 x.2)
      (result : (run approximate s arguments).result
        = .ok ((visits after s arguments).all fun x => (attempt x.1 x.2).outcome.isSuccess))
      (session : (run approximate s arguments).session = arguments.foldl after s)
  | stopped (before : List String) (argument : String) (rest : List String)
      (split : arguments = before ++ argument :: rest)
      (clear : ∀ x ∈ visits after s before, ¬ StoppedBy x.1 x.2)
      (stop : StoppedBy (before.foldl after s) argument)
      (result : (run approximate s arguments).result = .error .overlong)
      (session : (run approximate s arguments).session = after (before.foldl after s) argument)

theorem run_cons_of_ok {b : Bool} (rest : List String)
    (h : (serve approximate s argument).result = .ok b) :
    (run approximate s (argument :: rest)).result
        = (run approximate (serve approximate s argument).session rest).result.map (b && ·) ∧
      (run approximate s (argument :: rest)).session
        = (run approximate (serve approximate s argument).session rest).session := by
  simp only [run, Report.andThen, h, and_self]

theorem run_cons_of_error {e : Numeral.Overlong} (rest : List String)
    (h : (serve approximate s argument).result = .error e) :
    (run approximate s (argument :: rest)).result = .error e ∧
      (run approximate s (argument :: rest)).session = (serve approximate s argument).session := by
  simp only [run, Report.andThen, h, and_self]

theorem ending (approximate : Bool) (s : Session) (arguments : List String) :
    Ending approximate s arguments := by
  induction arguments generalizing s with
  | nil => exact .complete (by simp [visits]) rfl rfl
  | cons argument rest ih =>
    by_cases hstop : StoppedBy s argument
    · obtain ⟨hr, hs⟩ := serve_of_stoppedBy approximate hstop
      obtain ⟨hresult, hsession⟩ := run_cons_of_error rest hr
      exact .stopped [] argument rest rfl (by simp [visits]) hstop hresult (hsession.trans hs)
    · obtain ⟨hr, hs⟩ := serve_of_not_stoppedBy approximate hstop
      obtain ⟨hresult, hsession⟩ := run_cons_of_ok rest hr
      rw [hs] at hresult hsession
      cases ih (after s argument) with
      | complete clear result session =>
        rw [result] at hresult
        refine .complete ?_ hresult (hsession.trans session)
        simpa only [visits, List.forall_mem_cons] using ⟨hstop, clear⟩
      | stopped before last rest' split clear stop result session =>
        rw [result] at hresult
        refine .stopped (argument :: before) last rest' ?_ ?_ stop hresult (hsession.trans session)
        · rw [split, List.cons_append]
        · simpa only [visits, List.forall_mem_cons] using ⟨hstop, clear⟩

/-- A batch has a status exactly if none of its arguments stops it. -/
theorem exists_result_run_iff (approximate : Bool) (s : Session) (arguments : List String) :
    (∃ succeeded, (run approximate s arguments).result = .ok succeeded) ↔
      ∀ x ∈ visits after s arguments, ¬ StoppedBy x.1 x.2 := by
  cases ending approximate s arguments with
  | complete clear result _ => exact ⟨fun _ => clear, fun _ => ⟨_, result⟩⟩
  | stopped before argument rest split _ stop result _ =>
    constructor
    · rintro ⟨succeeded, h⟩
      rw [result] at h
      contradiction
    · intro h
      have hmem := mem_visits after s before argument rest
      rw [← split] at hmem
      exact absurd stop (h _ hmem)

end Batch

end RationalCalculator
