import RationalCalculator.Proofs.Session.Answers
import RationalCalculator.Session.Group

/-!
# Sessions and their history

What a session holds can be read off its own history, the actions that went to it with their
answers: the last result is the value of the last evaluation that succeeded, and a register holds
what the last result was at the last store under its name. One action keeps this up
(`Remembers.perform`), so a run does. No session takes part in the actions of another, so each of
them answers as if the others did not exist.
-/

namespace RationalCalculator

namespace Session

/-- An action and its answer. -/
structure Entry where
  action : Action
  answer : Answer

/-- The value of an evaluation that succeeded. -/
def Entry.value? : Entry → Option Fraction
  | ⟨.evaluate _, .value v⟩ => some v
  | ⟨.tryEvaluate _, .outcome (.success v)⟩ => v
  | _ => none

/-- The register of a store that succeeded. -/
def Entry.name? : Entry → Option Char
  | ⟨.store selector, .done⟩ => selector.toList.getLast?
  | ⟨.tryStore selector, .outcome (.success _)⟩ => selector.toList.getLast?
  | _ => none

/-- The value of the last evaluation that succeeded. -/
def lastValue (history : List Entry) : Option Fraction := (history.filterMap Entry.value?).getLast?

/-- When something was last stored under `name`, the last value was `v`. -/
def StoredLast (history : List Entry) (name : Char) (v : Fraction) : Prop :=
  ∃ before e after, history = before ++ e :: after ∧ e.name? = some name ∧
    lastValue before = some v ∧ ∀ e' ∈ after, e'.name? ≠ some name

/-- The session holds what its history says, and nothing else. -/
structure Remembers (s : Session) (history : List Entry) : Prop where
  lastResult : s.lastResult = lastValue history
  registers : ∀ name v, s.registers.get? name = some v ↔ StoredLast history name v

theorem lastValue_concat (history : List Entry) (e : Entry) :
    lastValue (history ++ [e]) = e.value?.or (lastValue history) := by
  rw [lastValue, List.filterMap_append]
  cases h : e.value? with
  | none => simp [h, lastValue]
  | some v => simp [h]

theorem storedLast_concat (history : List Entry) (e : Entry) (name : Char) (v : Fraction) :
    StoredLast (history ++ [e]) name v ↔
      if e.name? = some name then lastValue history = some v else StoredLast history name v := by
  constructor
  · rintro ⟨before, e', after, heq, hname, hv, hafter⟩
    rcases List.eq_nil_or_concat after with rfl | ⟨after, last, rfl⟩
    · obtain ⟨rfl, hlast⟩ := List.append_inj' heq rfl
      obtain rfl := List.singleton_inj.mp hlast
      rwa [if_pos hname]
    · rw [List.concat_eq_append, ← List.cons_append, ← List.append_assoc] at heq
      obtain ⟨rfl, hlast⟩ := List.append_inj' heq rfl
      obtain rfl := List.singleton_inj.mp hlast
      rw [if_neg (hafter e (by simp))]
      exact ⟨before, e', after, rfl, hname, hv, fun x hx => hafter x (by simp [hx])⟩
  · split
    next hname =>
      intro hv
      exact ⟨history, e, [], rfl, hname, hv, by simp⟩
    next hname =>
      rintro ⟨before, e', after, rfl, hname', hv, hafter⟩
      refine ⟨before, e', after ++ [e], by simp, hname', hv, ?_⟩
      intro x hx
      rcases List.mem_append.mp hx with hx | hx
      · exact hafter x hx
      · rwa [List.mem_singleton.mp hx]

/-- How a store ends, and in which session. -/
inductive Stored (s : Session) (selector : String) : Prop where
  | done (v : Fraction) (name : Char) (last : s.lastResult = some v)
      (selects : selector.toList.getLast? = some name)
      (result : (s.store selector).result = .ok ())
      (session : (s.store selector).session = { s with registers := s.registers.set name v })
  | failed (f : Fault) (result : (s.store selector).result = .error f)
      (session : (s.store selector).session = s)

theorem stored (s : Session) (selector : String) : Stored s selector := by
  cases hv : s.lastResult with
  | none => exact .failed .noResult (by rw [store, hv]) (by rw [store, hv])
  | some v =>
    cases hc : selector.toList.getLast? with
    | none => exact .failed .noSelector (by simp only [store, hv, hc]) (by simp only [store, hv, hc])
    | some c => exact .done v c hv hc (by simp only [store, hv, hc]) (by simp only [store, hv, hc])

/-- What is entered into the history when a session performs an action. -/
def entry (s : Session) (action : Action) : Entry := ⟨action, (s.perform action).answer⟩

/-- The last result changes with an evaluation that succeeds and with nothing else. -/
theorem lastResult_perform (s : Session) (action : Action) :
    (s.perform action).session.lastResult = (s.entry action).value?.or s.lastResult := by
  cases action with
  | evaluate line =>
    cases evaluated s line with
    | value v hr hs => simp [perform, entry, Entry.value?, hr, hs]
    | invalid hr hs => simp [perform, entry, Entry.value?, hr, hs]
    | divided hr hs => simp [perform, entry, Entry.value?, hr, hs]
  | tryEvaluate line =>
    have ht := reports_tryEvaluate s line
    cases evaluated s line with
    | value v hr hs => simp [perform, entry, Entry.value?, ht.success v hr, hs]
    | invalid hr hs => simp [perform, entry, Entry.value?, ht.failure _ hr, hs]
    | divided hr hs => simp [perform, entry, Entry.value?, ht.failure _ hr, hs]
  | store selector => simp [perform, entry, Entry.value?, lastResult_store]
  | tryStore selector => simp [perform, entry, Entry.value?, lastResult_store]
  | setStrict strict => simp [perform, entry, Entry.value?]
  | editCopy key => simp [perform, entry, Entry.value?]
  | writeLast => simp [perform, entry, Entry.value?]

/-- A register changes with a store under its name that succeeds and with nothing else. -/
theorem get?_perform (s : Session) (action : Action) (name : Char) :
    (s.perform action).session.registers.get? name =
      if (s.entry action).name? = some name then s.lastResult else s.registers.get? name := by
  cases action with
  | evaluate line => simp [perform, entry, Entry.name?, registers_evaluate]
  | tryEvaluate line => simp [perform, entry, Entry.name?, registers_evaluate]
  | store selector =>
    cases stored s selector with
    | done v c hl hc hr hs =>
      simp [perform, entry, Entry.name?, hl, hc, hr, hs, Registers.get?_set]
    | failed f hr hs => simp [perform, entry, Entry.name?, hr, hs]
  | tryStore selector =>
    have ht := reports_tryStore s selector
    cases stored s selector with
    | done v c hl hc hr hs =>
      simp [perform, entry, Entry.name?, hl, hc, ht.success () hr, hs, Registers.get?_set]
    | failed f hr hs => simp [perform, entry, Entry.name?, ht.failure f hr, hs]
  | setStrict strict => simp [perform, entry, Entry.name?]
  | editCopy key => simp [perform, entry, Entry.name?]
  | writeLast => simp [perform, entry, Entry.name?]

theorem remembers_start (strict : Bool) : (start strict).Remembers [] where
  lastResult := rfl
  registers name v := by simp [start, StoredLast]

/-- Any action keeps up what the session remembers. -/
theorem Remembers.perform {s : Session} {history : List Entry} (h : s.Remembers history)
    (action : Action) : (s.perform action).session.Remembers (history ++ [s.entry action]) where
  lastResult := by rw [lastResult_perform, lastValue_concat, h.lastResult]
  registers name v := by
    rw [get?_perform, storedLast_concat, ← h.lastResult]
    split
    · rfl
    · exact h.registers name v

/-- What the actions of one kind leave alone. -/
structure Frames (s : Session) : Prop where
  evaluate : ∀ line, (s.perform (.evaluate line)).session.registers = s.registers
  tryEvaluate : ∀ line, (s.perform (.tryEvaluate line)).session.registers = s.registers
  store : ∀ selector, (s.perform (.store selector)).session.lastResult = s.lastResult
  tryStore : ∀ selector, (s.perform (.tryStore selector)).session.lastResult = s.lastResult
  failedStore : ∀ selector f, (s.perform (.store selector)).answer = .fault f →
    (s.perform (.store selector)).session = s
  failedTryStore : ∀ selector f, (s.perform (.tryStore selector)).answer = .outcome (.failure f) →
    (s.perform (.tryStore selector)).session = s

theorem frames (s : Session) : Frames s where
  evaluate := registers_evaluate s
  tryEvaluate line := by rw [perform, session_tryEvaluate, registers_evaluate]
  store := lastResult_store s
  tryStore selector := by rw [perform, session_tryStore, lastResult_store]
  failedStore selector f h := by
    cases stored s selector with
    | done v c hl hc hr hs => simp [perform, hr] at h
    | failed f hr hs => exact hs
  failedTryStore selector f h := by
    have ht := reports_tryStore s selector
    cases stored s selector with
    | done v c hl hc hr hs => simp [perform, ht.success () hr] at h
    | failed f hr hs => exact ht.session.trans hs

namespace Group

/-- A group of new sessions that keeps no log: those that are listed are strict or not as they
are listed, and all others as `strict` says. -/
def fresh (strict : Bool) (modes : List (String × Bool)) : Group :=
  ⟨strict, false, modes.map fun m => (m.1, Session.start m.2)⟩

/-- The steps of one session. -/
def own (name : String) (steps : List (String × Action)) : List (String × Action) :=
  steps.filter (·.1 = name)

/-- The steps of one session with what came of them. -/
def ownPerformed (g : Group) (name : String) (steps : List (String × Action)) :
    List ((String × Action) × Performed) :=
  (steps.zip (g.run steps).1).filter (·.1.1 = name)

/-- The history of one session. -/
def history (g : Group) (name : String) (steps : List (String × Action)) : List Entry :=
  (g.ownPerformed name steps).map fun x => ⟨x.1.2, x.2.answer⟩

variable {g : Group} {name : String}

theorem exists_get_fresh (strict : Bool) (modes : List (String × Bool)) (name : String) :
    ∃ b, (fresh strict modes).get name = .start b := by
  rw [get, fresh]
  induction modes with
  | nil => exact ⟨strict, rfl⟩
  | cons m modes ih =>
    rw [List.map_cons, List.lookup_cons]
    by_cases h : name = m.1
    · exact ⟨m.2, by simp [h]⟩
    · have hne : (name == m.1) = false := by simpa using h
      simpa only [hne] using ih

theorem get_perform_self (g : Group) (name : String) (action : Action) :
    (g.perform name action).2.get name = ((g.get name).perform action).session := by
  simp [Group.perform, get_put]

theorem ownPerformed_cons (n : String) (action : Action) (steps : List (String × Action)) :
    g.ownPerformed name ((n, action) :: steps) =
      if n = name then ((n, action), (g.perform n action).1) ::
        (g.perform n action).2.ownPerformed name steps
      else (g.perform n action).2.ownPerformed name steps := by
  simp only [ownPerformed, run, List.zip_cons_cons, List.filter_cons, decide_eq_true_eq]

theorem run_append (g : Group) (done rest : List (String × Action)) :
    g.run (done ++ rest) = ((g.run done).1 ++ ((g.run done).2.run rest).1,
      ((g.run done).2.run rest).2) := by
  induction done generalizing g with
  | nil => rfl
  | cons step done ih =>
    simp only [List.cons_append, run, ih]

/-- A run keeps up what each of the sessions remembers. -/
theorem remembers_run (hlog : g.keepsLog = false) {past : List Entry}
    (h : (g.get name).Remembers past) (steps : List (String × Action)) :
    ((g.run steps).2.get name).Remembers (past ++ g.history name steps) := by
  induction steps generalizing g past with
  | nil => simpa [run, history, ownPerformed] using h
  | cons step steps ih =>
    obtain ⟨n, action⟩ := step
    have hlog' : (g.perform n action).2.keepsLog = false := hlog
    rw [history, ownPerformed_cons]
    by_cases hn : n = name
    · subst hn
      have hstep := h.perform action
      rw [← get_perform_self] at hstep
      have hanswer : (g.perform n action).1.answer = ((g.get n).perform action).answer := by
        simp [Group.perform, hlog]
      have hrun := ih hlog' hstep
      rw [List.append_assoc] at hrun
      rwa [if_pos rfl, List.map_cons, hanswer]
    · rw [← get_perform_of_ne g action (Ne.symm hn)] at h
      rw [if_neg hn]
      exact ih hlog' h

/-- Two groups that agree on one session: what the session does among the others in one of them is
what it does alone in the other. -/
theorem run_own {g' : Group} (hlog : g.keepsLog = g'.keepsLog) (hget : g.get name = g'.get name)
    (steps : List (String × Action)) :
    (g.ownPerformed name steps).map (·.2) = (g'.run (own name steps)).1 ∧
      (g.run steps).2.get name = (g'.run (own name steps)).2.get name := by
  induction steps generalizing g g' with
  | nil => exact ⟨rfl, hget⟩
  | cons step steps ih =>
    obtain ⟨n, action⟩ := step
    rw [ownPerformed_cons, own, List.filter_cons]
    by_cases hn : n = name
    · subst hn
      have hperform : (g.perform n action).1 = (g'.perform n action).1 := by
        rw [Group.perform, Group.perform, hget, hlog]
      have hnext : (g.perform n action).2.get n = (g'.perform n action).2.get n := by
        rw [get_perform_self, get_perform_self, hget]
      have hlog' : (g.perform n action).2.keepsLog = (g'.perform n action).2.keepsLog := hlog
      obtain ⟨hanswers, hend⟩ := ih hlog' hnext
      simp only [if_true, decide_true, List.map_cons, run]
      exact ⟨congrArg₂ List.cons hperform hanswers, hend⟩
    · have hnext : (g.perform n action).2.get name = g'.get name :=
        (get_perform_of_ne g action (Ne.symm hn)).trans hget
      simp only [hn, if_false, decide_false, Bool.false_eq_true]
      exact ih hlog hnext

/-- After every step of every run over new sessions, each session holds exactly what its own
history says. Evaluations change no register, stores do not change the last result, and a store
that fails changes nothing. Each session answers, step by step, as it does when its own steps are
all there is. -/
theorem remembers_own_history :
    (∀ (strict : Bool) (modes : List (String × Bool)) (steps : List (String × Action))
      (name : String), (((fresh strict modes).run steps).2.get name).Remembers
        ((fresh strict modes).history name steps)) ∧
    (∀ (g : Group) (done rest : List (String × Action)), g.run (done ++ rest) =
      ((g.run done).1 ++ ((g.run done).2.run rest).1, ((g.run done).2.run rest).2)) ∧
    (∀ s : Session, Frames s) ∧
    (∀ (g : Group) (steps : List (String × Action)) (name : String),
      (g.ownPerformed name steps).map (·.2) = (g.run (own name steps)).1 ∧
        (g.run steps).2.get name = (g.run (own name steps)).2.get name) := by
  refine ⟨?_, run_append, frames, fun g steps name => run_own rfl rfl steps⟩
  intro strict modes steps name
  obtain ⟨b, hb⟩ := exists_get_fresh strict modes name
  have hstart : ((fresh strict modes).get name).Remembers [] := by
    rw [hb]
    exact remembers_start b
  exact remembers_run rfl hstart steps

end Group

end Session

end RationalCalculator
