import RationalCalculator.Proofs.Expression.Dependence
import RationalCalculator.Proofs.Session.History
import RationalCalculator.Proofs.Session.Recall

/-!
# The registers an evaluation depends on

A line names the registers that are tokens of it, and if it has letters only the one of its first
letter. What it comes to depends on these and on no other register. Names of lines are letters, so
what is held under any other character is never seen by an evaluation: two groups of sessions that
differ in such registers only give the same answers as long as they run, apart from the number of
registers that a copy has. A register that is added may turn a fault into a value, but no value into
anything else.
-/

namespace RationalCalculator

namespace Session

/-- The line names the register, by a token of one letter or by the first letter of all it has. -/
inductive Names (line : String) (c : Char) : Prop where
  | token (letter : Text.isLetter c = true) (word : String.singleton c ∈ Text.split line)
  | first (cs : List Char) (text : Text.strip line.toList = c :: cs)
      (letters : ∀ d ∈ c :: cs, d.isAlpha = true)

/-- Two sessions differ at most in registers under names that are no letters. -/
structure AlikeOnLetters (s s' : Session) : Prop where
  lastResult : s.lastResult = s'.lastResult
  strict : s.strict = s'.strict
  registers : ∀ c, Text.isLetter c = true → s.registers.get? c = s'.registers.get? c

/-- The answers are the same, or both say how many registers a copy has. -/
inductive Answer.AlikeButSize : Answer → Answer → Prop where
  | same (a : Answer) : AlikeButSize a a
  | sizes (m n : Nat) : AlikeButSize (.size m) (.size n)

variable {s s' : Session} {line : String}

theorem Names.isLetter {c : Char} (h : Names line c) : Text.isLetter c = true := by
  cases h with
  | token letter _ => exact letter
  | first cs _ letters => exact Text.isLetter_of_isAlpha (letters c List.mem_cons_self)

theorem names_of_recalled {c : Char} (h : recalled? line = some c) : Names line c := by
  unfold recalled? at h
  split at h
  · contradiction
  next d ds hstrip =>
    split at h
    next hall =>
      obtain rfl := Option.some.inj h
      exact .first ds hstrip (List.all_eq_true.mp hall)
    · contradiction

theorem names_of_register_mem {c : Char} (h : .register c ∈ Token.scan line) : Names line c := by
  obtain ⟨hword, hletter⟩ := (Token.register_mem_scan_iff line c).mp h
  exact .token hletter hword

/-- The value of a line depends on the registers that it names. -/
theorem value_of_agree (hstrict : s.strict = s'.strict)
    (h : ∀ c, Names line c → s.registers.get? c = s'.registers.get? c) :
    s.value line = s'.value line := by
  cases hr : recalled? line with
  | some c => simp only [value, hr, fetch, h c (names_of_recalled hr)]
  | none =>
    rw [value_of_not_recalled hr, value_of_not_recalled hr, hstrict]
    exact evaluate_of_agree (fun c hc => h c (names_of_register_mem hc)) s'.strict

/-- A value is kept if no register loses its own. -/
theorem value_of_within (hstrict : s.strict = s'.strict) (h : s.registers.Within s'.registers)
    {v : Fraction} (hv : s.value line = .ok v) : s'.value line = .ok v := by
  cases hr : recalled? line with
  | some c =>
    simp only [value, hr, fetch] at hv ⊢
    cases hc : s.registers.get? c with
    | none => simp [hc] at hv
    | some w =>
      rw [hc] at hv
      rw [h c w hc]
      exact hv
  | none =>
    rw [value_of_not_recalled hr] at hv ⊢
    rw [← hstrict]
    exact evaluate_of_within h hv

theorem result_evaluate_congr (h : s.value line = s'.value line) :
    (s.evaluate line).result = (s'.evaluate line).result ∧
      (s.evaluate line).events = (s'.evaluate line).events := by
  rw [evaluate, evaluate, h]
  split
  · exact ⟨rfl, rfl⟩
  · exact ⟨rfl, rfl⟩

theorem result_evaluate_eq_ok_iff {v : Fraction} :
    (s.evaluate line).result = .ok v ↔ s.value line = .ok v := by
  rw [evaluate]
  cases s.value line <;> simp

namespace AlikeOnLetters

theorem refl (s : Session) : s.AlikeOnLetters s := ⟨rfl, rfl, fun _ _ => rfl⟩

theorem value_eq (h : s.AlikeOnLetters s') (line : String) : s.value line = s'.value line :=
  value_of_agree h.strict fun c hc => h.registers c hc.isLetter

theorem evaluate (h : s.AlikeOnLetters s') (line : String) :
    (s.evaluate line).session.AlikeOnLetters (s'.evaluate line).session := by
  rw [Session.evaluate, Session.evaluate, h.value_eq line]
  split
  · exact ⟨rfl, h.strict, h.registers⟩
  · exact h

theorem store (h : s.AlikeOnLetters s') (selector : String) :
    (s.store selector).result = (s'.store selector).result ∧
      (s.store selector).events = (s'.store selector).events ∧
      (s.store selector).session.AlikeOnLetters (s'.store selector).session := by
  rw [Session.store, Session.store, ← h.lastResult]
  split
  · exact ⟨rfl, rfl, h⟩
  · split
    · exact ⟨rfl, rfl, h⟩
    next c _ =>
      refine ⟨rfl, rfl, rfl, h.strict, fun d hd => ?_⟩
      rw [Registers.get?_set, Registers.get?_set, h.registers d hd]

/-- Storing under a name that is no letter is not seen. -/
theorem store_of_not_isLetter {selector : String} {c : Char}
    (hc : selector.toList.getLast? = some c) (hletter : Text.isLetter c = false) (s : Session) :
    s.AlikeOnLetters (s.store selector).session := by
  obtain hnone | ⟨v, hv⟩ := Option.eq_none_or_eq_some s.lastResult
  · rw [Session.store, hnone]
    exact refl s
  · rw [store_of_getLast? hv hc]
    refine ⟨rfl, rfl, fun d hd => ?_⟩
    have hne : c ≠ d := by
      rintro rfl
      rw [hletter] at hd
      contradiction
    rw [Registers.get?_set, if_neg hne]

end AlikeOnLetters

/-- What comes of an action in one session and in another that is alike. -/
structure Performed.Alike (p p' : Performed) : Prop where
  answer : p.answer.AlikeButSize p'.answer
  events : p.events = p'.events
  session : p.session.AlikeOnLetters p'.session

/-- Any action keeps two sessions alike. -/
theorem AlikeOnLetters.perform (h : s.AlikeOnLetters s') (action : Action) :
    (s.perform action).Alike (s'.perform action) := by
  -- Only a copy of the registers tells the two apart, by its size.
  cases action with
  | evaluate line =>
    obtain ⟨hresult, hevents⟩ := result_evaluate_congr (h.value_eq line)
    refine ⟨?_, hevents, h.evaluate line⟩
    simp only [Session.perform, hresult]
    exact .same _
  | store selector =>
    obtain ⟨hresult, hevents, hsession⟩ := h.store selector
    refine ⟨?_, hevents, hsession⟩
    simp only [Session.perform, hresult]
    exact .same _
  | tryEvaluate line =>
    obtain ⟨hresult, hevents⟩ := result_evaluate_congr (h.value_eq line)
    have hsession := h.evaluate line
    simp only [Session.perform, tryEvaluate, hresult]
    split
    · exact ⟨.same _, hevents, hsession⟩
    · exact ⟨.same _, hevents, hsession⟩
  | tryStore selector =>
    obtain ⟨hresult, hevents, hsession⟩ := h.store selector
    simp only [Session.perform, tryStore, hresult, hsession.lastResult]
    split
    · exact ⟨.same _, hevents, hsession⟩
    · exact ⟨.same _, hevents, hsession⟩
  | setStrict strict => exact ⟨.same _, rfl, h.lastResult, rfl, h.registers⟩
  | editCopy key => exact ⟨.sizes _ _, rfl, h⟩
  | writeLast =>
    refine ⟨?_, rfl, h⟩
    simp only [Session.perform, lastText, h.lastResult]
    exact .same _

theorem Performed.Alike.logged {p p' : Performed} (h : p.Alike p') : p.logged.Alike p'.logged := by
  rw [Performed.logged, Performed.logged, Performed.log, Performed.log, h.events]
  split
  · exact h
  · exact ⟨.same _, rfl, h.session⟩

namespace Group

/-- The sessions of two groups are alike, name by name. -/
structure AlikeOnLetters (g g' : Group) : Prop where
  keepsLog : g.keepsLog = g'.keepsLog
  sessions : ∀ name, (g.get name).AlikeOnLetters (g'.get name)

variable {g g' : Group}

theorem AlikeOnLetters.perform (h : g.AlikeOnLetters g') (name : String) (action : Action) :
    (g.perform name action).1.Alike (g'.perform name action).1 ∧
      (g.perform name action).2.AlikeOnLetters (g'.perform name action).2 := by
  have hperformed := (h.sessions name).perform action
  constructor
  · simp only [Group.perform, ← h.keepsLog]
    split
    · exact hperformed.logged
    · exact hperformed
  · refine ⟨h.keepsLog, fun other => ?_⟩
    by_cases hname : other = name
    · subst hname
      rw [get_perform_self, get_perform_self]
      exact hperformed.session
    · rw [get_perform_of_ne g action hname, get_perform_of_ne g' action hname]
      exact h.sessions other

/-- Groups that are alike answer alike as long as they run. -/
theorem AlikeOnLetters.run (h : g.AlikeOnLetters g') (steps : List (String × Action)) :
    List.Forall₂ Performed.Alike (g.run steps).1 (g'.run steps).1 ∧
      (g.run steps).2.AlikeOnLetters (g'.run steps).2 := by
  induction steps generalizing g g' with
  | nil => exact ⟨.nil, h⟩
  | cons step steps ih =>
    obtain ⟨hfirst, hnext⟩ := h.perform step.1 step.2
    obtain ⟨hrest, hend⟩ := ih hnext
    exact ⟨.cons hfirst hrest, hend⟩

theorem alikeOnLetters_store {selector : String} {c : Char}
    (hc : selector.toList.getLast? = some c) (hletter : Text.isLetter c = false) (g : Group)
    (name : String) : g.AlikeOnLetters (g.perform name (.store selector)).2 where
  keepsLog := rfl
  sessions other := by
    by_cases hname : other = name
    · subst hname
      rw [get_perform_self]
      exact .store_of_not_isLetter hc hletter (g.get other)
    · rw [get_perform_of_ne g _ hname]
      exact .refl (g.get other)

end Group

/-- Two sessions that hold the same under the names of a line evaluate it alike, value or fault. A
store under a name that is no letter changes no later answer of any session, apart from the size of
a copy of the registers. Whatever else the registers come to hold, a value stays what it was. -/
theorem evaluate_reads_named_registers :
    (∀ (s s' : Session) (line : String), s.strict = s'.strict →
      (∀ c, Names line c → s.registers.get? c = s'.registers.get? c) →
      (s.evaluate line).result = (s'.evaluate line).result ∧
        (s.evaluate line).events = (s'.evaluate line).events) ∧
    (∀ (g : Group) (name selector : String) (c : Char), selector.toList.getLast? = some c →
      Text.isLetter c = false → ∀ steps : List (String × Action),
      List.Forall₂ Performed.Alike (g.run steps).1
        ((g.perform name (.store selector)).2.run steps).1) ∧
    (∀ (s s' : Session) (line : String) (v : Fraction), s.strict = s'.strict →
      s.registers.Within s'.registers → (s.evaluate line).result = .ok v →
      (s'.evaluate line).result = .ok v) := by
  refine ⟨?_, ?_, ?_⟩
  · intro s s' line hstrict h
    exact result_evaluate_congr (value_of_agree hstrict h)
  · intro g name selector c hc hletter steps
    exact ((Group.alikeOnLetters_store hc hletter g name).run steps).1
  · intro s s' line v hstrict h hv
    rw [result_evaluate_eq_ok_iff] at hv ⊢
    exact value_of_within hstrict h hv

theorem names_a_plus_one {c : Char} (h : Names "a + 1" c) : c = 'a' := by
  cases h with
  | token letter word =>
    have hsplit : Text.split "a + 1" =
        [String.singleton 'a', String.singleton '+', String.singleton '1'] := by decide +kernel
    have hplus : ¬ Text.isLetter '+' = true := by decide +kernel
    have hone : ¬ Text.isLetter '1' = true := by decide +kernel
    rw [hsplit] at word
    simp only [List.mem_cons, List.not_mem_nil, or_false, String.singleton_inj] at word
    rcases word with h | h | h
    · exact h
    · exact absurd (h ▸ letter) hplus
    · exact absurd (h ▸ letter) hone
  | first cs text letters =>
    have hstrip : Text.strip "a + 1".toList = ['a', ' ', '+', ' ', '1'] := by decide +kernel
    rw [← text, hstrip] at letters
    exact absurd (letters ' ' (by decide)) (by decide)

/-- What is stored under `1` plays no part in `a + 1`, neither from the start nor later on. -/
theorem evaluate_reads_named_registers_at_a_plus_one :
    ∃ (s s' : Session) (g : Group), s.registers.get? '1' ≠ s'.registers.get? '1' ∧
      (s.evaluate "a + 1").result = .ok (.ofInt 3) ∧
      (s'.evaluate "a + 1").result = (s.evaluate "a + 1").result ∧
      (g.perform "one" (.store "1")).1.answer = .done ∧
      List.Forall₂ Performed.Alike (g.run [("one", .evaluate "1 + 1")]).1
        ((g.perform "one" (.store "1")).2.run [("one", .evaluate "1 + 1")]).1 ∧
      (s'.evaluate "a + 1").result = .ok (.ofInt 3) := by
  let s : Session := ⟨some (.ofInt 5), Registers.empty.set 'a' (.ofInt 2), false⟩
  let s' : Session := ⟨none, s.registers.set '1' (.ofInt 5), false⟩
  let g : Group := ⟨false, false, [("one", s)]⟩
  obtain ⟨hagree, hstore, hkept⟩ := evaluate_reads_named_registers
  have hnamed : ∀ c, Names "a + 1" c → s.registers.get? c = s'.registers.get? c := by
    intro c hc
    obtain rfl := names_a_plus_one hc
    decide +kernel
  have hwithin : s.registers.Within s'.registers := by
    intro c v hv
    have hone : '1' ≠ c := by
      intro hc
      have hnone : s.registers.get? '1' = none := by decide +kernel
      rw [← hc, hnone] at hv
      contradiction
    simpa only [s', Registers.get?_set, if_neg hone] using hv
  have hvalue : (s.evaluate "a + 1").result = .ok (.ofInt 3) := by decide +kernel
  have hlast : "1".toList.getLast? = some '1' := by decide
  have hletter : Text.isLetter '1' = false := by decide +kernel
  exact ⟨s, s', g, by decide +kernel, hvalue, (hagree s s' "a + 1" rfl hnamed).1.symm, rfl,
    hstore g "one" "1" '1' hlast hletter _, hkept s s' "a + 1" _ rfl hwithin hvalue⟩

end Session

end RationalCalculator
