import RationalCalculator.Proofs.FrontEnd.Agreement
import RationalCalculator.Proofs.FrontEnd.ConsoleTranscript
import RationalCalculator.Proofs.Session.Recall

/-!
# What a line changes of a console

A line that is refused changes nothing of a console. A line that is accepted changes one thing, and
the kind of line says which: a word to quit ends the console, a request to store sets one register to
the last result, and any other line but one for help has its value become the last result. This says
which lines are accepted, too (`changes_iff`). So no line touches both the last result and the
registers, and a console that has been ended stays ended, whatever lines it is asked to answer.
-/

namespace RationalCalculator

/-- The line is a request to store, well-formed or not. -/
def AsksToStore (line : String) : Prop :=
  Text.smalls (Text.stripped line) = "store" ∨
    "store ".toList <+: (Text.smalls (Text.stripped line)).toList

namespace Command

theorem ofLine_of_help {line : String} (h : Text.smalls (Text.stripped line) = "help") :
    ofLine line = .help := by
  simp [ofLine, h]

theorem ofLine_of_asksToStore {line : String} (h : AsksToStore line) :
    ofLine line = .store (Text.split line) := by
  have hne (word : String) (hword : word ≠ "store")
      (hfront : ¬ "store ".toList <+: word.toList) :
      Text.smalls (Text.stripped line) ≠ word := by
    rintro rfl
    exact h.elim hword hfront
  have hquit := hne "quit" (by decide) (by decide)
  have hexit := hne "exit" (by decide) (by decide)
  have hhelp := hne "help" (by decide) (by decide)
  rw [AsksToStore, ← List.isPrefixOf_iff_prefix] at h
  simp only [ofLine, hquit, hexit, hhelp, h, Text.split_stripped, or_self, if_true, if_false]

/-- The kinds of lines, and the commands that they are. -/
theorem ofLine_cases (line : String) :
    (Text.smalls (Text.stripped line) ∈ ["quit", "exit"] ∧ ofLine line = .quit) ∨
    (Text.smalls (Text.stripped line) = "help" ∧ ofLine line = .help) ∨
    (AsksToStore line ∧ ofLine line = .store (Text.split line)) ∨
    (NoCommand line ∧ ofLine line = .evaluate (Text.stripped line)) := by
  by_cases hquit : Text.smalls (Text.stripped line) ∈ ["quit", "exit"]
  · exact .inl ⟨hquit, (ofLine_eq_quit_iff line).mpr hquit⟩
  by_cases hhelp : Text.smalls (Text.stripped line) = "help"
  · exact .inr (.inl ⟨hhelp, ofLine_of_help hhelp⟩)
  by_cases hstore : AsksToStore line
  · exact .inr (.inr (.inl ⟨hstore, ofLine_of_asksToStore hstore⟩))
  · have hno : NoCommand line := by
      obtain ⟨hword, hfront⟩ := not_or.mp hstore
      refine ⟨?_, hfront⟩
      simp only [List.mem_cons, List.not_mem_nil, or_false, not_or] at hquit ⊢
      exact ⟨hquit.1, hquit.2, hhelp, hword⟩
    exact .inr (.inr (.inr ⟨hno, ofLine_of_noCommand hno⟩))

end Command

namespace Console

/-- The console that an accepted line makes of a console, by the kind of the line. What becomes the
last result is in lowest terms, as every `Fraction` is. -/
inductive Changes (c : Console) (line : String) : Console → Prop where
  | running (quits : Text.smalls (Text.stripped line) ∈ ["quit", "exit"]) :
      Changes c line { c with running := false }
  | nothing (helps : Text.smalls (Text.stripped line) = "help") : Changes c line c
  | register (command : String) (name : Char) (v : Fraction) (stores : AsksToStore line)
      (words : Text.split line = [command, String.singleton name])
      (last : c.session.lastResult = some v) :
      Changes c line
        { c with session := { c.session with registers := c.session.registers.set name v } }
  | lastResult (v : Fraction) (other : NoCommand line) (checked : isPlausible line = true)
      (value : c.session.value line = .ok v) (short : v.WithinLimit) :
      Changes c line { c with session := { c.session with lastResult := some v } }

/-- The line is accepted. -/
def Accepts (c : Console) (approximate : Bool) (line : String) : Prop :=
  ∃ text, (c.answer approximate line).result = .ok (.accepted text)

variable {approximate : Bool} {c d : Console} {line text shown : String} {words : List String}

theorem store_of_lastResult (command : String) (name : Char) {v : Fraction}
    (hv : c.session.lastResult = some v) :
    (∃ shown, (c.store [command, String.singleton name]).result = .ok (.accepted shown)) ∧
      (c.store [command, String.singleton name]).console
        = { c with session := { c.session with registers := c.session.registers.set name v } } := by
  have hlast : (String.singleton name).toList.getLast? = some name := by
    rw [String.toList_singleton]
    rfl
  simp [store, Session.store_of_getLast? hv hlast]

/-- Nothing but the last result is stored, under a name of one character. -/
theorem exists_of_store_accepted (h : (c.store words).result = .ok (.accepted shown)) :
    ∃ command name v, words = [command, String.singleton name] ∧
      c.session.lastResult = some v := by
  unfold store at h
  split at h
  next command selector =>
    by_cases hl : selector.length = 1
    · obtain ⟨name, hname⟩ := List.length_eq_one_iff.mp (String.length_toList.trans hl)
      have hselector : selector = String.singleton name := by
        rw [← String.toList_inj, hname, String.toList_singleton]
      obtain hv | ⟨v, hv⟩ := Option.eq_none_or_eq_some c.session.lastResult
      · have hstore : (c.session.store selector).result = .error .noResult := by
          rw [Session.store, hv]
        simp [hl, hstore, refusal] at h
      · exact ⟨command, name, v, by rw [hselector], hv⟩
    · simp [hl] at h
  next => simp at h

theorem evaluate_of_value {v : Fraction} (hp : isPlausible text = true)
    (hv : c.session.value text = .ok v) (hw : v.WithinLimit) :
    (∃ shown, (c.evaluate approximate text).result = .ok (.accepted shown)) ∧
      (c.evaluate approximate text).console
        = { c with session := { c.session with lastResult := some v } } := by
  obtain ⟨shown, hshown⟩ := (exists_display_iff approximate v).mpr hw
  simp [evaluate, hp, Session.evaluate_of_value hv, hshown]

theorem exists_of_evaluate_accepted
    (h : (c.evaluate approximate text).result = .ok (.accepted shown)) :
    isPlausible text = true ∧ ∃ v, c.session.value text = .ok v ∧ v.WithinLimit := by
  unfold evaluate at h
  by_cases hp : isPlausible text = true
  · refine ⟨hp, ?_⟩
    simp only [hp, if_true] at h
    cases hv : c.session.value text with
    | error f => simp [Session.evaluate_of_fault hv, refusal] at h
    | ok v =>
      rw [Session.evaluate_of_value hv] at h
      refine ⟨v, rfl, (exists_display_iff approximate v).mp ?_⟩
      cases hshown : display approximate v with
      | ok shown => exact ⟨shown, rfl⟩
      | error e => simp [hshown] at h
  · simp [hp] at h

theorem accepts_of_changes (h : c.Changes line d) :
    c.Accepts approximate line ∧ (c.answer approximate line).console = d := by
  unfold Accepts answer
  cases h with
  | running quits =>
    rw [(Command.ofLine_eq_quit_iff line).mpr quits]
    exact ⟨⟨_, rfl⟩, rfl⟩
  | nothing helps =>
    rw [Command.ofLine_of_help helps]
    exact ⟨⟨_, rfl⟩, rfl⟩
  | register command name v stores hwords last =>
    rw [Command.ofLine_of_asksToStore stores, hwords]
    exact store_of_lastResult command name last
  | lastResult v other checked value short =>
    rw [Command.ofLine_of_noCommand other]
    exact evaluate_of_value ((isPlausible_stripped line).trans checked)
      ((c.session.value_stripped line).trans value) short

theorem exists_changes_of_accepts (h : c.Accepts approximate line) : ∃ d, c.Changes line d := by
  obtain ⟨text, h⟩ := h
  unfold answer at h
  obtain ⟨hkind, hline⟩ | ⟨hkind, hline⟩ | ⟨hkind, hline⟩ | ⟨hkind, hline⟩ :=
    Command.ofLine_cases line
  · exact ⟨_, .running hkind⟩
  · exact ⟨_, .nothing hkind⟩
  · rw [hline] at h
    obtain ⟨command, name, v, hwords, hv⟩ := exists_of_store_accepted h
    exact ⟨_, .register command name v hkind hwords hv⟩
  · rw [hline] at h
    obtain ⟨hp, v, hv, hw⟩ := exists_of_evaluate_accepted h
    exact ⟨_, .lastResult v hkind ((isPlausible_stripped line).symm.trans hp)
      ((c.session.value_stripped line).symm.trans hv) hw⟩

/-- A line is accepted if and only if it changes something of its kind, and then it does. -/
theorem changes_iff :
    c.Changes line d ↔ c.Accepts approximate line ∧ (c.answer approximate line).console = d := by
  constructor
  · exact accepts_of_changes
  · rintro ⟨haccepts, rfl⟩
    obtain ⟨d, hd⟩ := exists_changes_of_accepts haccepts
    have hconsole : (c.answer approximate line).console = d := (accepts_of_changes hd).2
    rwa [hconsole]

/-- A request to store leaves the last result alone, and any other line leaves the registers alone. -/
theorem lastResult_or_registers_after (c : Console) (line : String) :
    (c.after line).session.lastResult = c.session.lastResult ∨
      (c.after line).session.registers = c.session.registers := by
  unfold after
  split
  next => exact .inl rfl
  next => exact .inl rfl
  next words _ =>
    left
    unfold afterStore
    split
    · split
      · rw [Session.session_tryStore, Session.lastResult_store]
      · rfl
    · rfl
  next text _ =>
    right
    unfold afterEvaluate
    split
    · rw [Session.session_tryEvaluate, Session.registers_evaluate]
    · rfl

/-- No line starts a console again, whether it is answered or not. -/
theorem running_after_of_not_running (h : c.running = false) (line : String) :
    (c.after line).running = false := by
  by_cases hquit : Command.ofLine line = .quit
  · rw [after_of_quit hquit]
  · rw [running_after_of_ne_quit hquit, h]

theorem running_of_mem_answers {lines : List String} {a : Answer} (h : c.running = false)
    (ha : a ∈ c.answers approximate lines) : a.console.running = false := by
  induction lines generalizing c with
  | nil => contradiction
  | cons line rest ih =>
    have hnext : (c.answer approximate line).console.running = false := by
      rw [console_answer]
      exact running_after_of_not_running h line
    simp only [answers, List.mem_cons] at ha
    rcases ha with hfirst | hrest
    · rw [hfirst, hnext]
    · exact ih hnext hrest

/-- A refused line changes nothing. A line is accepted exactly if it has one thing to change by its
kind, and then it changes that. Of the last result and the registers a line leaves one alone in any
case, and none of the lines that come after the end of a console starts it again. -/
theorem answer_changes_one_thing (c : Console) (approximate : Bool) (line : String) :
    let a := c.answer approximate line
    (∀ text, a.result = .ok (.refused text) → a.console = c) ∧
    (∀ d, c.Changes line d ↔ c.Accepts approximate line ∧ a.console = d) ∧
    (a.console.session.lastResult = c.session.lastResult ∨
      a.console.session.registers = c.session.registers) ∧
    (c.running = false →
      ∀ lines, ∀ b ∈ c.answers approximate (line :: lines), b.console.running = false) := by
  intro a
  refine ⟨fun text h => console_answer_of_refused h, fun d => changes_iff, ?_, ?_⟩
  · have hafter : a.console = c.after line := console_answer c approximate line
    rw [hafter]
    exact lastResult_or_registers_after c line
  · intro h lines b hb
    exact running_of_mem_answers h hb

/-- Three halves are stored under a letter that is not an ASCII letter; a second name for the register
is refused, as is a quotient by zero. -/
theorem answer_changes_one_thing_at_store :
    ∃ c : Console, c.session.lastResult = some (.reduce 3 2 (by decide)) ∧
      c.Changes " Store é" (c.answer false " Store é").console ∧
      (c.answer false " Store é").console.session.registers.get? 'é'
        = some (.reduce 3 2 (by decide)) ∧
      (c.answer false "store a b").console = c ∧ (c.answer false "1 / 0").console = c := by
  let c := (Console.mk (.start true) true).after "3 / 2"
  have hlast : c.session.lastResult = some (.reduce 3 2 (by decide)) := by decide +kernel
  have hstored : (c.answer false " Store é").result = .ok (.accepted "Value é stored.") := by
    decide +kernel
  have hregister : (c.answer false " Store é").console.session.registers.get? 'é'
      = some (.reduce 3 2 (by decide)) := by decide +kernel
  have hnames : (c.answer false "store a b").result
      = .ok (.refused "Error: Invalid store command format") := by decide +kernel
  have hzero : (c.answer false "1 / 0").result
      = .ok (.refused "Error: Division by zero is not allowed.") := by decide +kernel
  obtain ⟨-, hchanges, -⟩ := answer_changes_one_thing c false " Store é"
  obtain ⟨hformat, -⟩ := answer_changes_one_thing c false "store a b"
  obtain ⟨hdivided, -⟩ := answer_changes_one_thing c false "1 / 0"
  exact ⟨c, hlast, (hchanges _).mpr ⟨⟨_, hstored⟩, rfl⟩, hregister, hformat _ hnames,
    hdivided _ hzero⟩

end Console

end RationalCalculator
