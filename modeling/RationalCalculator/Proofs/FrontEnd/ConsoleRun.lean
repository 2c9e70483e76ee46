import RationalCalculator.Console
import RationalCalculator.Proofs.FrontEnd.BatchRun

/-!
# How a console ends

Each input of a console finds the console that the inputs before it have left. A console reads on
until it is told to quit or the input is over, unless a line has a value beyond the digit limit.
Then it ends with the first such line, and its session has the value already.
-/

namespace RationalCalculator

theorem Text.small_of_not_isAlpha {c : Char} (h : c.isAlpha = false) :
    small c = 'k' ∨ small c = c := by
  unfold small
  split
  · exact .inl rfl
  · refine .inr (Char.toLower_eq_of_not_isUpper ?_)
    rw [Char.isAlpha, Bool.or_eq_false_iff] at h
    rw [h.1]
    exact Bool.false_ne_true

/-- Every command starts with an ASCII letter. -/
theorem Command.ofLine_of_not_isAlpha {line : String} {c : Char} {cs : List Char}
    (h : Text.strip line.toList = c :: cs) (hc : c.isAlpha = false) :
    ofLine line = .evaluate (Text.stripped line) := by
  have hword : (Text.smalls (Text.stripped line)).toList = Text.small c :: cs.map Text.small := by
    rw [Text.smalls, Text.stripped, String.toList_ofList, String.toList_ofList, h, List.map_cons]
  have hhead : Text.small c ∉ ['q', 'e', 'h', 's'] := by
    intro hmem
    rcases Text.small_of_not_isAlpha hc with hk | hs
    · rw [hk] at hmem
      exact absurd hmem (by decide)
    · rw [hs] at hmem
      have hall : ∀ a ∈ ['q', 'e', 'h', 's'], a.isAlpha = true := by simp
      rw [hall c hmem] at hc
      contradiction
  simp only [List.mem_cons, List.not_mem_nil, or_false, not_or] at hhead
  obtain ⟨hq, he, hh, hs⟩ := hhead
  simp only [ofLine]
  generalize Text.smalls (Text.stripped line) = word at hword
  have hne {name : String} {a : Char} {as : List Char} (hname : name.toList = a :: as)
      (ha : Text.small c ≠ a) : word ≠ name := by
    rintro rfl
    rw [hword] at hname
    exact ha (List.cons.inj hname).1
  have hstored : "store ".toList.isPrefixOf word.toList = false := by
    rw [hword]
    exact Bool.and_eq_false_iff.mpr (.inl (beq_eq_false_iff_ne.mpr (Ne.symm hs)))
  have hquit : word ≠ "quit" := hne rfl hq
  have hexit : word ≠ "exit" := hne rfl he
  have hhelp : word ≠ "help" := hne rfl hh
  have hstore : word ≠ "store" := hne rfl hs
  simp only [hquit, hexit, hhelp, hstore, hstored, Bool.false_eq_true, or_self, if_false]

theorem Command.ofLine_of_blank {line : String} (h : Text.strip line.toList = []) :
    ofLine line = .evaluate "" := by
  have htext : Text.stripped line = "" := by rw [Text.stripped, h]
  rw [ofLine, htext]
  decide

/-- The empty text has no value. -/
theorem Session.evaluate_empty (s : Session) :
    s.evaluate "" = ⟨.error (.invalidExpression ""), s, [.rejected "" .emptyExpression]⟩ :=
  evaluate_of_readingFault rfl rfl

namespace Console

/-- The console after it has been asked to store, in these words. -/
def afterStore (c : Console) (words : List String) : Console :=
  match words with
  | [_, selector] =>
    if selector.length = 1 then { c with session := (c.session.tryStore selector).session } else c
  | _ => c

/-- The console after it has been asked for the value of a text. -/
def afterEvaluate (c : Console) (text : String) : Console :=
  if isPlausible text then { c with session := (c.session.tryEvaluate text).session } else c

/-- The console after a line, whatever is shown for it. -/
def after (c : Console) (line : String) : Console :=
  match Command.ofLine line with
  | .quit => { c with running := false }
  | .help => c
  | .store words => c.afterStore words
  | .evaluate text => c.afterEvaluate text

/-- The console after an input. -/
def next (c : Console) : Option String → Console
  | none => c
  | some line => c.after line

@[simp] theorem next_some (c : Console) (line : String) : c.next (some line) = c.after line := by
  rw [next]

/-- The line evaluates to a value that is too long to be written. -/
def StoppedBy (c : Console) (line : String) : Prop :=
  ∃ text v, Command.ofLine line = .evaluate text ∧ isPlausible text = true ∧
    (c.session.evaluate text).result = .ok v ∧ ¬ v.WithinLimit

/-- The console reads on after the input. -/
def Passes (c : Console) (input : Option String) : Prop :=
  ∀ line, input = some line → Command.ofLine line ≠ .quit ∧ ¬ c.StoppedBy line

variable {approximate : Bool} {c : Console} {line : String}

/-- A request to store is always answered. -/
theorem store_spec (c : Console) (words : List String) :
    (∃ response, (c.store words).result = .ok response) ∧
      (c.store words).console = c.afterStore words := by
  match words with
  | [_, selector] =>
    by_cases hl : selector.length = 1
    · simp only [store, afterStore, hl, if_true, Session.session_tryStore]
      cases (c.session.store selector).result <;> exact ⟨⟨_, rfl⟩, rfl⟩
    · rw [store, afterStore, if_neg hl, if_neg hl]
      exact ⟨⟨_, rfl⟩, rfl⟩
  | [] | [_] | _ :: _ :: _ :: _ => exact ⟨⟨_, rfl⟩, rfl⟩

theorem console_evaluate (c : Console) (approximate : Bool) (text : String) :
    (c.evaluate approximate text).console = c.afterEvaluate text := by
  unfold evaluate afterEvaluate
  by_cases hp : isPlausible text = true
  · simp only [hp, if_true, Session.session_tryEvaluate]
    cases (c.session.evaluate text).result with
    | error f => rfl
    | ok v =>
      dsimp only
      cases display approximate v <;> rfl
  · simp only [hp, Bool.false_eq_true, if_false]

/-- What is shown does not matter to the console. -/
theorem console_answer (c : Console) (approximate : Bool) (line : String) :
    (c.answer approximate line).console = c.after line := by
  unfold answer after
  cases Command.ofLine line with
  | quit => rfl
  | help => rfl
  | store words => exact (store_spec c words).2
  | evaluate text => exact console_evaluate c approximate text

theorem result_evaluate_eq_error_iff (c : Console) (approximate : Bool) (text : String)
    (e : Numeral.Overlong) :
    (c.evaluate approximate text).result = .error e ↔
      isPlausible text = true ∧ ∃ v, (c.session.evaluate text).result = .ok v ∧
        ¬ v.WithinLimit := by
  unfold evaluate
  by_cases hp : isPlausible text = true
  · simp only [hp, if_true, true_and]
    cases (c.session.evaluate text).result with
    | error f => simp
    | ok v =>
      by_cases hv : v.WithinLimit
      · obtain ⟨shown, hd⟩ := (exists_display_iff approximate v).mpr hv
        simp [hd, hv]
      · simp [display_of_not_withinLimit approximate hv, hv]
  · simp [hp]

/-- A line is answered unless it is stopped by its value. -/
theorem result_answer_eq_error_iff (c : Console) (approximate : Bool) (line : String)
    (e : Numeral.Overlong) :
    (c.answer approximate line).result = .error e ↔ c.StoppedBy line := by
  unfold answer StoppedBy
  cases Command.ofLine line with
  | quit => simp
  | help => simp
  | store words =>
    obtain ⟨response, h⟩ := (store_spec c words).1
    simp [h]
  | evaluate text => simp [result_evaluate_eq_error_iff]

theorem exists_result_answer_iff (c : Console) (approximate : Bool) (line : String) :
    (∃ response, (c.answer approximate line).result = .ok response) ↔ ¬ c.StoppedBy line := by
  rw [← result_answer_eq_error_iff c approximate line .overlong]
  cases (c.answer approximate line).result with
  | ok response => simp
  | error e => simp

theorem running_after_of_ne_quit (h : Command.ofLine line ≠ .quit) :
    (c.after line).running = c.running := by
  unfold after
  split
  · contradiction
  · rfl
  · unfold afterStore
    split
    · split <;> rfl
    · rfl
  · unfold afterEvaluate
    split <;> rfl

theorem after_of_quit (h : Command.ofLine line = .quit) :
    c.after line = { c with running := false } := by
  rw [after, h]

/-- A blank line asks for nothing. -/
theorem after_of_blank (h : Text.strip line.toList = []) : c.after line = c := by
  rw [after, Command.ofLine_of_blank h]
  simp only [afterEvaluate, Session.session_tryEvaluate, Session.evaluate_empty, ite_self]

theorem not_stoppedBy_of_blank (h : Text.strip line.toList = []) : ¬ c.StoppedBy line := by
  rintro ⟨text, v, htext, -, hv, -⟩
  rw [Command.ofLine_of_blank h] at htext
  obtain rfl := Command.evaluate.inj htext
  rw [Session.evaluate_empty] at hv
  contradiction

theorem take_of_not_stoppedBy (approximate : Bool) (h : ¬ c.StoppedBy line) :
    (c.take approximate (some line)).result = .ok () ∧
      (c.take approximate (some line)).console = c.after line := by
  by_cases hblank : Text.strip line.toList = []
  · simp [take, hblank, after_of_blank]
  · obtain ⟨response, hr⟩ := (exists_result_answer_iff c approximate line).mpr h
    simp [take, hblank, hr, console_answer]

theorem take_of_stoppedBy (approximate : Bool) (h : c.StoppedBy line) :
    (c.take approximate (some line)).result = .error .overlong ∧
      (c.take approximate (some line)).console = c.after line := by
  have hblank : Text.strip line.toList ≠ [] := fun hb => not_stoppedBy_of_blank hb h
  have hr := (result_answer_eq_error_iff c approximate line .overlong).mpr h
  simp [take, hblank, hr, console_answer]

theorem take_of_passes {input : Option String} (approximate : Bool) (h : c.Passes input) :
    (c.take approximate input).result = .ok () ∧
      (c.take approximate input).console = c.next input ∧
      (c.next input).running = c.running := by
  cases input with
  | none => exact ⟨rfl, rfl, rfl⟩
  | some line =>
    obtain ⟨hquit, hstop⟩ := h line rfl
    obtain ⟨hr, hc⟩ := take_of_not_stoppedBy approximate hstop
    rw [next_some]
    exact ⟨hr, hc, running_after_of_ne_quit hquit⟩

/-- The run ended like this, in this console, and left so many inputs unread. -/
structure Run.Ends (r : Run) (result : Except Numeral.Overlong Unit) (console : Console)
    (unread : Nat) : Prop where
  result : r.result = result
  console : r.console = console
  unread : r.unread = unread

/-- How a console comes to its end over its inputs. -/
inductive Ending (c : Console) (inputs : List (Option String)) (r : Run) : Prop where
  /-- It had been told to quit before. -/
  | idle (running : c.running = false) (ends : r.Ends (.ok ()) c inputs.length)
  /-- It has read all there is. -/
  | exhausted (running : c.running = true)
      (clear : ∀ x ∈ visits next c inputs, x.1.Passes x.2)
      (ends : r.Ends (.ok ()) (inputs.foldl next c) 0)
  | quit (running : c.running = true)
      (before : List (Option String)) (line : String) (rest : List (Option String))
      (split : inputs = before ++ some line :: rest)
      (clear : ∀ x ∈ visits next c before, x.1.Passes x.2)
      (quits : Command.ofLine line = .quit)
      (ends : r.Ends (.ok ()) ((before.foldl next c).after line) rest.length)
  | stopped (running : c.running = true)
      (before : List (Option String)) (line : String) (rest : List (Option String))
      (split : inputs = before ++ some line :: rest)
      (clear : ∀ x ∈ visits next c before, x.1.Passes x.2)
      (stop : (before.foldl next c).StoppedBy line)
      (ends : r.Ends (.error .overlong) ((before.foldl next c).after line) rest.length)

theorem loop_of_not_running (approximate : Bool) (h : c.running = false)
    (inputs : List (Option String)) : (c.loop approximate inputs).Ends (.ok ()) c inputs.length := by
  cases inputs with
  | nil => simp only [loop, h, Bool.false_eq_true, if_false]; exact ⟨rfl, rfl, rfl⟩
  | cons input rest => simp only [loop, h, Bool.false_eq_true, if_false]; exact ⟨rfl, rfl, rfl⟩

theorem loop_cons_of_ok {input : Option String} {rest : List (Option String)}
    {result : Except Numeral.Overlong Unit} {last : Console} {unread : Nat}
    (hc : c.running = true) (ht : (c.take approximate input).result = .ok ())
    (h : ((c.take approximate input).console.loop approximate rest).Ends result last unread) :
    (c.loop approximate (input :: rest)).Ends result last unread := by
  simp only [loop, hc, if_true, ht]
  exact ⟨h.result, h.console, h.unread⟩

theorem loop_cons_of_error {input : Option String} {e : Numeral.Overlong}
    (rest : List (Option String)) (hc : c.running = true)
    (ht : (c.take approximate input).result = .error e) :
    (c.loop approximate (input :: rest)).Ends (.error e) (c.take approximate input).console
      rest.length := by
  simp only [loop, hc, if_true, ht]
  exact ⟨rfl, rfl, rfl⟩

/-- An input that passes is put before all that follows. -/
theorem Ending.cons {input : Option String} {rest : List (Option String)}
    (hc : c.running = true) (hpass : c.Passes input)
    (h : Ending (c.next input) rest ((c.next input).loop approximate rest)) :
    Ending c (input :: rest) (c.loop approximate (input :: rest)) := by
  obtain ⟨ht, htc, hrun⟩ := take_of_passes approximate hpass
  have hlift {result : Except Numeral.Overlong Unit} {last : Console} {unread : Nat}
      (hends : ((c.next input).loop approximate rest).Ends result last unread) :
      (c.loop approximate (input :: rest)).Ends result last unread :=
    loop_cons_of_ok hc ht (htc ▸ hends)
  have hclear {before : List (Option String)}
      (hrest : ∀ x ∈ visits next (c.next input) before, x.1.Passes x.2) :
      ∀ x ∈ visits next c (input :: before), x.1.Passes x.2 := by
    simpa only [visits, List.forall_mem_cons] using ⟨hpass, hrest⟩
  cases h with
  | idle hidle => rw [hrun, hc] at hidle; contradiction
  | exhausted _ clear ends => exact .exhausted hc (hclear clear) (hlift ends)
  | quit _ before line rest' split clear quits ends =>
    exact .quit hc (input :: before) line rest' (by rw [split, List.cons_append]) (hclear clear)
      quits (hlift ends)
  | stopped _ before line rest' split clear stop ends =>
    exact .stopped hc (input :: before) line rest' (by rw [split, List.cons_append])
      (hclear clear) stop (hlift ends)

theorem not_stoppedBy_of_quit (h : Command.ofLine line = .quit) : ¬ c.StoppedBy line := by
  rintro ⟨text, v, htext, -⟩
  rw [h] at htext
  cases htext

/-- What does not pass is the word to quit or a line that stops the console. -/
theorem exists_of_not_passes {input : Option String} (h : ¬ c.Passes input) :
    ∃ line, input = some line ∧ (Command.ofLine line = .quit ∨ c.StoppedBy line) := by
  simpa only [Passes, not_forall, Classical.not_and_iff_not_or_not, not_not, exists_prop] using h

theorem loop_of_quit (approximate : Bool) (rest : List (Option String)) (hc : c.running = true)
    (h : Command.ofLine line = .quit) :
    (c.loop approximate (some line :: rest)).Ends (.ok ()) (c.after line) rest.length := by
  obtain ⟨ht, htc⟩ := take_of_not_stoppedBy approximate (c := c) (not_stoppedBy_of_quit h)
  have hover : (c.after line).running = false := by rw [after_of_quit h]
  refine loop_cons_of_ok hc ht ?_
  rw [htc]
  exact loop_of_not_running approximate hover rest

theorem loop_of_stoppedBy (approximate : Bool) (rest : List (Option String))
    (hc : c.running = true) (h : c.StoppedBy line) :
    (c.loop approximate (some line :: rest)).Ends (.error .overlong) (c.after line)
      rest.length := by
  obtain ⟨ht, htc⟩ := take_of_stoppedBy approximate h
  have hloop := loop_cons_of_error rest hc ht
  rwa [htc] at hloop

theorem loop_ending (approximate : Bool) (c : Console) (inputs : List (Option String)) :
    Ending c inputs (c.loop approximate inputs) := by
  induction inputs generalizing c with
  | nil =>
    cases hc : c.running with
    | false => exact .idle hc (loop_of_not_running approximate hc [])
    | true =>
      refine .exhausted hc (by simp [visits]) ?_
      simp only [loop, hc, if_true]
      exact ⟨rfl, rfl, rfl⟩
  | cons input rest ih =>
    cases hc : c.running with
    | false => exact .idle hc (loop_of_not_running approximate hc (input :: rest))
    | true =>
      by_cases hpass : c.Passes input
      · exact .cons hc hpass (ih (c.next input))
      · obtain ⟨line, rfl, hquit | hstop⟩ := exists_of_not_passes hpass
        · exact .quit hc [] line rest rfl (by simp [visits]) hquit
            (loop_of_quit approximate rest hc hquit)
        · exact .stopped hc [] line rest rfl (by simp [visits]) hstop
            (loop_of_stoppedBy approximate rest hc hstop)

/-- The run of a console ends as its loop does; the banner comes before. -/
theorem run_ends {inputs : List (Option String)} {result : Except Numeral.Overlong Unit}
    {last : Console} {unread : Nat} (h : (c.loop approximate inputs).Ends result last unread) :
    (c.run approximate inputs).Ends result last unread :=
  ⟨h.result, h.console, h.unread⟩

theorem ending (approximate : Bool) (c : Console) (inputs : List (Option String)) :
    Ending c inputs (c.run approximate inputs) := by
  cases loop_ending approximate c inputs with
  | idle running ends => exact .idle running (run_ends ends)
  | exhausted running clear ends => exact .exhausted running clear (run_ends ends)
  | quit running before line rest split clear quits ends =>
    exact .quit running before line rest split clear quits (run_ends ends)
  | stopped running before line rest split clear stop ends =>
    exact .stopped running before line rest split clear stop (run_ends ends)

end Console

end RationalCalculator
