import RationalCalculator.Proofs.Expression.Plausibility
import RationalCalculator.Proofs.FrontEnd.ConsoleRun
import RationalCalculator.Proofs.FrontEnd.Printed

/-!
# Where the console and a batch agree

A console strips a line and looks at its words before it evaluates it; a batch evaluates its
argument as it stands. Neither makes a difference to the value, which depends on the words alone.
So on a line that is no command, and no store in a batch, the two leave the same session, fail
together and show the same result, as long as the line is plausible. In a strict session this
proviso is empty: a line that is not plausible has no value there.
-/

namespace RationalCalculator

/-- The line is none of the commands of a console. -/
structure NoCommand (line : String) : Prop where
  word : Text.smalls (Text.stripped line) ∉ ["quit", "exit", "help", "store"]
  store : ¬ "store ".toList <+: (Text.smalls (Text.stripped line)).toList

theorem Command.ofLine_of_noCommand {line : String} (h : NoCommand line) :
    ofLine line = .evaluate (Text.stripped line) := by
  obtain ⟨hword, hstore⟩ := h
  simp only [List.mem_cons, List.not_mem_nil, or_false, not_or] at hword
  obtain ⟨hquit, hexit, hhelp, hstored⟩ := hword
  rw [← List.isPrefixOf_iff_prefix] at hstore
  simp only [ofLine, hquit, hexit, hhelp, hstored, hstore, or_self, Bool.false_eq_true, if_false]

/-- How a console answers a line and how a batch serves it, side by side. -/
inductive EndsAlike (line : String) (answer : Console.Answer) (report : Batch.Report) : Prop where
  | shown (text : String) (answered : answer.result = .ok (.accepted s!"Result: {text}"))
      (served : report.result = .ok true)
      (printed : report.lines.filterMap Line.outText? = [s!"{line} = {text}"])
  | refused (text : String) (fault : Fault) (answered : answer.result = .ok (.refused text))
      (served : report.result = .ok false)
      (reported : report.lines.getLast? = some (Batch.faultLine fault))
      (silent : report.lines.filterMap Line.outText? = [])
  | overlong (answered : answer.result = .error .overlong)
      (served : report.result = .error .overlong)

theorem Batch.run_singleton (approximate : Bool) (s : Session) (argument : String) :
    run approximate s [argument] = serve approximate s argument := by
  rcases h : serve approximate s argument with ⟨_ | succeeded, session, lines⟩
  · simp [run, h, Report.andThen]
  · simp [run, h, Report.andThen, Report.nothing, Except.map]

variable {approximate : Bool} {c : Console} {line : String}

theorem endsAlike_of_value {v : Fraction} (hstore : Batch.isStore line = false)
    (hnoClash : isPlausible (Text.stripped line) = true) (hv : c.session.value line = .ok v) :
    (c.evaluate approximate (Text.stripped line)).console.session
      = (Batch.serve approximate c.session line).session ∧
    EndsAlike line (c.evaluate approximate (Text.stripped line))
      (Batch.serve approximate c.session line) := by
  have hbatch := Session.evaluate_of_value hv
  have hconsole := Session.evaluate_of_value ((c.session.value_stripped line).trans hv)
  cases hd : display approximate v with
  | error e =>
    simp only [Console.evaluate, Batch.serve, hstore, hnoClash, hbatch, hconsole, hd, if_true,
      Bool.false_eq_true, if_false]
    exact ⟨trivial, .overlong rfl rfl⟩
  | ok text =>
    simp only [Console.evaluate, Batch.serve, hstore, hnoClash, hbatch, hconsole, hd, if_true,
      Bool.false_eq_true, if_false]
    refine ⟨trivial, .shown text rfl rfl ?_⟩
    rw [List.filterMap_append, List.filterMap_append, filterMap_outText?_events,
      filterMap_outText?_notes]
    rfl

/-- Without a value both refuse, though a console may not have come to evaluate the line. -/
theorem endsAlike_of_fault {f : Fault} (hstore : Batch.isStore line = false)
    (hv : c.session.value line = .error f) :
    (c.evaluate approximate (Text.stripped line)).console.session
      = (Batch.serve approximate c.session line).session ∧
    EndsAlike line (c.evaluate approximate (Text.stripped line))
      (Batch.serve approximate c.session line) := by
  have hbatch := Session.evaluate_of_fault hv
  have hconsole := Session.evaluate_of_fault ((c.session.value_stripped line).trans hv)
  simp only [Console.evaluate, Batch.serve, hstore, hbatch, hconsole, Bool.false_eq_true, if_false]
  split
  · refine ⟨rfl, .refused _ _ rfl rfl List.getLast?_concat ?_⟩
    rw [List.filterMap_append, filterMap_outText?_events]
    rfl
  · refine ⟨rfl, .refused _ _ rfl rfl List.getLast?_concat ?_⟩
    rw [List.filterMap_append, filterMap_outText?_events]
    rfl

/-- On a line that is neither a command nor a store, a console and a batch leave the same session
and end alike, if the session is strict or the line is plausible. A strict session has no value
for a line that is not plausible. -/
theorem console_and_batch_agree (approximate : Bool) (c : Console) (line : String)
    (hcommand : NoCommand line) (hstore : ¬ "STORE".toList <+: line.toList) :
    (c.session.strict = true ∨ isPlausible (Text.stripped line) = true →
      (c.answer approximate line).console.session
        = (Batch.run approximate c.session [line]).session ∧
      EndsAlike line (c.answer approximate line) (Batch.run approximate c.session [line])) ∧
    (c.session.strict = true → ∀ v, (c.session.evaluate line).result = .ok v →
      isPlausible (Text.stripped line) = true) := by
  have hno : Batch.isStore line = false := by
    rw [Batch.isStore, Bool.eq_false_iff, ne_eq, List.isPrefixOf_iff_prefix]
    exact hstore
  have hanswer : c.answer approximate line = c.evaluate approximate (Text.stripped line) := by
    rw [Console.answer, Command.ofLine_of_noCommand hcommand]
  have hstrict {v : Fraction} (hs : c.session.strict = true)
      (hv : c.session.value line = .ok v) : isPlausible (Text.stripped line) = true :=
    isPlausible_of_value hs ((c.session.value_stripped line).trans hv)
  rw [hanswer, Batch.run_singleton]
  cases hv : c.session.value line with
  | error f =>
    refine ⟨fun _ => endsAlike_of_fault hno hv, fun _ v hr => ?_⟩
    simp [Session.evaluate_of_fault hv] at hr
  | ok v =>
    refine ⟨fun hor => endsAlike_of_value hno ?_ hv, fun hs _ _ => hstrict hs hv⟩
    exact hor.elim (fun hs => hstrict hs hv) id

/-- A strict session is asked for a quotient, with blanks around it. -/
theorem console_and_batch_agree_at_quotient :
    ∃ c : Console, c.session.strict = true ∧ NoCommand " 1 / 8 " ∧
      (¬ "STORE".toList <+: " 1 / 8 ".toList) ∧
      EndsAlike " 1 / 8 " (c.answer true " 1 / 8 ") (Batch.run true c.session [" 1 / 8 "]) ∧
      (∃ v, (c.session.evaluate " 1 / 8 ").result = .ok v) ∧
      isPlausible (Text.stripped " 1 / 8 ") = true := by
  have hcommand : NoCommand " 1 / 8 " := ⟨by decide +kernel, by decide +kernel⟩
  have hstore : ¬ "STORE".toList <+: " 1 / 8 ".toList := by decide +kernel
  have hstrict : (Console.mk (.start true) true).session.strict = true := rfl
  have hvalue : ((Console.mk (.start true) true).session.evaluate " 1 / 8 ").result
      = .ok (.reduce 1 8 (by decide)) := by decide +kernel
  have hagree :=
    console_and_batch_agree true (Console.mk (.start true) true) " 1 / 8 " hcommand hstore
  exact ⟨_, hstrict, hcommand, hstore, (hagree.1 (.inl hstrict)).2, ⟨_, hvalue⟩,
    hagree.2 hstrict _ hvalue⟩

end RationalCalculator
