import RationalCalculator.Proofs.FrontEnd.ConsoleRun
import RationalCalculator.Proofs.FrontEnd.Printed

/-!
# What a console reads and prints

A console that is running reads its inputs in order, up to the first word to quit; it asks once for
each of them, and once more if they have run out. Each line that is not blank is answered on the
console that the lines before it have left, and nothing else has an effect. What is printed falls
into one part for each input, and the last line of output is always the farewell. All this holds as
long as the values of the lines that are read can be written.
-/

namespace RationalCalculator

theorem Command.ofLine_eq_quit_iff (line : String) :
    ofLine line = .quit ↔ Text.smalls (Text.stripped line) ∈ ["quit", "exit"] := by
  simp only [List.mem_cons, List.not_mem_nil, or_false]
  by_cases hq : Text.smalls (Text.stripped line) = "quit" ∨
      Text.smalls (Text.stripped line) = "exit"
  · rw [ofLine, if_pos hq]
    exact iff_of_true rfl hq
  · have hne : ofLine line ≠ .quit := by
      simp only [ofLine, if_neg hq]
      split
      · simp
      · split <;> simp
    simp only [hq, hne]

namespace Console

/-- The input is a word to quit, in either case and perhaps with blanks around it. -/
def quits (input : Option String) : Bool :=
  input.any fun line => Text.smalls (Text.stripped line) ∈ ["quit", "exit"]

/-- The inputs up to the first word to quit, which is one of them. -/
def heard (inputs : List (Option String)) : List (Option String) :=
  inputs.takeWhile (!quits ·) ++ (inputs.dropWhile (!quits ·)).take 1

/-- The inputs behind the first word to quit. -/
def unheard (inputs : List (Option String)) : List (Option String) :=
  (inputs.dropWhile (!quits ·)).drop 1

/-- The lines among the inputs that are not blank. -/
def requests (inputs : List (Option String)) : List String :=
  (inputs.filterMap id).filter fun line => !(Text.strip line.toList).isEmpty

/-- What is printed for an input. -/
inductive Prints (approximate : Bool) (c : Console) : Option String → List Line → Prop where
  | interrupted : Prints approximate c none [.out "^C"]
  | blank (line : String) (blank : Text.strip line.toList = []) :
      Prints approximate c (some line) []
  | accepted (line text : String) (request : Text.strip line.toList ≠ [])
      (answer : (c.answer approximate line).result = .ok (.accepted text)) :
      Prints approximate c (some line) [.out text]
  | refused (line text : String) (request : Text.strip line.toList ≠ [])
      (answer : (c.answer approximate line).result = .ok (.refused text)) :
      Prints approximate c (some line) [.err text]

/-- No value that is to be printed is beyond the digit limit. -/
def Clear (c : Console) (inputs : List (Option String)) : Prop :=
  ∀ x ∈ visits next c (heard inputs), ∀ line, x.2 = some line → ¬ x.1.StoppedBy line

/-- What a run over the inputs comes to, with these lines in front. -/
structure Follows (approximate : Bool) (c : Console) (inputs : List (Option String))
    (opening : List Line) (r : Run) : Prop where
  result : r.result = .ok ()
  unread : r.unread = (unheard inputs).length
  /-- The console asks once for each input, and once more if there is none left. -/
  reads : r.reads = (heard inputs).length + if inputs.any quits then 0 else 1
  console : r.console =
    (requests (heard inputs)).foldl (fun c line => (c.answer approximate line).console) c
  printed : ∃ parts, List.Forall₂ (fun x part => Prints approximate x.1 x.2 part)
    (visits next c (heard inputs)) parts ∧ r.lines.filter Line.isPrinted =
      opening ++ parts.flatten ++ if inputs.any quits then [] else [.out farewell]
  last : (r.lines.filterMap Line.outText?).getLast? = some farewell

variable {approximate : Bool} {c : Console} {input : Option String} {rest : List (Option String)}

theorem heard_append_unheard (inputs : List (Option String)) :
    heard inputs ++ unheard inputs = inputs := by
  rw [heard, unheard, List.append_assoc, List.take_append_drop, List.takeWhile_append_dropWhile]

theorem heard_cons_of_quits (h : quits input = true) : heard (input :: rest) = [input] := by
  simp [heard, h]

theorem unheard_cons_of_quits (h : quits input = true) : unheard (input :: rest) = rest := by
  simp [unheard, h]

theorem heard_cons_of_not_quits (h : quits input = false) :
    heard (input :: rest) = input :: heard rest := by
  simp [heard, h]

theorem unheard_cons_of_not_quits (h : quits input = false) :
    unheard (input :: rest) = unheard rest := by
  simp [unheard, h]

theorem quits_some_iff (line : String) :
    quits (some line) = true ↔ Command.ofLine line = .quit := by
  rw [Command.ofLine_eq_quit_iff, quits, Option.any_some, decide_eq_true_eq]

/-- Nothing of the log of an answer is printed. -/
theorem log_answer (c : Console) (approximate : Bool) (line : String) :
    (c.answer approximate line).log.filter Line.isPrinted = [] := by
  unfold answer
  split
  · rfl
  · rfl
  next words _ =>
    obtain ⟨events, hlog⟩ := exists_log_store c words
    rw [hlog, filter_isPrinted_events]
  next text _ =>
    unfold evaluate
    split
    · dsimp only
      split
      · exact filter_isPrinted_events _
      · split
        · exact filter_isPrinted_events _
        · rw [List.filter_append, filter_isPrinted_events, filter_isPrinted_notes]
          rfl
    · rfl

theorem prints_take (approximate : Bool)
    (h : ∀ line, input = some line → ¬ c.StoppedBy line) :
    Prints approximate c input ((c.take approximate input).lines.filter Line.isPrinted) := by
  cases input with
  | none => exact .interrupted
  | some line =>
    by_cases hblank : Text.strip line.toList = []
    · have hlines : (c.take approximate (some line)).lines = [] := by simp [take, hblank]
      rw [hlines]
      exact .blank line hblank
    · obtain ⟨response, hr⟩ := (exists_result_answer_iff c approximate line).mpr (h line rfl)
      have hlines : (c.take approximate (some line)).lines
          = (c.answer approximate line).log ++ [response.line] := by simp [take, hblank, hr]
      rw [hlines, List.filter_append, log_answer]
      cases response with
      | accepted text => exact .accepted line text hblank hr
      | refused text => exact .refused line text hblank hr

/-- Only a line that is not blank is answered. -/
theorem foldl_requests_singleton (approximate : Bool) (c : Console) (input : Option String) :
    (requests [input]).foldl (fun c line => (c.answer approximate line).console) c
      = c.next input := by
  cases input with
  | none => rfl
  | some line =>
    by_cases hblank : Text.strip line.toList = []
    · simp [requests, hblank, after_of_blank]
    · simp [requests, hblank, console_answer]

theorem requests_cons (input : Option String) (inputs : List (Option String)) :
    requests (input :: inputs) = requests [input] ++ requests inputs := by
  rw [← List.singleton_append, requests, List.filterMap_append, List.filter_append]
  rfl

theorem loop_cons (rest : List (Option String)) (hc : c.running = true)
    (ht : (c.take approximate input).result = .ok ()) :
    c.loop approximate (input :: rest) =
      { (c.take approximate input).console.loop approximate rest with
        lines := (c.take approximate input).lines ++
          ((c.take approximate input).console.loop approximate rest).lines
        reads := ((c.take approximate input).console.loop approximate rest).reads + 1 } := by
  simp only [loop, hc, if_true, ht]

/-- An input that is no word to quit is put before all that follows. -/
theorem Follows.cons (hc : c.running = true) (hquits : quits input = false)
    (hstop : ∀ line, input = some line → ¬ c.StoppedBy line)
    (h : Follows approximate (c.next input) rest [] ((c.next input).loop approximate rest)) :
    Follows approximate c (input :: rest) [] (c.loop approximate (input :: rest)) := by
  have hpass : c.Passes input := by
    rintro line rfl
    refine ⟨fun hq => ?_, hstop line rfl⟩
    rw [(quits_some_iff line).mpr hq] at hquits
    contradiction
  obtain ⟨ht, hnext, -⟩ := take_of_passes approximate hpass
  have hloop := loop_cons rest hc ht
  rw [hnext] at hloop
  have hany : (input :: rest).any quits = rest.any quits := by simp [hquits]
  constructor
  · rw [hloop, h.result]
  · rw [hloop, h.unread, unheard_cons_of_not_quits hquits]
  · rw [hloop, heard_cons_of_not_quits hquits, List.length_cons, hany]
    dsimp only
    rw [h.reads]
    exact Nat.add_right_comm _ _ _
  · rw [hloop, h.console, heard_cons_of_not_quits hquits, requests_cons, List.foldl_append,
      foldl_requests_singleton]
  · obtain ⟨parts, hparts, hprinted⟩ := h.printed
    rw [heard_cons_of_not_quits hquits, visits, hany]
    refine ⟨_ :: parts, .cons (prints_take approximate hstop) hparts, ?_⟩
    rw [hloop, List.filter_append, hprinted, List.flatten_cons, List.append_assoc]
    simp only [List.nil_append, List.append_assoc]
  · rw [hloop, List.filterMap_append, List.getLast?_append, h.last]
    rfl

theorem loop_of_idle (approximate : Bool) (hc : c.running = false)
    (inputs : List (Option String)) :
    c.loop approximate inputs = ⟨.ok (), c, [], 0, inputs.length⟩ := by
  cases inputs with
  | nil => simp only [loop, hc, Bool.false_eq_true, if_false, List.length_nil]
  | cons input rest => simp only [loop, hc, Bool.false_eq_true, if_false, List.length_cons]

theorem take_of_quit {line : String} (approximate : Bool) (h : Command.ofLine line = .quit) :
    c.take approximate (some line) = ⟨.ok (), { c with running := false }, [.out farewell]⟩ := by
  have hblank : Text.strip line.toList ≠ [] := by
    intro hb
    rw [Command.ofLine_of_blank hb] at h
    contradiction
  simp [take, answer, h, hblank, Response.line]

/-- The word to quit is answered with the farewell, and nothing is read behind it. -/
theorem follows_loop_of_quits (hc : c.running = true) (h : quits input = true) :
    Follows approximate c (input :: rest) [] (c.loop approximate (input :: rest)) := by
  obtain ⟨line, rfl⟩ : ∃ line, input = some line := by
    cases input with
    | none => contradiction
    | some line => exact ⟨line, rfl⟩
  have hquit := (quits_some_iff line).mp h
  have htake := take_of_quit (c := c) approximate hquit
  have hloop : c.loop approximate (some line :: rest)
      = ⟨.ok (), { c with running := false }, [.out farewell], 1, rest.length⟩ := by
    rw [loop_cons _ hc (by rw [htake]), htake, loop_of_idle approximate rfl]
    rfl
  have hany : (some line :: rest).any quits = true := by simp [h]
  have hstop : ∀ l, some line = some l → ¬ c.StoppedBy l := by
    rintro l hl
    rw [← Option.some.inj hl]
    exact not_stoppedBy_of_quit hquit
  rw [hloop]
  constructor
  · rfl
  · rw [unheard_cons_of_quits h]
  · rw [heard_cons_of_quits h, hany]
    rfl
  · rw [heard_cons_of_quits h, foldl_requests_singleton, next_some, after_of_quit hquit]
  · rw [heard_cons_of_quits h, hany]
    refine ⟨[[.out farewell]], .cons ?_ .nil, rfl⟩
    have hprints := prints_take approximate hstop
    rwa [htake] at hprints
  · rfl

theorem clear_cons_of_not_quits (h : quits input = false) :
    Clear c (input :: rest) ↔
      (∀ line, input = some line → ¬ c.StoppedBy line) ∧ Clear (c.next input) rest := by
  simp only [Clear, heard_cons_of_not_quits h, visits, List.forall_mem_cons]

theorem follows_loop (approximate : Bool) {inputs : List (Option String)}
    (hc : c.running = true) (h : Clear c inputs) :
    Follows approximate c inputs [] (c.loop approximate inputs) := by
  induction inputs generalizing c with
  | nil =>
    have hloop : c.loop approximate [] = ⟨.ok (), c, [.out farewell], 1, 0⟩ := by
      simp only [loop, hc, if_true]
    rw [hloop]
    exact ⟨rfl, rfl, rfl, rfl, ⟨[], .nil, rfl⟩, rfl⟩
  | cons input rest ih =>
    cases hq : quits input with
    | true => exact follows_loop_of_quits hc hq
    | false =>
      obtain ⟨hstop, hrest⟩ := (clear_cons_of_not_quits hq).mp h
      have hrunning : (c.next input).running = true := by
        cases input with
        | none => exact hc
        | some line =>
          have hne : Command.ofLine line ≠ .quit := by
            intro hquit
            rw [(quits_some_iff line).mpr hquit] at hq
            contradiction
          rw [next_some, running_after_of_ne_quit hne, hc]
      exact .cons hc hq hstop (ih hrunning hrest)

/-- The lines before a run are printed before all that it prints. -/
theorem follows_run (approximate : Bool) {inputs : List (Option String)}
    (hc : c.running = true) (h : Clear c inputs) :
    Follows approximate c inputs banner (c.run approximate inputs) := by
  obtain ⟨result, unread, reads, console, ⟨parts, hparts, hprinted⟩, last⟩ :=
    follows_loop approximate hc h
  refine ⟨result, unread, reads, console, ⟨parts, hparts, ?_⟩, ?_⟩
  · rw [run, List.filter_append, hprinted, List.append_assoc, List.append_assoc]
    rfl
  · rw [run, List.filterMap_append, List.getLast?_append, last]
    rfl

/-- A line that is answered has no value beyond the limit. -/
theorem clear_of_answered (approximate : Bool) {inputs : List (Option String)}
    (h : ((visits next c (heard inputs)).all fun x => x.2.all fun line =>
      (x.1.answer approximate line).result.toOption.isSome) = true) : Clear c inputs := by
  rintro ⟨c', input⟩ hx line rfl
  have hsome := List.all_eq_true.mp h _ hx
  rw [← exists_result_answer_iff c' approximate line]
  cases hr : (c'.answer approximate line).result with
  | ok response => exact ⟨response, rfl⟩
  | error e => simp [hr, Except.toOption] at hsome

/-- A running console reads its inputs in order, up to the first word to quit or else all of them,
and asks once for each and once more if they run out. It ends in the console that answering the
lines that are not blank leads to, one after the other; blank lines and interruptions change
nothing. Each response goes to the output if the line is accepted and to the error output if it is
refused, and the last line of output is the farewell. The values to be printed are within the digit
limit here. -/
theorem run_reads_until_quit (approximate : Bool) (c : Console) (inputs : List (Option String))
    (hc : c.running = true) (h : Clear c inputs) :
    heard inputs ++ unheard inputs = inputs ∧
      Follows approximate c inputs banner (c.run approximate inputs) :=
  ⟨heard_append_unheard inputs, follows_run approximate hc h⟩

/-- A script with lines of every sort, of which the last is not read. -/
theorem run_reads_until_quit_at_script :
    let c : Console := ⟨.start false, true⟩
    let inputs := [some "1/2 * 3", some " ", none, some "store a", some "1 / 0", some " QUIT ",
      some "a"]
    c.running = true ∧ Clear c inputs ∧ heard inputs ++ unheard inputs = inputs ∧
      Follows false c inputs banner (c.run false inputs) ∧ unheard inputs = [some "a"] := by
  have hclear : Clear ⟨.start false, true⟩
      [some "1/2 * 3", some " ", none, some "store a", some "1 / 0", some " QUIT ", some "a"] :=
    clear_of_answered false (by decide +kernel)
  obtain ⟨hsplit, hfollows⟩ := run_reads_until_quit false _ _ rfl hclear
  exact ⟨rfl, hclear, hsplit, hfollows, by decide +kernel⟩

end Console

end RationalCalculator
