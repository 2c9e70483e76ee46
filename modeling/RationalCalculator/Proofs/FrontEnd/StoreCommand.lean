import RationalCalculator.Proofs.Expression.PlainNumber
import RationalCalculator.Proofs.FrontEnd.Changes

/-!
# A request to store and its words

What a console stores, and whether it does, is up to the words of the line. Whether the line is a
request to store at all is not: behind `store` it takes a space, and no other blank will do. With a
tab there, the line is read as an expression, whose first word is no operand, and is refused.

Otherwise blanks do not matter to a console. Two lines with the same words are accepted or refused
together and leave the same console, unless one of them has the space behind `store`, the other has
not, and there is something to store.
-/

namespace RationalCalculator

namespace Text

theorem toList_smalls (text : String) : (smalls text).toList = text.toList.map small :=
  String.toList_ofList

theorem small_of_not_isUpper {c : Char} (h : c.isUpper = false) (hc : c ≠ '\u212A') :
    small c = c := by
  rw [small, if_neg hc]
  exact Char.toLower_eq_of_not_isUpper (by simp [h])

theorem isUpper_eq_false_of_isAlpha {c : Char} (h : c.isAlpha = false) : c.isUpper = false := by
  rw [Char.isAlpha, Bool.or_eq_false_iff] at h
  exact h.1

theorem small_of_isBlank {c : Char} (h : isBlank c = true) : small c = c := by
  have halpha : c.isAlpha = false := by
    rw [Bool.eq_false_iff]
    intro ha
    rw [not_isBlank_of_isAlpha ha] at h
    contradiction
  refine small_of_not_isUpper (isUpper_eq_false_of_isAlpha halpha) ?_
  rintro rfl
  exact absurd h (by decide +kernel)

theorem not_isBlank_of_small {c : Char} (h : isBlank (small c) = false) : isBlank c = false := by
  rw [Bool.eq_false_iff]
  intro hc
  rw [small_of_isBlank hc, hc] at h
  contradiction

/-- A character that is no letter is the small form of nothing but itself. -/
theorem eq_of_small_eq {c d : Char} (h : small c = d) (hd : d.isAlpha = false) : c = d := by
  unfold small at h
  split at h
  · rw [← h] at hd
    contradiction
  · have hc : c.isAlpha = false := by rw [← Char.isAlpha_toLower_eq_isAlpha, h, hd]
    rwa [Char.toLower_eq_of_not_isUpper (by simp [isUpper_eq_false_of_isAlpha hc])] at h

/-- A text without blanks has none in capital letters either. -/
theorem not_isBlank_of_map_small {cs ds : List Char} (h : cs.map small = ds)
    (hd : ∀ d ∈ ds, isBlank d = false) : ∀ c ∈ cs, isBlank c = false := by
  intro c hc
  exact not_isBlank_of_small (hd _ (h ▸ List.mem_map_of_mem hc))

/-- A line that is a name in capital or small letters has a single word. -/
theorem split_of_smalls_eq {line name : String} (h : smalls (stripped line) = name)
    (hname : IsWord name) : split line = [stripped line] := by
  have hmap : (strip line.toList).map small = name.toList := by
    rw [← h, toList_smalls, toList_stripped]
  have hword : IsWord (stripped line) := by
    refine ⟨?_, ?_⟩
    · rintro he
      rw [he] at h
      exact hname.1 h.symm
    · rw [toList_stripped]
      exact not_isBlank_of_map_small hmap hname.2
  rw [← split_stripped, split_of_isWord hword]

end Text

/-- Behind the word, which is the first of the line, comes a space. -/
def SpaceBehind (word line : String) : Prop :=
  (word ++ " ").toList <+: (Text.stripped line).toList

instance (word line : String) : Decidable (SpaceBehind word line) :=
  inferInstanceAs (Decidable ((word ++ " ").toList <+: (Text.stripped line).toList))

section Words

variable {line line' w u : String} {rest : List String}

theorem isAlpha_of_mem_command {name : String} (h : name ∈ ["quit", "exit", "help", "store"])
    {c : Char} (hc : c ∈ name.toList) : c.isAlpha = true := by
  have hall : ∀ name ∈ ["quit", "exit", "help", "store"],
      ∀ c ∈ name.toList, c.isAlpha = true := by simp
  exact hall name h c hc

theorem isWord_of_command {name : String} (h : name ∈ ["quit", "exit", "help", "store"]) :
    Text.IsWord name := by
  have hne : ∀ name ∈ ["quit", "exit", "help", "store"], name ≠ "" := by decide
  exact ⟨hne name h, fun c hc => Text.not_isBlank_of_isAlpha (isAlpha_of_mem_command h hc)⟩

theorem isWord_store : Text.IsWord "store" := isWord_of_command (by decide)

/-- A line of several words is a request to store if the first of them is `store` with a space
behind it. -/
theorem asksToStore_iff (hsplit : Text.split line = w :: u :: rest) :
    AsksToStore line ↔ Text.smalls w = "store" ∧ SpaceBehind w line := by
  constructor
  · rintro (hword | hfront)
    · have hone := Text.split_of_smalls_eq hword isWord_store
      rw [hsplit] at hone
      simp at hone
    · -- What has `store` and a space for its small form is one word and a space: the first word.
      obtain ⟨tail, htail⟩ := hfront
      have hmap : (Text.strip line.toList).map Text.small = "store".toList ++ ' ' :: tail := by
        rw [← Text.toList_stripped, ← Text.toList_smalls, ← htail]
        rfl
      obtain ⟨xs, ys, hstrip, hxs, hys⟩ := List.map_eq_append_iff.mp hmap
      obtain ⟨b, ys, rfl, hb, -⟩ := List.map_eq_cons_iff.mp hys
      obtain rfl := Text.eq_of_small_eq hb (by decide)
      have hne : xs ≠ [] := by
        rintro rfl
        simp at hxs
      have hwords := Text.words_of_forall_not_isBlank hne
        (Text.not_isBlank_of_map_small hxs isWord_store.2)
      rw [Text.split, ← Text.words_strip, hstrip, Text.words_append_blank xs ys (by decide), hwords,
        List.singleton_append, List.map_cons] at hsplit
      obtain rfl := (List.cons.inj hsplit).1
      refine ⟨?_, ys, ?_⟩
      · rw [← String.toList_inj, Text.toList_smalls, String.toList_ofList, hxs]
      · rw [Text.toList_stripped, hstrip]
        simp
  · rintro ⟨hword, hspace⟩
    have hmap := hspace.map Text.small
    have hfront : (w ++ " ").toList.map Text.small = "store ".toList := by
      rw [String.toList_append, List.map_append, ← Text.toList_smalls, hword]
      rfl
    rw [hfront, ← Text.toList_smalls] at hmap
    exact .inr hmap

theorem noCommand_of_not_asksToStore (hsplit : Text.split line = w :: u :: rest)
    (h : ¬ AsksToStore line) : NoCommand line where
  word hmem := by
    have hone := Text.split_of_smalls_eq rfl (isWord_of_command hmem)
    rw [hsplit] at hone
    simp at hone
  store hfront := h (.inr hfront)

/-- The word `store` has five letters, capital or small. -/
theorem letters_of_smalls_eq_store (hw : Text.smalls w = "store") :
    w.toList.length = 5 ∧ ∀ c ∈ w.toList, c.isAlpha = true := by
  have hmap : w.toList.map Text.small = "store".toList := by rw [← Text.toList_smalls, hw]
  constructor
  · rw [← List.length_map Text.small, hmap]
    rfl
  · intro c hc
    have hmem : Text.small c ∈ "store".toList := hmap ▸ List.mem_map_of_mem hc
    by_contra hno
    rw [Bool.not_eq_true] at hno
    rcases Text.small_of_not_isAlpha hno with hk | hs
    · rw [hk] at hmem
      simp at hmem
    · rw [hs] at hmem
      rw [isAlpha_of_mem_command (by decide) hmem] at hno
      contradiction

/-- The word `store` is no operand. -/
theorem exists_fault_of_smalls_eq_store (hw : Text.smalls w = "store") (registers : Registers) :
    ∃ f, (Token.ofWord w).value registers = .error f := by
  obtain ⟨hlen, halpha⟩ := letters_of_smalls_eq_store hw
  cases hv : (Token.ofWord w).value registers with
  | error f => exact ⟨f, rfl⟩
  | ok v =>
    exfalso
    rcases Token.register_or_literal?_of_value hv with ⟨c, hc, -⟩ | hl
    · obtain ⟨rfl, -⟩ := (Token.ofWord_eq_register_iff w c).mp hc
      simp at hlen
    · obtain ⟨c, hc⟩ := List.exists_mem_of_length_pos (by omega : 0 < w.toList.length)
      have hno := Token.not_isAlpha_of_literal? hl hc
      rw [halpha c hc] at hno
      contradiction

/-- As an expression, a line with `store` in front of other words is invalid. -/
theorem value_of_store (hsplit : Text.split line = w :: u :: rest)
    (hw : Text.smalls w = "store") (s : Session) :
    ∃ f, s.value line = .error f ∧ f.isReadingFault = true := by
  obtain ⟨f, hf⟩ := exists_fault_of_smalls_eq_store hw s.registers
  refine ⟨f, ?_, Token.isReadingFault_of_value hf⟩
  rw [Session.value_of_not_recalled (Session.recalled?_eq_none_of_split hsplit)]
  exact evaluate_of_scan_cons_of_error (by rw [Token.scan, hsplit, List.map_cons]) hf s.strict

/-- The words of a request to store are plausible. -/
theorem isPlausible_of_store (hsplit : Text.split line = [w, u]) (hw : Text.smalls w = "store") :
    isPlausible line = true := by
  obtain ⟨hlen, halpha⟩ := letters_of_smalls_eq_store hw
  obtain ⟨c, hc⟩ := List.exists_mem_of_length_pos (by omega : 0 < w.toList.length)
  have hminus : '-' ∉ w.toList := fun hm => absurd (halpha _ hm) (by decide)
  have hnumber := isPlainNumber_of_isAlpha hc (halpha c hc) hminus
  have hoperator := isOperatorSymbol_of_length (by omega : w.toList.length ≠ 1)
  rw [isPlausible, hsplit, Bool.not_eq_true', hasClash_eq_false_iff, List.isChain_pair, clash,
    hnumber, hoperator]
  rfl

end Words

namespace Console

/-- Two lines are accepted, refused or stopped together, and leave the same console. -/
structure Answer.Agrees (a b : Answer) : Prop where
  accepted : a.result.map Response.isAccepted = b.result.map Response.isAccepted
  console : a.console = b.console

theorem Answer.agrees_comm {a b : Answer} : a.Agrees b ↔ b.Agrees a :=
  ⟨fun h => ⟨h.accepted.symm, h.console.symm⟩, fun h => ⟨h.accepted.symm, h.console.symm⟩⟩

/-- Of two lines with the words of a request to store, only one has the space behind `store`, and
there is something to store. -/
structure SpaceDecides (c : Console) (line line' w : String) (name : Char) : Prop where
  words : Text.split line = [w, String.singleton name]
  command : Text.smalls w = "store"
  last : c.session.lastResult ≠ none
  space : ¬ (SpaceBehind w line ↔ SpaceBehind w line')

variable {approximate : Bool} {c : Console} {line line' w u : String} {rest words : List String}

theorem evaluate_agrees (h : Text.split line = Text.split line') :
    (c.evaluate approximate line).Agrees (c.evaluate approximate line') := by
  have hp : isPlausible line = isPlausible line' := by rw [isPlausible, h, isPlausible]
  have hcongr : c.session.value line = c.session.value line' := Session.value_congr h
  unfold evaluate
  rw [← hp]
  split
  · cases hv : c.session.value line with
    | error f =>
      simp only [Session.evaluate_of_fault hv, Session.evaluate_of_fault (hcongr.symm.trans hv)]
      exact ⟨rfl, rfl⟩
    | ok v =>
      simp only [Session.evaluate_of_value hv, Session.evaluate_of_value (hcongr.symm.trans hv)]
      cases display approximate v with
      | error e => exact ⟨rfl, rfl⟩
      | ok shown => exact ⟨rfl, rfl⟩
  · exact ⟨rfl, rfl⟩

theorem answer_of_space (hsplit : Text.split line = w :: u :: rest) (hw : Text.smalls w = "store")
    (hspace : SpaceBehind w line) : c.answer approximate line = c.store (w :: u :: rest) := by
  rw [answer, Command.ofLine_of_asksToStore ((asksToStore_iff hsplit).mpr ⟨hw, hspace⟩), hsplit]

theorem answer_of_not_asksToStore (hsplit : Text.split line = w :: u :: rest)
    (h : ¬ AsksToStore line) :
    c.answer approximate line = c.evaluate approximate (Text.stripped line) := by
  rw [answer, Command.ofLine_of_noCommand (noCommand_of_not_asksToStore hsplit h)]

/-- Without the space the line is refused as an expression. -/
theorem answer_of_no_space (hsplit : Text.split line = w :: u :: rest)
    (hw : Text.smalls w = "store") (hno : ¬ SpaceBehind w line) :
    (c.answer approximate line).result = .ok (.refused
      (if isPlausible line then s!"Error: Invalid expression: {Text.stripped line}"
        else "Error: Invalid expression format")) ∧
      (c.answer approximate line).console = c := by
  have hnot : ¬ AsksToStore line := fun h => hno ((asksToStore_iff hsplit).mp h).2
  obtain ⟨f, hf, hreading⟩ := value_of_store hsplit hw c.session
  have hstripped := (c.session.value_stripped line).trans hf
  have hvalue := Session.evaluate_of_readingFault hstripped hreading
  rw [answer_of_not_asksToStore hsplit hnot, evaluate, isPlausible_stripped]
  simp only [hvalue]
  split
  · exact ⟨rfl, rfl⟩
  · exact ⟨rfl, rfl⟩

theorem result_store_of_lastResult (command : String) (name : Char) {v : Fraction}
    (hv : c.session.lastResult = some v) :
    (c.store [command, String.singleton name]).result
      = .ok (.accepted s!"Value {String.singleton name} stored.") := by
  have hlast : (String.singleton name).toList.getLast? = some name := by
    rw [String.toList_singleton]
    rfl
  simp [store, Session.store_of_getLast? hv hlast]

/-- A store is refused like another line unless there is a name and something to store under it. -/
theorem store_agrees_iff {a : Answer} {text : String} (hresult : a.result = .ok (.refused text))
    (hconsole : a.console = c) :
    (c.store (w :: rest)).Agrees a ↔
      ¬ ((∃ name, rest = [String.singleton name]) ∧ c.session.lastResult ≠ none) := by
  constructor
  · rintro ⟨haccepted, -⟩ ⟨⟨name, rfl⟩, hlast⟩
    obtain ⟨v, hv⟩ := Option.ne_none_iff_exists'.mp hlast
    rw [result_store_of_lastResult w name hv, hresult] at haccepted
    simp [Except.map, Response.isAccepted] at haccepted
  · intro hno
    obtain ⟨response, hresponse⟩ := (store_spec c (w :: rest)).1
    cases response with
    | accepted shown =>
      obtain ⟨command, name, v, hwords, hv⟩ := exists_of_store_accepted hresponse
      exact absurd ⟨⟨name, (List.cons.inj hwords).2⟩, by simp [hv]⟩ hno
    | refused shown =>
      refine ⟨by rw [hresponse, hresult]; rfl, ?_⟩
      rw [console_store_of_refused hresponse, hconsole]

theorem exists_spaceDecides_iff (hsplit : Text.split line = w :: rest) :
    (∃ w name, c.SpaceDecides line line' w name) ↔
      Text.smalls w = "store" ∧ ¬ (SpaceBehind w line ↔ SpaceBehind w line') ∧
        (∃ name, rest = [String.singleton name]) ∧ c.session.lastResult ≠ none := by
  constructor
  · rintro ⟨_, name, hwords, hcommand, hlast, hspace⟩
    rw [hsplit] at hwords
    obtain ⟨rfl, rfl⟩ := List.cons.inj hwords
    exact ⟨hcommand, hspace, ⟨name, rfl⟩, hlast⟩
  · rintro ⟨hcommand, hspace, ⟨name, rfl⟩, hlast⟩
    exact ⟨w, name, hsplit, hcommand, hlast, hspace⟩

/-- If only the first of two lines has the space, they are alike as long as there is nothing to
store. -/
theorem answer_agrees_iff_of_space (hsplit : Text.split line = w :: u :: rest)
    (hsplit' : Text.split line' = w :: u :: rest) (hw : Text.smalls w = "store")
    (hspace : SpaceBehind w line) (hno : ¬ SpaceBehind w line') :
    (c.answer approximate line).Agrees (c.answer approximate line') ↔
      ¬ ((∃ name, u :: rest = [String.singleton name]) ∧ c.session.lastResult ≠ none) := by
  rw [answer_of_space hsplit hw hspace]
  obtain ⟨hresult, hconsole⟩ := answer_of_no_space hsplit' hw hno
  exact store_agrees_iff hresult hconsole

theorem answer_agrees_of_no_space (hsplit : Text.split line = w :: u :: rest)
    (hsplit' : Text.split line' = w :: u :: rest) (h : ¬ AsksToStore line)
    (h' : ¬ AsksToStore line') :
    (c.answer approximate line).Agrees (c.answer approximate line') := by
  rw [answer_of_not_asksToStore hsplit h, answer_of_not_asksToStore hsplit' h']
  refine evaluate_agrees ?_
  rw [Text.split_stripped, Text.split_stripped, hsplit, hsplit']

theorem answer_congr_of_length (h : Text.split line = Text.split line')
    (hlen : (Text.split line).length ≤ 1) :
    c.answer approximate line = c.answer approximate line' := by
  rw [answer, answer, Command.ofLine, Text.stripped_congr h hlen, Command.ofLine]

theorem answer_agrees_iff_of_words (hsplit : Text.split line = w :: u :: rest)
    (hsplit' : Text.split line' = w :: u :: rest) :
    (c.answer approximate line).Agrees (c.answer approximate line') ↔
      ¬ ∃ w name, c.SpaceDecides line line' w name := by
  have hasks := asksToStore_iff hsplit
  have hasks' := asksToStore_iff hsplit'
  rw [exists_spaceDecides_iff hsplit]
  by_cases hl : AsksToStore line
  · obtain ⟨hw, hspace⟩ := hasks.mp hl
    by_cases hl' : AsksToStore line'
    · obtain ⟨-, hspace'⟩ := hasks'.mp hl'
      rw [answer_of_space hsplit hw hspace, answer_of_space hsplit' hw hspace']
      exact iff_of_true ⟨rfl, rfl⟩ fun hd => hd.2.1 (iff_of_true hspace hspace')
    · have hno' : ¬ SpaceBehind w line' := fun hspace' => hl' (hasks'.mpr ⟨hw, hspace'⟩)
      rw [answer_agrees_iff_of_space hsplit hsplit' hw hspace hno']
      simp [hw, hspace, hno']
  · by_cases hl' : AsksToStore line'
    · obtain ⟨hw, hspace'⟩ := hasks'.mp hl'
      have hno : ¬ SpaceBehind w line := fun hspace => hl (hasks.mpr ⟨hw, hspace⟩)
      rw [Answer.agrees_comm, answer_agrees_iff_of_space hsplit' hsplit hw hspace' hno]
      simp [hw, hspace', hno]
    · refine iff_of_true (answer_agrees_of_no_space hsplit hsplit' hl hl') ?_
      rintro ⟨hw, hspace, -⟩
      have hno : ¬ SpaceBehind w line := fun hs => hl (hasks.mpr ⟨hw, hs⟩)
      have hno' : ¬ SpaceBehind w line' := fun hs => hl' (hasks'.mpr ⟨hw, hs⟩)
      exact hspace (iff_of_false hno hno')

/-- Two lines with the same words are answered alike unless the space decides. -/
theorem answer_agrees_iff (h : Text.split line = Text.split line') :
    (c.answer approximate line).Agrees (c.answer approximate line') ↔
      ¬ ∃ w name, c.SpaceDecides line line' w name := by
  -- Lines of one word or none are the same once they are stripped.
  match hsplit : Text.split line with
  | [] =>
    rw [answer_congr_of_length h (by simp [hsplit])]
    refine iff_of_true ⟨rfl, rfl⟩ ?_
    rintro ⟨w, name, hd⟩
    have hwords := hd.words
    rw [hsplit] at hwords
    contradiction
  | [w] =>
    rw [answer_congr_of_length h (by simp [hsplit]), exists_spaceDecides_iff hsplit]
    exact iff_of_true ⟨rfl, rfl⟩ (by simp)
  | w :: u :: rest => exact answer_agrees_iff_of_words hsplit (h.symm.trans hsplit)

/-- Of the lines with the words of a request to store, those with a space behind `store` set the
register, and all others are refused as expressions. Apart from this the words of a line decide: two
lines with the same words are answered alike if and only if it is not up to the space. -/
theorem store_by_words (approximate : Bool) (c : Console) :
    (∀ (line w : String) (name : Char) (v : Fraction),
      Text.split line = [w, String.singleton name] → Text.smalls w = "store" →
      c.session.lastResult = some v →
      (SpaceBehind w line →
        (c.answer approximate line).result
          = .ok (.accepted s!"Value {String.singleton name} stored.") ∧
        (c.answer approximate line).console
          = { c with session := { c.session with registers := c.session.registers.set name v } }) ∧
      (¬ SpaceBehind w line →
        (c.answer approximate line).result
          = .ok (.refused s!"Error: Invalid expression: {Text.stripped line}") ∧
        (c.answer approximate line).console = c)) ∧
    (∀ line line' : String, Text.split line = Text.split line' →
      ((c.answer approximate line).Agrees (c.answer approximate line') ↔
        ¬ ∃ w name, c.SpaceDecides line line' w name)) := by
  refine ⟨?_, fun line line' h => answer_agrees_iff h⟩
  intro line w name v hsplit hw hv
  constructor
  · intro hspace
    rw [answer_of_space hsplit hw hspace]
    exact ⟨result_store_of_lastResult w name hv, (store_of_lastResult w name hv).2⟩
  · intro hno
    obtain ⟨hresult, hconsole⟩ := answer_of_no_space hsplit hw hno
    rw [if_pos (isPlausible_of_store hsplit hw)] at hresult
    exact ⟨hresult, hconsole⟩

/-- Five is stored under a letter that is not an ASCII letter, and refused with a no-break space
behind the command. A tab between the words of an expression makes no difference. -/
theorem store_by_words_at_e_acute :
    ∃ c : Console, c.session.lastResult = some (.ofInt 5) ∧
      (c.answer false " Store  é").result = .ok (.accepted "Value é stored.") ∧
      (c.answer false "STORE\u00a0é").result
        = .ok (.refused "Error: Invalid expression: STORE\u00a0é") ∧
      (c.answer false "1 + 2").Agrees (c.answer false "1\t+ 2") := by
  let c : Console := (Console.mk (.start false) true).after "5"
  have hlast : c.session.lastResult = some (.ofInt 5) := by decide +kernel
  have hspaced : Text.split " Store  é" = ["Store", String.singleton 'é'] := by decide +kernel
  have hunspaced : Text.split "STORE\u00a0é" = ["STORE", String.singleton 'é'] := by decide +kernel
  have hsum : Text.split "1 + 2" = ["1", "+", "2"] := by decide +kernel
  have htab : Text.split "1\t+ 2" = ["1", "+", "2"] := by decide +kernel
  obtain ⟨hstore, hagrees⟩ := store_by_words false c
  have hfirst := (hstore _ _ 'é' _ hspaced (by decide +kernel) hlast).1 (by decide +kernel)
  have hsecond := (hstore _ _ 'é' _ hunspaced (by decide +kernel) hlast).2 (by decide +kernel)
  refine ⟨c, hlast, hfirst.1, hsecond.1, (hagrees _ _ (hsum.trans htab.symm)).mpr ?_⟩
  rintro ⟨w, name, hd⟩
  have hwords := hd.words
  rw [hsum] at hwords
  simp at hwords

/-- The words are those of a request to store, and there is a result, but the blank between them is
a tab. -/
theorem store_with_tab_is_refused :
    let c : Console := (Console.mk (.start false) true).after "5"
    Text.split "store\ta" = ["store", String.singleton 'a'] ∧ Text.smalls "store" = "store" ∧
      c.session.lastResult = some (.ofInt 5) ∧
      (c.answer false "store\ta").result
        = .ok (.refused "Error: Invalid expression: store\ta") ∧
      Text.split "store\ta" = Text.split "store a" ∧
      (c.answer false "store a").result = .ok (.accepted "Value a stored.") := by
  decide +kernel

end Console

end RationalCalculator
