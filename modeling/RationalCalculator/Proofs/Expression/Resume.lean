import RationalCalculator.Expression.Cursor
import RationalCalculator.Proofs.Expression.LeftmostFault
import RationalCalculator.Proofs.Results
import RationalCalculator.Proofs.Text.Join

/-!
# Resuming at a cursor

A request leaves the cursor wherever the reading stopped: behind a complete part, before an operator
that is out of place, behind an operand that has no value, or at the end of the line. From any such
position the next request is answered as on a new line of the remaining words, and the cursor moves
by as much, because a reading looks at nothing but the tokens in front of it (`answer_of_rest`). A
part that is read takes an operand, and then an operator and an operand as often as it goes on, so
it is of odd length (`length_read`).
-/

namespace RationalCalculator

namespace Token

/-- The line of all tokens but the first `p`. -/
def back (line : String) (p : Nat) : String := Text.join ((Text.split line).drop p)

theorem scan_back (line : String) (p : Nat) : scan (back line p) = (scan line).drop p := by
  rw [back, scan_join fun _ => List.mem_of_mem_drop, List.map_drop, scan]

end Token

namespace Reading

variable {registers : Registers} {part : Part} {v : Fraction}

/-- A walk takes operators and operands in pairs. -/
theorem length_walk {p : Partial} {ts : List Token}
    (h : (walk part registers p ts).value = .ok v) :
    ∃ k, ts.length = (walk part registers p ts).rest.length + 2 * k := by
  -- a walk with a value ends in front of something, or takes a pair and goes on
  fun_induction walk part registers p ts with
  | case1 => exact ⟨0, rfl⟩
  | case2 => exact ⟨0, rfl⟩
  | case3 => contradiction
  | case4 p t op ht hc u rest f hf =>
    rw [operand, hf] at h
    contradiction
  | case5 => contradiction
  | case6 p t op ht hc u rest w hw q hq ih =>
    obtain ⟨k, hk⟩ := ih h
    refine ⟨k + 1, ?_⟩
    simp only [List.length_cons]
    omega
  | case7 => exact ⟨0, rfl⟩

/-- A part that is read starts with an operand. -/
theorem length_read {t : Token} {rest : List Token}
    (h : (read part registers t rest).value = .ok v) :
    ∃ k, rest.length = (read part registers t rest).rest.length + 2 * k := by
  unfold read at h ⊢
  split at h
  next f hf =>
    rw [operand, hf] at h
    contradiction
  next w hw => exact length_walk h

end Reading

namespace Cursor

variable {registers : Registers} {strict : Bool} {line : String}

theorem length_readingAt {t : Token} {rest : List Token} {request : Request} {v : Fraction}
    (h : (readingAt registers strict t rest request).value = .ok v) :
    ∃ k, rest.length = (readingAt registers strict t rest request).rest.length + 2 * k := by
  cases request with
  | part part => exact Reading.length_read h
  | whole =>
    rw [readingAt, Reading.rest_complete]
    rw [readingAt, Reading.value_complete_eq_ok_iff] at h
    exact Reading.length_read h.1

theorem position_move (c : Cursor) (registers : Registers) (strict : Bool) (request : Request) :
    (c.move registers strict request).position
      = c.tokens.length - (c.answer registers strict request).2.length := rfl

theorem tokens_ofLine (line : String) : (ofLine line).tokens = Token.scan line := rfl

theorem rest_ofLine (line : String) : (ofLine line).rest = Token.scan line := rfl

/-- The answer depends on the tokens in front of the cursor alone, as long as there are any. -/
theorem answer_of_rest {c d : Cursor} (h : c.rest = d.rest) (hne : c.rest ≠ [])
    (request : Request) :
    c.answer registers strict request = d.answer registers strict request := by
  cases hrest : c.rest with
  | nil => contradiction
  | cons t rest => simp only [answer, ← h, hrest]

/-- What a request at position `p` of a line is answered, and the position `q` behind it. -/
structure Served (registers : Registers) (strict : Bool) (line : String) (p : Nat)
    (request : Request) (answer : Except Failure Fraction) (q : Nat) : Prop where
  forward : p ≤ q
  inside : q ≤ (Token.scan line).length
  /-- Before the end it is as on a new line of the remaining words. -/
  resumed : p < (Token.scan line).length →
    (ofLine (Token.back line p)).run registers strict [request] = [(answer, q - p)]
  odd : ∀ v, answer = .ok v → (q - p) % 2 = 1
  /-- At the end it is the last token that lacks an operand behind it. -/
  ended : p = (Token.scan line).length → q = p ∧ ∃ last, (Token.scan line).getLast? = some last ∧
    answer = .error (.fault (.missingOperand last.text))

/-- Each request is served at the position where the one before it has left the cursor. -/
inductive ServedInTurn (registers : Registers) (strict : Bool) (line : String) :
    Nat → List Request → List (Except Failure Fraction × Nat) → Prop where
  | nil {p : Nat} : ServedInTurn registers strict line p [] []
  | cons {p q : Nat} {request : Request} {requests : List Request}
      {answer : Except Failure Fraction} {answers : List (Except Failure Fraction × Nat)}
      (first : Served registers strict line p request answer q)
      (others : ServedInTurn registers strict line q requests answers) :
      ServedInTurn registers strict line p (request :: requests) ((answer, q) :: answers)

/-- In front of a token a value is given for an odd number of tokens. -/
theorem length_answer_of_ok {c : Cursor} {request : Request} {v : Fraction}
    (h : (c.answer registers strict request).1 = .ok v) :
    ∃ k, c.rest.length = (c.answer registers strict request).2.length + 2 * k + 1 := by
  unfold answer at h ⊢
  split at h
  · contradiction
  next t rest hrest =>
    obtain ⟨k, hk⟩ := length_readingAt (eq_ok_of_mapError h)
    refine ⟨k, ?_⟩
    simp only [hrest, List.length_cons]
    omega

/-- At the end the answer names the last token, and there is nothing to move past. -/
theorem answer_of_rest_nil {c : Cursor} {last : Token} (h : c.rest = [])
    (hlast : c.tokens.getLast? = some last) (request : Request) :
    c.answer registers strict request = (.error (.fault (.missingOperand last.text)), []) := by
  rw [answer, h]
  simp only [atEnd, hlast]

/-- A cursor on a line is served as a new cursor on the rest of it. -/
theorem run_back {c : Cursor} (hc : c.tokens = Token.scan line) (hlt : c.position < c.tokens.length)
    (request : Request) :
    (ofLine (Token.back line c.position)).run registers strict [request]
      = [((c.answer registers strict request).1,
        (c.move registers strict request).position - c.position)] := by
  have hrest : c.rest = (ofLine (Token.back line c.position)).rest := by
    rw [rest_ofLine, Token.scan_back, rest, hc]
  have hlen := c.length_rest
  have hle := c.length_answer_rest registers strict request
  have hnil : c.rest ≠ [] := List.ne_nil_of_length_pos (by omega)
  have hmoved : c.rest.length - (c.answer registers strict request).2.length
      = (c.move registers strict request).position - c.position := by
    rw [position_move]
    omega
  rw [run, run, position_move, tokens_ofLine, ← rest_ofLine, ← hrest,
    ← answer_of_rest hrest hnil, hmoved]

theorem served (c : Cursor) (hc : c.tokens = Token.scan line) (hne : Token.scan line ≠ [])
    (request : Request) :
    Served registers strict line c.position request (c.answer registers strict request).1
      (c.move registers strict request).position := by
  have hlen := c.length_rest
  have hinside := c.inside
  have hmove := c.position_move registers strict request
  refine ⟨c.position_le_move registers strict request, ?_, ?_, ?_, ?_⟩
  · rw [← hc]
    exact c.position_move_le registers strict request
  · intro hlt
    exact run_back hc (hc ▸ hlt) request
  · intro v hv
    obtain ⟨k, hk⟩ := length_answer_of_ok hv
    omega
  · intro hend
    rw [← hc] at hend
    have hnil : c.rest = [] := List.eq_nil_of_length_eq_zero (by omega)
    obtain ⟨last, hlast⟩ : ∃ last, (Token.scan line).getLast? = some last :=
      ⟨_, List.getLast?_eq_some_getLast hne⟩
    have hanswer : c.answer registers strict request = _ :=
      answer_of_rest_nil hnil (hc ▸ hlast) request
    rw [hanswer, List.length_nil] at hmove
    exact ⟨by omega, last, hlast, by rw [hanswer]⟩

/-- The step lemma carries over to runs, since the tokens stay the same. -/
theorem servedInTurn (c : Cursor) (hc : c.tokens = Token.scan line) (hne : Token.scan line ≠ [])
    (requests : List Request) :
    ServedInTurn registers strict line c.position requests (c.run registers strict requests) := by
  induction requests generalizing c with
  | nil => exact .nil
  | cons request requests ih =>
    exact .cons (c.served hc hne request) (ih (c.move registers strict request) hc)

/-- On a line that has a token, the cursor never moves back and never leaves the line, whatever is
asked for and whatever goes wrong; and wherever it has been left, the next request is answered as on
a new line of the remaining words. -/
theorem run_resumes (registers : Registers) (strict : Bool) (line : String)
    (hne : Token.scan line ≠ []) (requests : List Request) :
    ServedInTurn registers strict line 0 requests
      ((ofLine line).run registers strict requests) ∧
    (∀ s, (Fault.missingOperand s).report = (.invalidOperand, "Missing operand after: " ++ s)) :=
  ⟨servedInTurn (ofLine line) rfl hne requests, fun _ => rfl⟩

/-- The cursor is left behind an unknown register, in front of a token that is left over, behind a
divisor of zero, behind an operand that is read, and at the end. -/
theorem run_resumes_after_faults :
    Token.scan "x 4 * 2 5 / 0 3" ≠ [] ∧
    ServedInTurn .empty true "x 4 * 2 5 / 0 3" 0
      [.part .expression, .whole, .part .term, .part .operand, .whole]
      [(.error (.fault (.unknownRegister "x")), 1), (.error (.fault (.unexpectedToken "5")), 4),
        (.error (.fault .divisionByZero), 7), (.ok (.ofInt 3), 8),
        (.error (.fault (.missingOperand "3")), 8)] := by
  have hne : Token.scan "x 4 * 2 5 / 0 3" ≠ [] := by decide +kernel
  have hrun : (ofLine "x 4 * 2 5 / 0 3").run .empty true
      [.part .expression, .whole, .part .term, .part .operand, .whole]
      = [(.error (.fault (.unknownRegister "x")), 1), (.error (.fault (.unexpectedToken "5")), 4),
        (.error (.fault .divisionByZero), 7), (.ok (.ofInt 3), 8),
        (.error (.fault (.missingOperand "3")), 8)] := by decide +kernel
  refine ⟨hne, ?_⟩
  rw [← hrun]
  exact (run_resumes .empty true "x 4 * 2 5 / 0 3" hne _).1

end Cursor

end RationalCalculator
