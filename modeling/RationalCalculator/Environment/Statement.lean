import RationalCalculator.Text.Blank

/-!
# Statements of an environment file

An environment file is a sequence of statements. A statement `NAME=value` binds a name, a name
alone takes its value away, and blank lines and comments say nothing. The word `export` may stand
in front of a name, and a name may stand in single quotes. A value goes to the end of its line,
without the blanks around it and without a comment, that is a `#` with a blank before it. A value
in quotes may hold these as well, goes on over line ends, and knows some escapes. Readers differ in
where it ends if there are backslashes in it (`Quoting`).

What cannot be read as a statement is given up to the end of the line where reading stopped, and
the line on which it starts is kept. Reading a statement always takes something away
(`length_step_le`), so the statements of a file are finitely many.
-/

namespace RationalCalculator.Environment

open Text

/-- What a statement assigns to a name. A name without an equals sign has no value. -/
structure Binding where
  name : String
  value : Option String
  deriving DecidableEq, Repr

inductive Statement where
  /-- A comment. -/
  | nothing
  | binding (b : Binding)
  | unreadable (line : Nat)
  deriving DecidableEq, Repr

namespace Statement

def isLineEnd (c : Char) : Bool := c == '\n' || c == '\r'

def isLineBlank (c : Char) : Bool := isBlank c && !isLineEnd c

def skipBlanks (cs : List Char) : List Char := cs.dropWhile isLineBlank

def takeLine (cs : List Char) : List Char := cs.takeWhile (!isLineEnd ·)

/-- What follows up to the end of the line, the end included. -/
def dropLine (cs : List Char) : List Char := cs.dropWhile (!isLineEnd ·)

/-- The number of line ends in a text. A carriage return with a line feed is one. -/
def lineEnds : List Char → Nat
  | [] => 0
  | '\r' :: '\n' :: cs => lineEnds cs + 1
  | c :: cs => lineEnds cs + if isLineEnd c then 1 else 0

def dropExport (cs : List Char) : List Char :=
  let rest := cs.drop 6
  if cs.take 6 = "export".toList ∧ rest.head?.any isLineBlank then skipBlanks rest else cs

def isNameChar (c : Char) : Bool := !(c == '=' || c == '#' || isBlank c)

def name? (cs : List Char) : Option (List Char × List Char) :=
  let (name, rest) := match cs with
    | '\'' :: cs => (cs.takeWhile (· != '\''), (cs.dropWhile (· != '\'')).tail?)
    | cs => (cs.takeWhile isNameChar, some (cs.dropWhile isNameChar))
  if name.isEmpty then none else rest.map (name, ·)

/-- Where a value in quotes ends. -/
inductive Quoting where
  /-- At the first quote that no backslash takes along. A backslash takes any character along. -/
  | takesAny
  /-- The same, but a backslash takes only a quote along, and if no quote is left then the last one
  ends the value all the same. -/
  | takesQuote
  deriving DecidableEq, Repr

/-- The text up to the first quote that no backslash takes along, and what follows the quote. -/
def closeFree? (takes : Char → Bool) (q : Char) : List Char → Option (List Char × List Char)
  | [] => none
  | [c] => if c = q then some ([], []) else none
  | c :: d :: cs =>
    if c = '\\' ∧ takes d then
      (closeFree? takes q cs).map fun (text, rest) => (c :: d :: text, rest)
    else if c = q then some ([], d :: cs)
    else (closeFree? takes q (d :: cs)).map fun (text, rest) => (c :: text, rest)

/-- The text up to the last quote, and what follows the quote. -/
def closeLast? (q : Char) : List Char → Option (List Char × List Char)
  | [] => none
  | c :: cs =>
    match closeLast? q cs with
    | some (text, rest) => some (c :: text, rest)
    | none => if c = q then some ([], cs) else none

def closeQuote? (quoting : Quoting) (q : Char) (cs : List Char) :
    Option (List Char × List Char) :=
  match quoting with
  | .takesAny => closeFree? (fun _ => true) q cs
  | .takesQuote => (closeFree? (· == q) q cs).or (closeLast? q cs)

/-- Replace a backslash and the character behind it, where this is an escape. -/
def unescape (escape : Char → Option Char) : List Char → List Char
  | [] => []
  | [c] => [c]
  | c :: d :: cs =>
    match if c = '\\' then escape d else none with
    | some e => e :: unescape escape cs
    | none => c :: unescape escape (d :: cs)

def singleEscape : Char → Option Char
  | '\\' => some '\\'
  | '\'' => some '\''
  | _ => none

def doubleEscape : Char → Option Char
  | '\\' => some '\\'
  | '\'' => some '\''
  | '"' => some '"'
  | 'a' => some '\x07'
  | 'b' => some '\x08'
  | 'f' => some '\x0c'
  | 'n' => some '\n'
  | 'r' => some '\r'
  | 't' => some '\t'
  | 'v' => some '\x0b'
  | _ => none

def cutComment : List Char → List Char
  | [] => []
  | c :: cs => if isBlank c ∧ cs.head? = some '#' then [] else c :: cutComment cs

variable (quoting : Quoting)

/-- A value in quotes, behind the opening one, and what follows it. -/
def quoted? (q : Char) (escape : Char → Option Char) (cs : List Char) :
    Option (List Char × List Char) :=
  (closeQuote? quoting q cs).map fun (text, rest) => (unescape escape text, rest)

def value? (cs : List Char) : Option (List Char × List Char) :=
  match skipBlanks cs with
  | '\'' :: cs => quoted? quoting '\'' singleEscape cs
  | '"' :: cs => quoted? quoting '"' doubleEscape cs
  | _ => some (strip (cutComment (takeLine cs)), dropLine cs)

def passLineEnd? : List Char → Option (List Char)
  | [] => some []
  | '\r' :: '\n' :: cs => some cs
  | c :: cs => if isLineEnd c then some cs else none

/-- What follows a statement. Only blanks and a comment may stand before the end of its line. -/
def finish? (cs : List Char) : Option (List Char) :=
  match skipBlanks cs with
  | '#' :: cs => passLineEnd? (dropLine cs)
  | cs => passLineEnd? cs

/-- A result of reading, or the place where reading stopped. -/
def orStop {α : Type} (cs : List Char) : Option α → Except (List Char) α
  | some a => .ok a
  | none => .error cs

/-- The value of a name, and what follows the statement. -/
def assignment (cs : List Char) : Except (List Char) (Option (List Char) × List Char) :=
  match skipBlanks cs with
  | '=' :: cs => do
    let (value, cs) ← orStop cs (value? quoting cs)
    return (some value, ← orStop cs (finish? cs))
  | cs => return (none, ← orStop cs (finish? cs))

/-- What a statement binds, if it is no comment, and what follows it. -/
def read (cs : List Char) : Except (List Char) (Option Binding × List Char) :=
  match dropExport cs with
  | '#' :: cs => return (none, ← orStop cs (passLineEnd? (dropLine cs)))
  | cs => do
    let (name, cs) ← orStop cs (name? cs)
    let (value, cs) ← assignment quoting cs
    return (some ⟨String.ofList name, value.map String.ofList⟩, cs)

/-- Give up what is left of a line, with one character that ends it. -/
def giveUp (cs : List Char) : List Char := (dropLine cs).drop 1

/-- The statement that starts on the line, and what follows it. -/
def step (line : Nat) (cs : List Char) : Statement × List Char :=
  match read quoting cs with
  | .ok (some b, rest) => (.binding b, rest)
  | .ok (none, rest) => (.nothing, rest)
  | .error stop => (.unreadable line, giveUp stop)

theorem length_skipBlanks_le (cs : List Char) : (skipBlanks cs).length ≤ cs.length :=
  (List.dropWhile_suffix _).length_le

theorem length_dropLine_le (cs : List Char) : (dropLine cs).length ≤ cs.length :=
  (List.dropWhile_suffix _).length_le

/-- The word `export` is dropped, or nothing is. -/
theorem length_dropExport_lt_or_eq (cs : List Char) :
    (dropExport cs).length < cs.length ∨ dropExport cs = cs := by
  have h := length_skipBlanks_le (cs.drop 6)
  simp only [dropExport]
  split
  next hx =>
    have h6 : (cs.take 6).length = 6 := by rw [hx.1]; rfl
    simp only [List.length_take, List.length_drop] at h6 h
    exact .inl (by omega)
  next => exact .inr rfl

theorem length_giveUp_le (cs : List Char) : (giveUp cs).length ≤ cs.length := by
  have h := length_dropLine_le cs
  simp only [giveUp, List.length_drop]
  omega

/-- Giving up takes at least one character. -/
theorem length_giveUp_cons_le (c : Char) (cs : List Char) :
    (giveUp (c :: cs)).length ≤ cs.length := by
  by_cases h : isLineEnd c = true
  · simp [giveUp, dropLine, h]
  · have he : giveUp (c :: cs) = giveUp cs := by simp [giveUp, dropLine, h]
    rw [he]
    exact length_giveUp_le cs

theorem length_of_name? {cs name rest : List Char} (h : name? cs = some (name, rest)) :
    rest.length < cs.length := by
  unfold name? at h
  split at h
  next n r heq =>
    split at heq
    next ds =>
      obtain ⟨rfl, rfl⟩ := Prod.mk.inj heq
      split at h
      · contradiction
      · obtain ⟨r, hr, he⟩ := Option.map_eq_some_iff.1 h
        obtain ⟨-, rfl⟩ := Prod.mk.inj he
        have hd := (List.dropWhile_suffix (· != '\'') (l := ds)).length_le
        cases hw : ds.dropWhile (· != '\'') with
        | nil => simp [hw] at hr
        | cons x xs =>
          simp only [hw, List.tail?_cons, Option.some.injEq] at hr
          simp only [hw, List.length_cons] at hd
          rw [← hr, List.length_cons]
          omega
    next =>
      obtain ⟨rfl, rfl⟩ := Prod.mk.inj heq
      split at h
      · contradiction
      next hne =>
        simp only [Option.map_some, Option.some.injEq, Prod.mk.injEq] at h
        obtain ⟨-, rfl⟩ := h
        have hl := congrArg List.length (List.takeWhile_append_dropWhile (p := isNameChar) (l := cs))
        rw [List.length_append] at hl
        have hp : 0 < (cs.takeWhile isNameChar).length :=
          List.length_pos_iff.2 fun he => hne (by simp [he])
        omega

theorem length_of_closeFree? {takes : Char → Bool} {q : Char} {cs text rest : List Char}
    (h : closeFree? takes q cs = some (text, rest)) : rest.length ≤ cs.length := by
  fun_induction closeFree? takes q cs generalizing text rest with
  | case1 => contradiction
  | case2 =>
    obtain ⟨-, rfl⟩ := Prod.mk.inj (Option.some.inj h)
    exact Nat.zero_le _
  | case3 => contradiction
  | case4 c d cs _ ih =>
    obtain ⟨⟨t, r⟩, hr, he⟩ := Option.map_eq_some_iff.1 h
    obtain ⟨-, rfl⟩ := Prod.mk.inj he
    exact Nat.le_succ_of_le (Nat.le_succ_of_le (ih hr))
  | case5 =>
    obtain ⟨-, rfl⟩ := Prod.mk.inj (Option.some.inj h)
    exact Nat.le_succ _
  | case6 c d cs _ _ ih =>
    obtain ⟨⟨t, r⟩, hr, he⟩ := Option.map_eq_some_iff.1 h
    obtain ⟨-, rfl⟩ := Prod.mk.inj he
    exact Nat.le_succ_of_le (ih hr)

theorem length_of_closeLast? {q : Char} {cs text rest : List Char}
    (h : closeLast? q cs = some (text, rest)) : rest.length ≤ cs.length := by
  fun_induction closeLast? q cs generalizing text rest with
  | case1 => contradiction
  | case2 c cs t r hlast ih =>
    obtain ⟨-, rfl⟩ := Prod.mk.inj (Option.some.inj h)
    exact Nat.le_succ_of_le (ih hlast)
  | case3 =>
    obtain ⟨-, rfl⟩ := Prod.mk.inj (Option.some.inj h)
    exact Nat.le_succ _
  | case4 => contradiction

theorem length_of_closeQuote? {q : Char} {cs text rest : List Char}
    (h : closeQuote? quoting q cs = some (text, rest)) : rest.length ≤ cs.length := by
  cases quoting with
  | takesAny => exact length_of_closeFree? h
  | takesQuote =>
    rcases Option.or_eq_some_iff.mp h with h | ⟨-, h⟩
    · exact length_of_closeFree? h
    · exact length_of_closeLast? h

theorem length_of_quoted? {q : Char} {escape : Char → Option Char} {cs value rest : List Char}
    (h : quoted? quoting q escape cs = some (value, rest)) : rest.length ≤ cs.length := by
  obtain ⟨⟨t, r⟩, hr, he⟩ := Option.map_eq_some_iff.1 h
  obtain ⟨-, rfl⟩ := Prod.mk.inj he
  exact length_of_closeQuote? quoting hr

theorem length_of_value? {cs value rest : List Char} (h : value? quoting cs = some (value, rest)) :
    rest.length ≤ cs.length := by
  have hs := length_skipBlanks_le cs
  unfold value? at h
  split at h
  next hq =>
    have := length_of_quoted? quoting h
    simp only [hq, List.length_cons] at hs
    omega
  next hq =>
    have := length_of_quoted? quoting h
    simp only [hq, List.length_cons] at hs
    omega
  next =>
    obtain ⟨-, rfl⟩ := Prod.mk.inj (Option.some.inj h)
    exact length_dropLine_le cs

theorem length_of_passLineEnd? {cs rest : List Char} (h : passLineEnd? cs = some rest) :
    rest.length ≤ cs.length := by
  unfold passLineEnd? at h
  split at h
  · simp_all
  · simp only [Option.some.injEq] at h
    subst h
    simp only [List.length_cons]
    omega
  · split at h
    · simp only [Option.some.injEq] at h
      subst h
      exact Nat.le_succ _
    · contradiction

theorem length_of_finish? {cs rest : List Char} (h : finish? cs = some rest) :
    rest.length ≤ cs.length := by
  have hs := length_skipBlanks_le cs
  unfold finish? at h
  split at h
  next ds hd =>
    have := length_of_passLineEnd? h
    have := length_dropLine_le ds
    simp only [hd, List.length_cons] at hs
    omega
  next =>
    have := length_of_passLineEnd? h
    omega

/-- The text that is left when reading has ended, or where it has stopped. -/
def left {α : Type} : Except (List Char) (α × List Char) → List Char
  | .ok (_, rest) => rest
  | .error stop => stop

theorem length_left_assignment_le (cs : List Char) :
    (left (assignment quoting cs)).length ≤ cs.length := by
  have hs := length_skipBlanks_le cs
  unfold assignment
  split
  next ds hd =>
    simp only [hd, List.length_cons] at hs
    cases hv : value? quoting ds with
    | none =>
      simp only [orStop, bind, Except.bind, left]
      omega
    | some v =>
      obtain ⟨value, rest⟩ := v
      have hr := length_of_value? quoting hv
      cases hf : finish? rest with
      | none =>
        simp only [hf, orStop, bind, Except.bind, left]
        omega
      | some e =>
        have := length_of_finish? hf
        simp only [hf, orStop, bind, Except.bind, pure, Except.pure, left]
        omega
  next ds hd =>
    cases hf : finish? (skipBlanks cs) with
    | none =>
      simp only [orStop, bind, Except.bind, left]
      omega
    | some e =>
      have := length_of_finish? hf
      simp only [orStop, bind, Except.bind, pure, Except.pure, left]
      omega

/-- Reading takes something away, or it has stopped where it started. -/
theorem length_left_read (cs : List Char) :
    (left (read quoting cs)).length < cs.length ∨ read quoting cs = .error cs := by
  have he := length_dropExport_lt_or_eq cs
  have hle : (dropExport cs).length ≤ cs.length := by
    rcases he with he | he
    · exact Nat.le_of_lt he
    · exact Nat.le_of_eq (congrArg List.length he)
  unfold read
  split
  next ds hd =>
    have hl := length_dropLine_le ds
    simp only [hd, List.length_cons] at hle
    left
    cases hf : passLineEnd? (dropLine ds) with
    | none =>
      simp only [orStop, bind, Except.bind, left]
      omega
    | some rest =>
      have := length_of_passLineEnd? hf
      simp only [orStop, bind, Except.bind, pure, Except.pure, left]
      omega
  next =>
    cases hn : name? (dropExport cs) with
    | none =>
      simp only [orStop, bind, Except.bind, left]
      exact he.imp id fun he => by rw [he]
    | some v =>
      obtain ⟨name, rest⟩ := v
      have hr := length_of_name? hn
      have ha := length_left_assignment_le quoting rest
      left
      simp only [orStop, bind, Except.bind]
      cases h : assignment quoting rest with
      | error stop =>
        simp only [h, left] at ha ⊢
        omega
      | ok v =>
        simp only [h, left, pure, Except.pure] at ha ⊢
        omega

/-- A statement takes at least its first character. -/
theorem length_step_le (line : Nat) (c : Char) (cs : List Char) :
    (step quoting line (c :: cs)).2.length ≤ cs.length := by
  have h := length_left_read quoting (c :: cs)
  unfold step
  cases hr : read quoting (c :: cs) with
  | ok v =>
    obtain ⟨b, rest⟩ := v
    simp only [hr, left, List.length_cons, reduceCtorEq, or_false] at h
    cases b <;> exact Nat.le_of_lt_succ h
  | error stop =>
    simp only [hr, left, List.length_cons, Except.error.injEq] at h
    rcases h with h | rfl
    · exact Nat.le_trans (length_giveUp_le stop) (Nat.le_of_lt_succ h)
    · exact length_giveUp_cons_le c cs

def scan (line : Nat) (cs : List Char) : List Statement :=
  match _h : cs.dropWhile isBlank with
  | [] => []
  | c :: ds =>
    let rest := (step quoting line (c :: ds)).2
    (step quoting line (c :: ds)).1 :: scan (line + lineEnds (cs.take (cs.length - rest.length))) rest
termination_by cs.length
decreasing_by
  have hs := (List.dropWhile_suffix isBlank (l := cs)).length_le
  have hl := length_step_le quoting line c ds
  simp only [_h, List.length_cons] at hs
  omega

/-- The statements of a file. A byte order mark in front is passed over. -/
def ofText (text : String) : List Statement :=
  match text.toList with
  | '\uFEFF' :: cs => scan quoting 1 cs
  | cs => scan quoting 1 cs

def binding? : Statement → Option Binding
  | binding b => some b
  | _ => none

def unreadable? : Statement → Option Nat
  | unreadable line => some line
  | _ => none

end Statement

end RationalCalculator.Environment
