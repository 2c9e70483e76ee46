import RationalCalculator.Session.Outcome

/-!
# Several sessions side by side

A group holds sessions by name and makes a session when its name is used first. An action goes
to one session and no other sees it (`get_perform_of_ne`).

A group may keep a log. An event that cannot be written to the log takes the place of the answer,
but what has happened to the session stays.
-/

namespace RationalCalculator

namespace Session

inductive Action where
  | evaluate (line : String)
  | store (selector : String)
  | tryEvaluate (line : String)
  | tryStore (selector : String)
  | setStrict (strict : Bool)
  /-- Take a copy of the registers and put something under `key` in the copy. -/
  | editCopy (key : String)
  | writeLast
  deriving DecidableEq, Repr

inductive Answer where
  | value (v : Fraction)
  | done
  | fault (f : Fault)
  | outcome (o : Outcome)
  | size (n : Nat)
  | text (t : Except Numeral.Overlong String)
  | unwritableLog

def lastText (s : Session) : Except Numeral.Overlong String :=
  match s.lastResult with
  | some v => v.text
  | none => .ok "None"

/-- The answer to an action, the session after it, and what is logged. -/
structure Performed where
  answer : Answer
  session : Session
  events : List Event

def Performed.log (p : Performed) : Except Numeral.Overlong (List String) :=
  p.events.mapM Event.message

/-- What becomes of an action if its events have to be written. -/
def Performed.logged (p : Performed) : Performed :=
  match p.log with
  | .ok _ => p
  | .error _ => ⟨.unwritableLog, p.session, []⟩

def perform (s : Session) : Action → Performed
  | .evaluate line =>
    let r := s.evaluate line
    ⟨match r.result with | .ok v => .value v | .error f => .fault f, r.session, r.events⟩
  | .store selector =>
    let r := s.store selector
    ⟨match r.result with | .ok () => .done | .error f => .fault f, r.session, r.events⟩
  | .tryEvaluate line =>
    let r := s.tryEvaluate line
    ⟨.outcome r.outcome, r.session, r.events⟩
  | .tryStore selector =>
    let r := s.tryStore selector
    ⟨.outcome r.outcome, r.session, r.events⟩
  | .setStrict strict => ⟨.done, { s with strict := strict }, []⟩
  | .editCopy key => ⟨.size (s.registers.sizeWith key), s, []⟩
  | .writeLast => ⟨.text s.lastText, s, []⟩

/-- Sessions by name. A name that is not in use stands for a new session. -/
structure Group where
  strict : Bool
  keepsLog : Bool
  sessions : List (String × Session)

namespace Group

def start (strict keepsLog : Bool) : Group := ⟨strict, keepsLog, []⟩

def get (g : Group) (name : String) : Session :=
  (g.sessions.lookup name).getD (.start g.strict)

def put (g : Group) (name : String) (s : Session) : Group :=
  { g with sessions := (name, s) :: g.sessions }

def perform (g : Group) (name : String) (action : Action) : Performed × Group :=
  let p := (g.get name).perform action
  (if g.keepsLog then p.logged else p, g.put name p.session)

def run (g : Group) : List (String × Action) → List Performed × Group
  | [] => ([], g)
  | (name, action) :: rest =>
    let (p, g) := g.perform name action
    let (ps, g) := g.run rest
    (p :: ps, g)

theorem get_put (g : Group) (name other : String) (s : Session) :
    (g.put name s).get other = if other = name then s else g.get other := by
  simp only [get, put, List.lookup_cons]
  by_cases h : other = name
  · simp [h]
  · have hb : (other == name) = false := by simpa using h
    simp [h, hb]

/-- No session sees an action that goes to another. -/
theorem get_perform_of_ne (g : Group) {name other : String} (action : Action)
    (h : other ≠ name) : (g.perform name action).2.get other = g.get other := by
  simp [perform, get_put, h]

end Group

end Session

end RationalCalculator
