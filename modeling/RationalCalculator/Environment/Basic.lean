/-!
# Environments

An environment gives texts to names. One environment may be laid over another, which then only
speaks for the names that the upper one leaves open (`get?_above`).

Not every name and text is legal in the environment of a process: neither may hold a null
character, and a name may not hold an equals sign.

A user has a home directory. That of the user whose process it is may be given by the environment,
and all others only by the accounts of the host, which need not know every user.
-/

namespace RationalCalculator

/-- Named texts; the first text of a name counts. -/
structure Environment where
  entries : List (String × String)
  deriving DecidableEq, Repr

namespace Environment

def empty : Environment := ⟨[]⟩

def get? (env : Environment) (name : String) : Option String := env.entries.lookup name

/-- The environment `env` laid over `other`. -/
def above (env other : Environment) : Environment := ⟨env.entries ++ other.entries⟩

/-- Why a name with a text is not legal in the environment of a process. -/
inductive Illegal where
  | nullCharacter
  | name
  deriving DecidableEq, Repr

def Illegal.message : Illegal → String
  | nullCharacter => "embedded null byte"
  | name => "illegal environment variable name"

def illegal? (name text : String) : Option Illegal :=
  if '\x00' ∈ name.toList ∨ '\x00' ∈ text.toList then some .nullCharacter
  else if '=' ∈ name.toList then some .name
  else none

/-- The home directory that the environment gives. -/
def home (env : Environment) : Option String := env.get? "HOME"

@[simp] theorem get?_empty (name : String) : empty.get? name = none := rfl

/-- The upper environment is asked first. -/
theorem get?_above (env other : Environment) (name : String) :
    (env.above other).get? name = (env.get? name).or (other.get? name) :=
  List.lookup_append

end Environment

/-- The home directories of users, as far as they are known. -/
structure Homes where
  own : Option String
  ofOther : String → Option String

/-- Only the own home directory is known, if any. -/
instance : Coe (Option String) Homes := ⟨fun own => ⟨own, fun _ => none⟩⟩

/-- The home directory of a user by name. Without a name it is the own one. -/
def Homes.of? (homes : Homes) (name : List Char) : Option String :=
  if name = [] then homes.own else homes.ofOther (String.ofList name)

/-- The home directories in a process with the environment. The accounts are asked for the own one
only if the environment does not give it. -/
def Environment.homes (env : Environment) (accounts : Homes) : Homes where
  own := env.home.or accounts.own
  ofOther := accounts.ofOther

end RationalCalculator
