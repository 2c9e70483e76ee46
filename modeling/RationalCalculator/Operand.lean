import RationalCalculator.Double.Shortest
import RationalCalculator.Fraction.Literal
import RationalCalculator.Operator

/-!
# Operands of every sort

A calculation may be handed values that are no fractions. An operator takes integers as whole
fractions and refuses everything else, truth values included (`toFraction?`).

Equality and hash keys go further than the operators. An integer equals the whole fraction of
its value, and a truth value equals the integer 0 or 1 but no fraction, so equality is not
transitive and the number of distinct values of a list (`distinctCount`) depends on which of
several equal values comes first. What is not a number equals nothing, not even itself. Operands
that are equal and have a fixed hash key have the same one.

Every operand has a text, unless it holds an integer that is too long to be written (`write`).
-/

namespace RationalCalculator

inductive Operand where
  | fraction (value : Fraction)
  | integer (value : Int)
  | truth (value : Bool)
  | text (value : String)
  | double (value : Double)
  | infinity (negative : Bool)
  | notANumber
  | nothing
  deriving DecidableEq

namespace Operand

def toFraction? : Operand → Option Fraction
  | fraction f => some f
  | integer n => some (.ofInt n)
  | _ => none

/-- The text of an operand. A text stands for itself, without quotes. -/
def write : Operand → Except Numeral.Overlong String
  | fraction f => f.text
  | integer n => Numeral.write n
  | truth b => .ok (if b then "True" else "False")
  | text s => .ok s
  | double x => .ok x.text
  | infinity negative => .ok (if negative then "-inf" else "inf")
  | notANumber => .ok "nan"
  | nothing => .ok "None"

/-- The integer a truth value counts as. -/
def ofTruth (b : Bool) : Int := if b then 1 else 0

def isEqual : Operand → Operand → Bool
  | fraction a, fraction b => a == b
  | fraction a, integer n | integer n, fraction a => a == .ofInt n
  | integer m, integer n => m == n
  | integer n, truth b | truth b, integer n => n == ofTruth b
  | integer n, double x | double x, integer n => x.isInt n
  | truth a, truth b => a == b
  | truth b, double x | double x, truth b => x.isInt (ofTruth b)
  | double x, double y => x.isEqual y
  | infinity s, infinity t => s == t
  | text s, text t => s == t
  | nothing, nothing => true
  | _, _ => false

/-- Keep a value unless an equal one has been kept before. -/
def keep (kept : List Operand) (x : Operand) : List Operand :=
  if kept.any (isEqual x) then kept else kept ++ [x]

/-- The number of values that remain when those equal to an earlier one are dropped. -/
def distinctCount (xs : List Operand) : Nat := (xs.foldl keep []).length

def hashModulus : Nat := Nat.pow 2 61 - 1

/-- The hash key of an integer: its remainder, with the sign. The key -1 is not in use, -2 stands
for it. -/
def integerKey (n : Int) : Int :=
  let r := n.tmod hashModulus
  if r = -1 then -2 else r

/-- The key of a value: whole numbers have an integer for a key and all other fractions a pair
of integers. -/
inductive HashKey where
  | whole (key : Int)
  | pair (num den : Int)
  deriving DecidableEq, Repr

def fractionKey (f : Fraction) : HashKey :=
  if f.isWhole then .whole (integerKey f.num) else .pair (integerKey f.num) (integerKey f.den)

/-- The key of a binary number. Powers of two are periodic for the modulus, so a negative
exponent is as good as its remainder. -/
def doubleKey (x : Double) : HashKey :=
  let n : Int := x.significand * Nat.pow 2 (x.exponent.fmod 61).toNat
  .whole (integerKey (if x.negative then -n else n))

/-- The hash key of the two infinities, up to the sign. -/
def infinityKey : Int := 314159

/-- The hash key of an operand, if it is fixed. The key of a nonempty text is not. -/
def hashKey? : Operand → Option HashKey
  | fraction f => some (fractionKey f)
  | integer n => some (.whole (integerKey n))
  | truth b => some (.whole (ofTruth b))
  | double x => some (doubleKey x)
  | infinity negative => some (.whole (if negative then -infinityKey else infinityKey))
  | text s => if s.isEmpty then some (.whole 0) else none
  | notANumber | nothing => none

def sameHash (x y : Operand) : Bool :=
  match x.hashKey?, y.hashKey? with
  | some a, some b => a == b
  | _, _ => false

theorem isEqual_fraction_integer (f : Fraction) (n : Int) :
    isEqual (fraction f) (integer n) = isEqual (fraction f) (fraction (.ofInt n)) := rfl

/-- An integer and the whole fraction of its value have the same hash key. -/
theorem hashKey?_ofInt (n : Int) : hashKey? (fraction (.ofInt n)) = hashKey? (integer n) := rfl

end Operand

end RationalCalculator
