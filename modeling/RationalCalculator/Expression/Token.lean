import RationalCalculator.Fraction.Literal
import RationalCalculator.Operator
import RationalCalculator.Text.Blank
import RationalCalculator.Text.Letter

/-!
# Tokens

A line is cut into tokens at its blanks, so every operator and every operand is a word of its
own. Each word has one shape: an operator, a register named by a single letter, a fraction
literal, an integer literal, or none of these.
-/

namespace RationalCalculator

inductive Token where
  | operator (op : Operator)
  | register (name : Char)
  | fraction (text : String) (value : Fraction)
  | integer (text : String) (value : Int)
  | invalid (text : String)
  deriving DecidableEq

namespace Token

/-- The word a token was cut from. -/
def text : Token → String
  | operator op => op.symbol
  | register name => String.singleton name
  | fraction text _ => text
  | integer text _ => text
  | invalid text => text

def operator? : Token → Option Operator
  | operator op => some op
  | _ => none

/-- The number a token is the literal of. -/
def literal? : Token → Option Fraction
  | fraction _ value => some value
  | integer _ value => some (.ofInt value)
  | _ => none

/-- The token of a word that is neither an operator nor a register. -/
def ofLiteral (word : String) : Token :=
  match Fraction.parse word with
  | .ok value => .fraction word value
  | .error _ =>
    match Numeral.read word with
    | .ok value => .integer word value
    | .error _ => .invalid word

def letter? (word : String) : Option Char :=
  match word.toList with
  | [c] => if Text.isLetter c then some c else none
  | _ => none

def ofWord (word : String) : Token :=
  match Operator.ofSymbol? word with
  | some op => .operator op
  | none =>
    match letter? word with
    | some c => .register c
    | none => ofLiteral word

def scan (line : String) : List Token := (Text.split line).map ofWord

theorem letter?_eq_some_iff (word : String) (c : Char) :
    letter? word = some c ↔ word.toList = [c] ∧ Text.isLetter c = true := by
  unfold letter?
  split
  next d h =>
    by_cases hd : Text.isLetter d = true
    · simp only [hd, if_true, Option.some.injEq, h, List.cons.injEq, and_true]
      exact ⟨fun he => he ▸ ⟨rfl, hd⟩, And.left⟩
    · simp only [hd, h, List.cons.injEq, and_true]
      exact ⟨fun he => by contradiction, fun he => absurd (he.1 ▸ he.2) hd⟩
  next h =>
    refine ⟨fun he => by contradiction, fun he => absurd he.1 (h c)⟩

theorem text_ofLiteral (word : String) : (ofLiteral word).text = word := by
  unfold ofLiteral
  split
  · rfl
  · split <;> rfl

/-- A token keeps the word it was cut from. -/
theorem text_ofWord (word : String) : (ofWord word).text = word := by
  unfold ofWord
  split
  next op h => exact ((Operator.ofSymbol?_eq_some_iff word op).1 h).symm
  next =>
    split
    next c h =>
      obtain ⟨hc, -⟩ := (letter?_eq_some_iff word c).1 h
      rw [text, ← String.ofList_toList (s := word), hc]
      simp
    next => exact text_ofLiteral word

end Token

end RationalCalculator
