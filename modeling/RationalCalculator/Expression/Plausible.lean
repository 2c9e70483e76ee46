import RationalCalculator.Numeral
import RationalCalculator.Operator
import RationalCalculator.Text.Blank

/-!
# Plausible lines

A plain number is an integer or a fraction in ASCII digits with at most a minus sign. A line is
plausible unless two plain numbers or two operators are neighbours in it. This is found out from
the words alone, without reading the line as an expression.
-/

namespace RationalCalculator

/-- Is the word digits, or digits on both sides of a slash, with or without a minus sign? -/
def isPlainNumber (word : String) : Bool :=
  let body := match word.toList with
    | '-' :: cs => cs
    | cs => cs
  let whole := body.takeWhile Char.isDigit
  !whole.isEmpty && match body.drop whole.length with
    | [] => true
    | c :: cs => c == '/' && Numeral.isDigits cs

def isOperatorSymbol (word : String) : Bool := (Operator.ofSymbol? word).isSome

/-- Are two words of a sort that cannot be neighbours? -/
def clash (a b : String) : Bool :=
  (isPlainNumber a && isPlainNumber b) || (isOperatorSymbol a && isOperatorSymbol b)

def hasClash : List String → Bool
  | [] => false
  | a :: rest => rest.head?.any (clash a) || hasClash rest

def isPlausible (line : String) : Bool := !hasClash (Text.split line)

end RationalCalculator
