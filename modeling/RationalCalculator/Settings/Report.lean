import RationalCalculator.Settings.Basic

/-!
# Reports of refused settings

The violations of a check as one text: how many there are, and for each the field, the message,
and what was refused. A quoted value of more than 50 bytes is shortened in the middle, to at most
25 bytes in front and 24 at the end.
-/

namespace RationalCalculator.Settings

/-- The longest part from the front that takes at most `limit` bytes. -/
def takeBytes (limit : Nat) : List Char → List Char
  | [] => []
  | c :: cs => if c.utf8Size ≤ limit then c :: takeBytes (limit - c.utf8Size) cs else []

def shorten (text : String) : String :=
  if text.utf8ByteSize ≤ 50 then text
  else
    let front := takeBytes 25 text.toList
    let back := (takeBytes 24 text.toList.reverse).reverse
    String.ofList (front ++ ['.', '.', '.'] ++ back)

def Violation.report (v : Violation) : String :=
  let input := match v.problem.text? with
    | some text => s!", input_value={shorten (Text.quote text)}, input_type=str"
    | none => ""
  s!"{v.field.name}\n  {v.problem.message} [type={v.problem.category}{input}]"

def report (violations : List Violation) : String :=
  let count := violations.length
  let noun := if count = 1 then "error" else "errors"
  "\n".intercalate
    (s!"{count} validation {noun} for CalculatorSettings" :: violations.map Violation.report)

end RationalCalculator.Settings
