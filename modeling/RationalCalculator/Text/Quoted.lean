import RationalCalculator.Text.Unprintable

/-!
# Quoted texts

`quote` writes a text between quotes so that it fits on one line. The quotes are single unless
the text has a single quote and no double one. A backslash and the quote in use are marked by a
backslash, line feeds, carriage returns and tabs have short escapes, and every other
unprintable character is written by its code point in two, four or eight hexadecimal digits.
-/

namespace RationalCalculator.Text

/-- The number `n` in at least `width` hexadecimal digits. -/
def hexadecimal (width n : Nat) : List Char :=
  let ds := Nat.toDigits 16 n
  List.replicate (width - ds.length) '0' ++ ds

/-- The quote that encloses a text. -/
def enclosingQuote (cs : List Char) : Char :=
  if '\'' ∈ cs ∧ '"' ∉ cs then '"' else '\''

/-- One character of a text that is enclosed in the quote `q`. -/
def escape (q c : Char) : List Char :=
  if c = '\\' ∨ c = q then ['\\', c]
  else if c = '\n' then ['\\', 'n']
  else if c = '\r' then ['\\', 'r']
  else if c = '\t' then ['\\', 't']
  else if isPrintable c then [c]
  else if c.toNat < 0x100 then '\\' :: 'x' :: hexadecimal 2 c.toNat
  else if c.toNat < 0x10000 then '\\' :: 'u' :: hexadecimal 4 c.toNat
  else '\\' :: 'U' :: hexadecimal 8 c.toNat

def quote (s : String) : String :=
  let q := enclosingQuote s.toList
  String.ofList (q :: s.toList.flatMap (escape q) ++ [q])

end RationalCalculator.Text
