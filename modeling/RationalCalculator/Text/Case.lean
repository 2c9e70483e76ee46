import RationalCalculator.Text.Blank

/-!
# Capital and small letters

Names of log levels, flags and commands are written in ASCII letters and are recognised in
either case. `capital` and `small` map every character whose capital or small form is a single
ASCII letter and leave all others alone, which is enough to compare a text with such a name.
-/

namespace RationalCalculator.Text

/-- The capital of `c`. Besides the ASCII letters, the dotless i and the long s have ASCII
capitals. -/
def capital (c : Char) : Char :=
  if c = 'ı' then 'I' else if c = 'ſ' then 'S' else c.toUpper

/-- The small form of `c`. Besides the ASCII letters, the Kelvin sign has an ASCII small form. -/
def small (c : Char) : Char :=
  if c = '\u212A' then 'k' else c.toLower

def capitals (s : String) : String := String.ofList (s.toList.map capital)

def smalls (s : String) : String := String.ofList (s.toList.map small)

end RationalCalculator.Text
