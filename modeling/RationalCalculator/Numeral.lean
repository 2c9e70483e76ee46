import RationalCalculator.Text.Quoted

/-!
# Decimal numerals

A numeral is an optional sign followed by ASCII digits and nothing else. Neither reading nor
writing handles more than `digitLimit` digits: a longer numeral is refused with a count of its
digits (leading zeros counted, the sign not), a longer integer is refused outright.

Writing gives the shortest numeral, without a plus sign (`write_of_lt_pow`), and what is
written reads back as the same integer (`read_of_write`).
-/

namespace RationalCalculator

namespace Numeral

open Text

/-- The most digits of a numeral that is read or written. -/
def digitLimit : Nat := 4300

/-- Why a text is not read as an integer. -/
inductive ReadError where
  | malformed (text : String)
  /-- The text has this many digits, more than `digitLimit`. -/
  | tooManyDigits (count : Nat)
  deriving DecidableEq, Repr

/-- The refusal to write an integer of more than `digitLimit` digits. -/
inductive Overlong where
  | overlong
  deriving DecidableEq, Repr

/-- The advice that ends every message about the digit limit. -/
def limitAdvice : String := "use sys.set_int_max_str_digits() to increase the limit"

/-- The opening of every message about the digit limit. -/
def limitNotice : String :=
  s!"Exceeds the limit ({digitLimit} digits) for integer string conversion"

def ReadError.message : ReadError → String
  | .malformed text => s!"Invalid integer literal: {quote text}"
  | .tooManyDigits count => s!"{limitNotice}: value has {count} digits; {limitAdvice}"

def Overlong.message (_ : Overlong) : String := s!"{limitNotice}; {limitAdvice}"

/-- Is there a minus sign, and what follows the sign? -/
def splitSign : List Char → Bool × List Char
  | '-' :: ds => (true, ds)
  | '+' :: ds => (false, ds)
  | ds => (false, ds)

def isDigits (ds : List Char) : Bool := !ds.isEmpty && ds.all Char.isDigit

def ofDigits (negative : Bool) (ds : List Char) : Int :=
  let n : Nat := Nat.ofDigitChars 10 ds 0
  if negative then -n else n

def readChars (cs : List Char) : Except ReadError Int :=
  let (negative, ds) := splitSign cs
  if !isDigits ds then .error (.malformed (String.ofList cs))
  else if digitLimit < ds.length then .error (.tooManyDigits ds.length)
  else .ok (ofDigits negative ds)

def read (text : String) : Except ReadError Int := readChars text.toList

def isWritable (n : Int) : Bool := n.natAbs < Nat.pow 10 digitLimit

def write (n : Int) : Except Overlong String :=
  if isWritable n then .ok n.repr else .error .overlong

/-- An integer is writable exactly if its digits are within the limit. -/
theorem isWritable_iff (n : Int) :
    isWritable n = true ↔ (Nat.toDigits 10 n.natAbs).length ≤ digitLimit := by
  rw [Nat.length_toDigits_le_iff (by decide) (by decide)]
  simp only [isWritable, decide_eq_true_eq, Nat.pow_eq]

theorem write_eq_ok_iff (n : Int) (s : String) :
    write n = .ok s ↔ isWritable n = true ∧ n.repr = s := by
  simp only [write]
  split <;> simp_all

/-- An integer below a power of ten within the limit is written out. -/
theorem write_of_lt_pow {n : Int} {k : Nat} (h : n.natAbs < Nat.pow 10 k)
    (hk : k ≤ digitLimit) : write n = .ok n.repr := by
  rw [write_eq_ok_iff]
  refine ⟨?_, rfl⟩
  simp only [isWritable, decide_eq_true_eq, Nat.pow_eq] at h ⊢
  exact Nat.lt_of_lt_of_le h (Nat.pow_le_pow_right (by decide) hk)

theorem toList_repr_of_nonneg (n : Nat) : (n : Int).repr.toList = Nat.toDigits 10 n := by
  simp [Int.repr, Nat.toList_repr]

theorem toList_repr_of_neg (n : Nat) :
    (Int.negSucc n).repr.toList = '-' :: Nat.toDigits 10 (n + 1) := by
  simp [Int.repr, Nat.toList_repr]

theorem isDigits_toDigits (n : Nat) : isDigits (Nat.toDigits 10 n) = true := by
  simp only [isDigits, Bool.and_eq_true, Bool.not_eq_true', List.isEmpty_eq_false_iff,
    List.all_eq_true]
  exact ⟨Nat.toDigits_ne_nil, fun c hc => Nat.isDigit_of_mem_toDigits (by decide) (by decide) hc⟩

theorem splitSign_of_isDigits {ds : List Char} (h : isDigits ds = true) :
    splitSign ds = (false, ds) := by
  unfold splitSign
  split
  · exact absurd h (by simp [isDigits])
  · exact absurd h (by simp [isDigits])
  · rfl

theorem readChars_of_isDigits {ds : List Char} (h : isDigits ds = true)
    (hl : ds.length ≤ digitLimit) : readChars ds = .ok (Nat.ofDigitChars 10 ds 0 : Nat) := by
  simp [readChars, splitSign_of_isDigits h, h, ofDigits, Nat.not_lt.2 hl]

theorem readChars_minus_of_isDigits {ds : List Char} (h : isDigits ds = true)
    (hl : ds.length ≤ digitLimit) :
    readChars ('-' :: ds) = .ok (-(Nat.ofDigitChars 10 ds 0 : Nat)) := by
  simp [readChars, splitSign, h, ofDigits, Nat.not_lt.2 hl]

/-- What is written reads back as the same integer. -/
theorem read_of_write {n : Int} {s : String} (h : write n = .ok s) : read s = .ok n := by
  obtain ⟨hw, rfl⟩ := (write_eq_ok_iff n s).1 h
  have hlen := (isWritable_iff n).1 hw
  cases n with
  | ofNat m =>
    rw [read, show (Int.ofNat m).repr.toList = _ from toList_repr_of_nonneg m,
      readChars_of_isDigits (isDigits_toDigits m) hlen, Nat.ofDigitChars_ten_toDigits]
    rfl
  | negSucc m =>
    rw [read, toList_repr_of_neg, readChars_minus_of_isDigits (isDigits_toDigits (m + 1)) hlen,
      Nat.ofDigitChars_ten_toDigits]
    rfl

end Numeral

end RationalCalculator
