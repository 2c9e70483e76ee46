import RationalCalculator.Text.CharSet

/-!
# Blank characters, stripping and words

A line is read as words divided by runs of blank characters. `strip` removes the blanks at
both ends; `words` lists the words. Every word is nonempty and free of blanks
(`ne_nil_of_mem_words`, `not_isBlank_of_mem_words`), a text without blanks is its own only
word (`words_of_forall_not_isBlank`), and a blank divides a line into the words before it and
the words after it (`words_append_blank`).
-/

namespace RationalCalculator.Text

/-- The blank characters: the white space of the Unicode standard and the four information
separators. -/
def blanks : CharSet where
  intervals :=
    [(0x09, 0x0D), (0x1C, 0x20), (0x85, 0x85), (0xA0, 0xA0), (0x1680, 0x1680), (0x2000, 0x200A),
      (0x2028, 0x2029), (0x202F, 0x202F), (0x205F, 0x205F), (0x3000, 0x3000)]

def isBlank (c : Char) : Bool := blanks.contains c

def stripEnd (cs : List Char) : List Char := (cs.reverse.dropWhile isBlank).reverse

def strip (cs : List Char) : List Char := stripEnd (cs.dropWhile isBlank)

/-- The words of a text. A word goes on as long as the next character is not a blank. -/
def words : List Char → List (List Char)
  | [] => []
  | c :: cs =>
    if isBlank c then words cs
    else if cs.head?.all isBlank then [c] :: words cs
    else match words cs with
      | [] => [[c]]
      | w :: ws => (c :: w) :: ws

def stripped (s : String) : String := String.ofList (strip s.toList)

def split (s : String) : List String := (words s.toList).map String.ofList

@[simp] theorem words_nil : words [] = [] := rfl

theorem words_cons_of_isBlank {c : Char} (cs : List Char) (h : isBlank c = true) :
    words (c :: cs) = words cs := by
  simp [words, h]

/-- A text that starts with a character other than a blank has a word. -/
theorem words_cons_ne_nil {c : Char} (cs : List Char) (h : isBlank c = false) :
    words (c :: cs) ≠ [] := by
  simp only [words, h, Bool.false_eq_true, ↓reduceIte]
  split
  · simp
  · split <;> simp

theorem ne_nil_of_mem_words {cs w : List Char} (h : w ∈ words cs) : w ≠ [] := by
  induction cs generalizing w with
  | nil => simp at h
  | cons c cs ih =>
    simp only [words] at h
    split at h
    · exact ih h
    split at h
    · rcases List.mem_cons.1 h with rfl | h
      · simp
      · exact ih h
    split at h
    · simp_all
    next hw =>
      rcases List.mem_cons.1 h with rfl | h
      · simp
      · exact ih (by rw [hw]; exact List.mem_cons_of_mem _ h)

theorem not_isBlank_of_mem_words {cs w : List Char} (h : w ∈ words cs) :
    ∀ c ∈ w, isBlank c = false := by
  induction cs generalizing w with
  | nil => simp at h
  | cons d cs ih =>
    simp only [words] at h
    split at h
    · exact ih h
    next hd =>
      have hd : isBlank d = false := by simpa using hd
      split at h
      · rcases List.mem_cons.1 h with rfl | h
        · simpa using hd
        · exact ih h
      split at h
      · simp_all
      next v vs hw =>
        rcases List.mem_cons.1 h with rfl | h
        · intro c hc
          rcases List.mem_cons.1 hc with rfl | hc
          · exact hd
          · exact ih (by rw [hw]; exact List.mem_cons_self) c hc
        · exact ih (by rw [hw]; exact List.mem_cons_of_mem _ h)

/-- A nonempty text without blanks is one word. -/
theorem words_of_forall_not_isBlank {cs : List Char} (hne : cs ≠ [])
    (h : ∀ c ∈ cs, isBlank c = false) : words cs = [cs] := by
  induction cs with
  | nil => exact absurd rfl hne
  | cons c cs ih =>
    have hc : isBlank c = false := h c List.mem_cons_self
    cases cs with
    | nil => simp [words, hc]
    | cons d ds =>
      have hd : isBlank d = false := h d (by simp)
      have hw := ih (by simp) (fun x hx => h x (List.mem_cons_of_mem _ hx))
      rw [words, hw]
      simp [hc, hd]

/-- A blank ends the word before it. -/
theorem words_append_blank (cs ds : List Char) {b : Char} (h : isBlank b = true) :
    words (cs ++ b :: ds) = words cs ++ words ds := by
  induction cs with
  | nil => simp [words_cons_of_isBlank _ h]
  | cons c cs ih =>
    by_cases hc : isBlank c = true
    · rw [List.cons_append, words_cons_of_isBlank _ hc, words_cons_of_isBlank _ hc, ih]
    · have hc : isBlank c = false := by simpa using hc
      rw [List.cons_append, words, words]
      simp only [hc, Bool.false_eq_true, ↓reduceIte]
      cases cs with
      | nil => simp [h, words_cons_of_isBlank _ h]
      | cons d cs =>
        rw [ih]
        simp only [List.cons_append, List.head?_cons, Option.all_some]
        by_cases hd : isBlank d = true
        · simp [hd]
        · have hd : isBlank d = false := by simpa using hd
          have hne := words_cons_ne_nil cs hd
          simp only [hd, Bool.false_eq_true, ↓reduceIte]
          cases hw : words (d :: cs) with
          | nil => exact absurd hw hne
          | cons w ws => rfl

end RationalCalculator.Text
