import RationalCalculator.Expression.Token

/-!
# Joining words

Words joined by single spaces split into the same words again. So every initial part of a line's
tokens is itself the tokens of a line, and a statement about part of a line is a statement about
a line.
-/

namespace RationalCalculator

namespace Text

/-- The words as one line, with a space between neighbours. -/
def join (ws : List String) : String := " ".intercalate ws

/-- A text that is neither empty nor divided by blanks. -/
def IsWord (w : String) : Prop := w ≠ "" ∧ ∀ c ∈ w.toList, isBlank c = false

theorem isWord_of_mem_split {line w : String} (h : w ∈ split line) : IsWord w := by
  obtain ⟨cs, hcs, rfl⟩ := List.mem_map.mp h
  refine ⟨?_, ?_⟩
  · intro he
    rw [String.ofList_eq_empty_iff] at he
    exact ne_nil_of_mem_words hcs he
  · rw [String.toList_ofList]
    exact not_isBlank_of_mem_words hcs

theorem split_of_isWord {w : String} (h : IsWord w) : split w = [w] := by
  have hne : w.toList ≠ [] := by
    rw [Ne, String.toList_eq_nil_iff]
    exact h.1
  rw [split, words_of_forall_not_isBlank hne h.2, List.map_singleton, String.ofList_toList]

/-- A space between two texts divides their words. -/
theorem split_append_space (s t : String) : split (s ++ " " ++ t) = split s ++ split t := by
  have hs : isBlank ' ' = true := by decide
  have hl : (s ++ " " ++ t).toList = s.toList ++ ' ' :: t.toList := by
    rw [String.toList_append, String.toList_append, List.append_assoc]
    rfl
  rw [split, hl, words_append_blank _ _ hs, List.map_append, split, split]

theorem split_join {ws : List String} (h : ∀ w ∈ ws, IsWord w) : split (join ws) = ws := by
  induction ws with
  | nil => rfl
  | cons w ws ih =>
    have hw := split_of_isWord (h w List.mem_cons_self)
    cases ws with
    | nil => rw [join, String.intercalate_singleton, hw]
    | cons v vs =>
      have hrest := ih fun u hu => h u (List.mem_cons_of_mem _ hu)
      rw [join, String.intercalate_cons_cons, split_append_space, hw, ← join, hrest,
        List.singleton_append]

end Text

namespace Token

theorem scan_join {ws : List String} {line : String} (h : ∀ w ∈ ws, w ∈ Text.split line) :
    scan (Text.join ws) = ws.map ofWord := by
  rw [scan, Text.split_join fun w hw => Text.isWord_of_mem_split (h w hw)]

/-- The line of the first `j` tokens. -/
def front (line : String) (j : Nat) : String := Text.join ((Text.split line).take j)

theorem scan_front (line : String) (j : Nat) : scan (front line j) = (scan line).take j := by
  rw [front, scan_join fun _ => List.mem_of_mem_take, List.map_take, scan]

end Token

end RationalCalculator
