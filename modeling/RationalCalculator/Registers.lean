import RationalCalculator.Fraction.Basic

/-!
# Registers

A register is named by a single character. The registers that hold a value are listed in the
order of their names, each once, so two sets of registers that answer every `get?` alike are
equal (`ext_get?`). `get?_set` says what a store does.
-/

namespace RationalCalculator

/-- Named values, in the order of their names. -/
structure Registers where
  entries : List (Char × Fraction)
  sorted : entries.Pairwise (fun a b => a.1 < b.1)
  deriving DecidableEq

namespace Registers

def lookup (name : Char) : List (Char × Fraction) → Option Fraction
  | [] => none
  | e :: es => if e.1 = name then some e.2 else lookup name es

/-- Put a value in its place among sorted entries. -/
def insert (name : Char) (value : Fraction) : List (Char × Fraction) → List (Char × Fraction)
  | [] => [(name, value)]
  | e :: es =>
    if name < e.1 then (name, value) :: e :: es
    else if e.1 = name then (name, value) :: es
    else e :: insert name value es

theorem fst_mem_insert {name : Char} {value : Fraction} {es : List (Char × Fraction)}
    {e : Char × Fraction} (h : e ∈ insert name value es) : e.1 = name ∨ e ∈ es := by
  induction es with
  | nil => simp_all [insert]
  | cons d es ih =>
    simp only [insert] at h
    split at h
    · rcases List.mem_cons.1 h with rfl | h
      · exact .inl rfl
      · exact .inr h
    split at h
    · rcases List.mem_cons.1 h with rfl | h
      · exact .inl rfl
      · exact .inr (List.mem_cons_of_mem _ h)
    · rcases List.mem_cons.1 h with rfl | h
      · exact .inr List.mem_cons_self
      · exact (ih h).imp_right (List.mem_cons_of_mem _)

theorem lt_of_not_lt_of_ne {a b : Char} (h : ¬a < b) (hne : b ≠ a) : b < a := by
  rcases Nat.lt_trichotomy a.toNat b.toNat with hl | he | hg
  · exact absurd hl h
  · exact absurd (Char.toNat_inj.1 he.symm) hne
  · exact hg

theorem pairwise_insert (name : Char) (value : Fraction) {es : List (Char × Fraction)}
    (h : es.Pairwise (fun a b => a.1 < b.1)) :
    (insert name value es).Pairwise (fun a b => a.1 < b.1) := by
  induction es with
  | nil => simp [insert]
  | cons d es ih =>
    obtain ⟨hd, hes⟩ := List.pairwise_cons.1 h
    simp only [insert]
    split
    next hlt =>
      refine List.pairwise_cons.2 ⟨fun e he => ?_, h⟩
      rcases List.mem_cons.1 he with rfl | he
      · exact hlt
      · exact Nat.lt_trans hlt (hd e he)
    split
    next he =>
      exact List.pairwise_cons.2 ⟨fun e hm => he ▸ hd e hm, hes⟩
    next hge hne =>
      refine List.pairwise_cons.2 ⟨fun e he => ?_, ih hes⟩
      rcases fst_mem_insert he with heq | he
      · rw [heq]
        exact lt_of_not_lt_of_ne hge hne
      · exact hd e he

theorem lookup_insert (name c : Char) (value : Fraction) (es : List (Char × Fraction)) :
    lookup c (insert name value es) = if name = c then some value else lookup c es := by
  induction es with
  | nil => simp [insert, lookup]
  | cons d es ih =>
    simp only [insert]
    split
    · simp [lookup]
    split
    next he =>
      by_cases h : name = c <;> simp [lookup, h, he]
    next he =>
      simp only [lookup, ih]
      by_cases h : d.1 = c
      · have : name ≠ c := fun hn => he (h.trans hn.symm)
        simp [h, this]
      · simp [h]

def empty : Registers := ⟨[], .nil⟩

instance : Inhabited Registers := ⟨empty⟩

def get? (r : Registers) (name : Char) : Option Fraction := lookup name r.entries

def set (r : Registers) (name : Char) (value : Fraction) : Registers :=
  ⟨insert name value r.entries, pairwise_insert name value r.sorted⟩

/-- The registers with the given values; the last value of a name counts. -/
def ofList (es : List (Char × Fraction)) : Registers :=
  es.foldl (fun r e => r.set e.1 e.2) empty

def size (r : Registers) : Nat := r.entries.length

/-- The number of entries of a copy of the registers after something has been put under `key`,
which need not be the name of a register. -/
def sizeWith (r : Registers) (key : String) : Nat :=
  match key.toList with
  | [c] => if (r.get? c).isSome then r.size else r.size + 1
  | _ => r.size + 1

@[simp] theorem get?_empty (c : Char) : empty.get? c = none := rfl

theorem get?_set (r : Registers) (name c : Char) (value : Fraction) :
    (r.set name value).get? c = if name = c then some value else r.get? c :=
  lookup_insert name c value r.entries

theorem lookup_eq_none_of_lt {c : Char} {es : List (Char × Fraction)}
    (h : ∀ e ∈ es, c < e.1) : lookup c es = none := by
  induction es with
  | nil => rfl
  | cons d es ih =>
    have hd : d.1 ≠ c := fun he => Nat.lt_irrefl _ (he ▸ h d List.mem_cons_self)
    rw [lookup, if_neg hd]
    exact ih fun e he => h e (List.mem_cons_of_mem _ he)

theorem eq_of_lookup_eq {as bs : List (Char × Fraction)}
    (ha : as.Pairwise (fun a b => a.1 < b.1)) (hb : bs.Pairwise (fun a b => a.1 < b.1))
    (h : ∀ c, lookup c as = lookup c bs) : as = bs := by
  induction as generalizing bs with
  | nil =>
    cases bs with
    | nil => rfl
    | cons b bs => simpa [lookup] using h b.1
  | cons a as ih =>
    obtain ⟨ha', has⟩ := List.pairwise_cons.1 ha
    cases bs with
    | nil => simpa [lookup] using h a.1
    | cons b bs =>
      obtain ⟨hb', hbs⟩ := List.pairwise_cons.1 hb
      have hab : a.1 = b.1 := by
        rcases Nat.lt_trichotomy a.1.toNat b.1.toNat with hl | he | hg
        · have hn : lookup a.1 (b :: bs) = none := lookup_eq_none_of_lt fun e he => by
            rcases List.mem_cons.1 he with rfl | he
            · exact hl
            · exact Nat.lt_trans hl (hb' e he)
          rw [← h, lookup, if_pos rfl] at hn
          contradiction
        · exact Char.toNat_inj.1 he
        · have hn : lookup b.1 (a :: as) = none := lookup_eq_none_of_lt fun e he => by
            rcases List.mem_cons.1 he with rfl | he
            · exact hg
            · exact Nat.lt_trans hg (ha' e he)
          rw [h, lookup, if_pos rfl] at hn
          contradiction
      have hv : a.2 = b.2 := by
        have := h a.1
        rw [lookup, if_pos rfl, lookup, if_pos hab.symm] at this
        exact Option.some.inj this
      have htail : as = bs := ih has hbs fun c => by
        by_cases hc : a.1 = c
        · rw [lookup_eq_none_of_lt (hc ▸ ha'), lookup_eq_none_of_lt (hc ▸ hab ▸ hb')]
        · have := h c
          rwa [lookup, if_neg hc, lookup, if_neg (hab ▸ hc)] at this
      rw [htail, Prod.ext hab hv]

/-- Registers that answer alike are equal. -/
theorem ext_get? {r s : Registers} (h : ∀ c, r.get? c = s.get? c) : r = s := by
  obtain ⟨es, hes⟩ := r
  obtain ⟨fs, hfs⟩ := s
  congr
  exact eq_of_lookup_eq hes hfs h

end Registers

end RationalCalculator
