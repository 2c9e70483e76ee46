import RationalCalculator.Proofs.Expression.Correspondence

/-!
# The registers a line depends on

A reading asks the registers for the names among its tokens and for nothing else. Registers that
agree on these names therefore give the same reading, down to the token that is left over: what a
reading leaves is a suffix of its tokens, so its length says which one.

Names that hold nothing matter, too, since they are faults. But where there is a value there was a
tree without such a name, and so a value is kept by any registers that hold at least the same.
-/

namespace RationalCalculator

variable {registers registers' : Registers} {line : String}

/-- Every register that holds a value has the same value in the other registers. -/
def Registers.Within (registers registers' : Registers) : Prop :=
  ∀ c v, registers.get? c = some v → registers'.get? c = some v

/-- A token is worth the same to registers that agree on its name. -/
theorem Token.alike_of_agree {t : Token}
    (h : ∀ c, t = .register c → registers.get? c = registers'.get? c) :
    t.Alike registers registers' t where
  operator := rfl
  value := by
    cases t with
    | register c => rw [value, value, h c rfl]
    | operator op => rfl
    | fraction text v => rfl
    | integer text n => rfl
    | invalid text => rfl

namespace Reading

theorem rest_operand_suffix (registers : Registers) (t : Token) (rest : List Token) :
    (operand registers t rest).rest <:+ t :: rest := by
  simp only [operand]
  split
  · exact List.suffix_rfl
  · exact List.suffix_cons t rest

/-- A walk leaves the end of what it is given. -/
theorem rest_walk_suffix (part : Part) (registers : Registers) (p : Partial) (ts : List Token) :
    (walk part registers p ts).rest <:+ ts := by
  fun_induction walk part registers p ts with
  | case1 => exact List.suffix_rfl
  | case2 => exact List.suffix_rfl
  | case3 => exact List.nil_suffix
  | case4 p t op _ _ u rest _ _ =>
    exact (rest_operand_suffix registers u rest).trans (List.suffix_cons t (u :: rest))
  | case5 p t op _ _ u rest =>
    exact (List.suffix_cons u rest).trans (List.suffix_cons t (u :: rest))
  | case6 p t op _ _ u rest v _ q _ ih =>
    exact ih.trans ((List.suffix_cons u rest).trans (List.suffix_cons t (u :: rest)))
  | case7 => exact List.suffix_rfl

theorem rest_read_suffix (part : Part) (registers : Registers) (t : Token) (rest : List Token) :
    (read part registers t rest).rest <:+ t :: rest := by
  unfold read
  split
  · exact rest_operand_suffix registers t rest
  · exact (rest_walk_suffix part registers _ rest).trans (List.suffix_cons t rest)

/-- Two readings of the same tokens that are alike leave the same tokens. -/
theorem Alike.eq {r r' : Reading} {ts : List Token} (h : r.Alike registers registers' r')
    (hr : r.rest <:+ ts) (hr' : r'.rest <:+ ts) : r = r' := by
  have hrest : r.rest = r'.rest := by
    rw [List.suffix_iff_eq_drop.mp hr, List.suffix_iff_eq_drop.mp hr', h.rest.length_eq]
  obtain ⟨value, rest⟩ := r
  obtain ⟨value', rest'⟩ := r'
  rw [mk.injEq]
  exact ⟨h.value, hrest⟩

end Reading

/-- A line is evaluated alike by registers that agree on the names among its tokens. -/
theorem evaluate_of_agree
    (h : ∀ c, .register c ∈ Token.scan line → registers.get? c = registers'.get? c)
    (strict : Bool) : evaluate registers strict line = evaluate registers' strict line := by
  rw [evaluate, evaluate]
  generalize Token.scan line = ts at h
  cases ts with
  | nil => rfl
  | cons t rest =>
    obtain ⟨ht, hrest⟩ := List.forall_mem_cons.mp fun u hu =>
      Token.alike_of_agree fun c hc => h c (hc ▸ hu)
    have halike := Reading.alike_read ht (List.forall₂_same.mpr hrest) .expression
    have heq := halike.eq (Reading.rest_read_suffix .expression registers t rest)
      (Reading.rest_read_suffix .expression registers' t rest)
    simp only [heq]

theorem Atom.defined_of_within (h : registers.Within registers') {a : Atom}
    (hd : a.Defined registers) : a.Defined registers' ∧ a.value registers' = a.value registers := by
  cases a with
  | integer text n => exact ⟨trivial, rfl⟩
  | fraction text v => exact ⟨trivial, rfl⟩
  | register c =>
    obtain ⟨v, hv⟩ := hd
    refine ⟨⟨v, h c v hv⟩, ?_⟩
    rw [value, value, hv, h c v hv]

theorem Term.defined_of_within (h : registers.Within registers') {t : Term}
    (hd : t.Defined registers) : t.Defined registers' ∧ t.value registers' = t.value registers := by
  induction t with
  | atom a => exact Atom.defined_of_within h hd
  | times t a ih =>
    obtain ⟨htd, htv⟩ := ih hd.1
    obtain ⟨had, hav⟩ := Atom.defined_of_within h hd.2
    exact ⟨⟨htd, had⟩, congrArg₂ (· * ·) htv hav⟩
  | dividedBy t a ih =>
    obtain ⟨htd, htv⟩ := ih hd.1
    obtain ⟨had, hav⟩ := Atom.defined_of_within h hd.2.1
    exact ⟨⟨htd, had, hav ▸ hd.2.2⟩, congrArg₂ (· / ·) htv hav⟩

/-- A tree with a value keeps it when more registers hold something. -/
theorem Expression.defined_of_within (h : registers.Within registers') {e : Expression}
    (hd : e.Defined registers) : e.Defined registers' ∧ e.value registers' = e.value registers := by
  induction e with
  | term t => exact Term.defined_of_within h hd
  | plus e t ih =>
    obtain ⟨hed, hev⟩ := ih hd.1
    obtain ⟨htd, htv⟩ := Term.defined_of_within h hd.2
    exact ⟨⟨hed, htd⟩, congrArg₂ (· + ·) hev htv⟩
  | minus e t ih =>
    obtain ⟨hed, hev⟩ := ih hd.1
    obtain ⟨htd, htv⟩ := Term.defined_of_within h hd.2
    exact ⟨⟨hed, htd⟩, congrArg₂ (· - ·) hev htv⟩

theorem evaluate_of_within (h : registers.Within registers') {strict : Bool} {v : Fraction}
    (he : evaluate registers strict line = .ok v) : evaluate registers' strict line = .ok v := by
  rw [evaluate_eq_ok_iff] at he ⊢
  obtain ⟨e, r, hts, hstop, hr, hd, hv⟩ := he
  obtain ⟨hd', hvalue⟩ := Expression.defined_of_within h hd
  exact ⟨e, r, hts, hstop, hr, hd', hv.trans hvalue.symm⟩

end RationalCalculator
