import RationalCalculator.Proofs.CommandLine.Order

/-!
# Literals on a command line

A literal names no switch, so it is kept wherever it is put between the arguments of a command line,
unless a switch waits for its value there. The rest of the command line is read as before, and the
literal is listed at its place if it does not look like a switch. With a minus sign in front it is
only told from a switch if it is a plain number. So the literals that are refused are those with a
plus sign behind the slash as well.
-/

namespace RationalCalculator

/-- What follows the minus sign of a numeral is digits. -/
theorem Numeral.isDigits_of_readChars_minus {ds : List Char} {n : Int}
    (h : readChars ('-' :: ds) = .ok n) : isDigits ds = true :=
  ((readChars_eq_ok_iff ('-' :: ds) n).mp h).1

/-- What follows the minus sign of a literal starts with a digit. -/
theorem Token.exists_digit_of_literal?_minus {word : String} {v : Fraction} {cs : List Char}
    (h : (ofWord word).literal? = some v) (hword : word.toList = '-' :: cs) :
    ∃ d ds, cs = d :: ds ∧ d.isDigit = true := by
  have hstart {ds : List Char} {n : Int} (hds : Numeral.readChars ('-' :: ds) = .ok n) :
      ∃ d rest, ds = d :: rest ∧ d.isDigit = true := by
    obtain ⟨hne, hdigit⟩ := (Numeral.isDigits_iff ds).mp (Numeral.isDigits_of_readChars_minus hds)
    obtain ⟨d, rest, rfl⟩ := List.exists_cons_of_ne_nil hne
    exact ⟨d, rest, rfl, hdigit d List.mem_cons_self⟩
  rcases (literal?_ofWord_iff word v).mp h with h | ⟨n, h, -⟩
  · obtain ⟨num, den, hs, -, hv⟩ := (Fraction.parse_eq_ok_iff word v).mp h
    obtain ⟨n, d, hn, -⟩ := (Fraction.ofNumerals_eq_ok_iff word num den v).mp hv
    obtain ⟨m, ms, rfl⟩ := List.exists_cons_of_ne_nil (Numeral.ne_nil_of_readChars hn)
    obtain ⟨rfl, rfl⟩ := List.cons.inj (hs.symm.trans hword)
    obtain ⟨d, rest, rfl, hd⟩ := hstart hn
    exact ⟨d, rest ++ '/' :: den, rfl, hd⟩
  · rw [Numeral.read, hword] at h
    exact hstart h

namespace CommandLine

variable {release : Release} {before after xs ys ks ls : List String} {a text : String}
  {v : Fraction} {flags f g : Settings.Flags} {line : CommandLine}

namespace Argument

theorem prefix_of_ofName? {name : String} {given : Option String} {a : Argument}
    (h : ofName? name given = some a) :
    ['-', '-'] <+: name.toList ∨ ['-', 'h'] <+: name.toList := by
  rw [ofName?] at h
  split at h
  next hname =>
    rw [hname]
    exact .inr List.prefix_rfl
  next =>
    obtain ⟨s, hs, -⟩ := Option.map_eq_some_iff.mp h
    rw [(Switch.ofName?_eq_some_iff name s).mp hs]
    exact .inl s.hyphens_prefix_name

theorem prefix_of_named? {a : Argument} (h : named? text = some a) :
    ['-', '-'] <+: text.toList ∨ ['-', 'h'] <+: text.toList := by
  unfold named? at h
  split at h
  next b hb => exact prefix_of_ofName? hb
  next name given hno hsplit =>
    obtain ⟨htext, -⟩ := (splitValue_eq_iff _ _ _).mp hsplit
    have hname := prefix_of_ofName? h
    rw [String.toList_ofList] at hname
    have hfront : name <+: text.toList := htext ▸ List.prefix_append _ _
    exact hname.imp (·.trans hfront) (·.trans hfront)
  next => contradiction

end Argument

/-- Only what starts with two hyphens or like the short name of `help` can be anything but itself. -/
theorem isKept_of_not_prefix (hlong : ¬ ['-', '-'] <+: text.toList)
    (hshort : ¬ ['-', 'h'] <+: text.toList) : IsKept text := by
  have hnone : Argument.named? text = none := by
    rw [Option.eq_none_iff_forall_ne_some]
    intro b hb
    exact (Argument.prefix_of_named? hb).elim hlong hshort
  rw [IsKept, Argument.ofText, hnone]
  split
  next => contradiction
  next rest _ htext => exact absurd ⟨rest, htext.symm⟩ hlong
  next =>
    rw [Argument.ofShort]
    split
    next more hmore => exact absurd ⟨more, hmore.symm⟩ hshort
    next =>
      unfold Argument.unnamed
      split
      · exact .inl rfl
      · exact .inr rfl
  next => exact .inl rfl

theorem IsKept.ne_separator (h : IsKept text) : text ≠ separator := by
  rintro rfl
  rcases h with h | h <;> exact absurd h (by decide)

theorem isKept_of_literal? (ha : (Token.ofWord a).literal? = some v) : IsKept a := by
  refine isKept_of_not_prefix ?_ ?_
  · rintro ⟨rest, hrest⟩
    obtain ⟨d, ds, hd, hdigit⟩ := Token.exists_digit_of_literal?_minus ha hrest.symm
    obtain ⟨rfl, -⟩ := List.cons.inj hd
    contradiction
  · rintro ⟨rest, hrest⟩
    obtain ⟨d, ds, hd, hdigit⟩ := Token.exists_digit_of_literal?_minus ha hrest.symm
    obtain ⟨rfl, -⟩ := List.cons.inj hd
    contradiction

/-- A minus sign in front and a plus sign, which in a literal stands behind the slash. -/
def HasBothSigns (word : String) : Prop := word.toList.head? = some '-' ∧ '+' ∈ word.toList

theorem switchLike_iff_of_literal? (ha : (Token.ofWord a).literal? = some v) :
    SwitchLike a ↔ HasBothSigns a := by
  have hplain : ¬ IsPlain a.toList ↔ '+' ∈ a.toList := by
    rw [← isPlainNumber_iff, Token.isPlainNumber_of_literal?_iff ha, not_not]
  have hspace : ' ' ∉ a.toList := by
    intro hmem
    rcases Token.mem_of_literal? ha hmem with h | h | h | h <;> contradiction
  rw [SwitchLike, hplain, HasBothSigns]
  constructor
  · rintro ⟨⟨c, cs, hcs⟩, -, hplus⟩
    exact ⟨by rw [hcs, List.head?_cons], hplus⟩
  · rintro ⟨hhead, hplus⟩
    obtain ⟨cs, hcs⟩ := List.head?_eq_some_iff.mp hhead
    obtain ⟨d, ds, rfl, -⟩ := Token.exists_digit_of_literal?_minus ha hcs
    exact ⟨⟨d, ds, hcs⟩, hspace, hplus⟩

/-- What is taken after other arguments starts from the flags that they set. -/
theorem Taken.append (hxs : Taken release flags xs ks f) (hys : Taken release f ys ls g) :
    Taken release flags (xs ++ ys) (ks ++ ls) g := by
  induction hxs with
  | nil => exact hys
  | kept ht _ ih => exact .kept ht (ih hys)
  | strict ht _ ih => exact .strict ht (ih hys)
  | approx ht _ ih => exact .approx ht (ih hys)
  | attached ht _ ih => exact .attached ht (ih hys)
  | separate ht hvalue _ ih => exact .separate ht hvalue (ih hys)

/-- What is read as itself can be put anywhere in front of the separator but in the place of a
value. All else is taken as before. -/
theorem exists_read_insert_front (ha : IsKept a) (hbefore : separator ∉ before)
    (h : read release (before ++ after) = .ok line) (hplace : ¬ Waits before) :
    ∃ ks ls, Takes before ks ∧ line.expressions = ks ++ ls ∧
      read release (before ++ a :: after) = ofKept line.flags (ks ++ a :: ls) := by
  obtain ⟨mid, tail, behind, rfl, hmid, htail⟩ := exists_behind after
  have hfront : separator ∉ before ++ mid := by simp [hbefore, hmid]
  have hfront' : separator ∉ before ++ a :: mid := by simp [hbefore, hmid, ha.ne_separator.symm]
  rw [← List.append_assoc] at h
  obtain ⟨kept, htakes, -⟩ := (exists_read_iff hfront htail line.expressions).mp ⟨line.flags, h⟩
  obtain ⟨ks, ls, hks, hls, rfl⟩ | ⟨hwaits, -⟩ := htakes.split
  · obtain ⟨f, hf⟩ := hks.exists_taken release .none
    obtain ⟨g, hg⟩ := hls.exists_taken release f
    have hread := read_of_taken hfront htail (hf.append hg)
    have hread' := read_of_taken hfront' htail (hf.append (.kept ha hg))
    obtain ⟨rfl, -⟩ := (ofKept_eq_ok_iff _ _ _).mp (hread.symm.trans h)
    refine ⟨ks, ls ++ behind, hks, List.append_assoc .., ?_⟩
    simpa only [List.append_assoc, List.cons_append] using hread'
  · exact absurd hwaits hplace

/-- The same for any place, and behind the separator too. -/
theorem exists_read_insert (ha : IsKept a) (h : read release (before ++ after) = .ok line)
    (hplace : ¬ Waits before) :
    ∃ ks ls, Leaves before ks ∧ line.expressions = ks ++ ls ∧
      read release (before ++ a :: after) = ofKept line.flags (ks ++ a :: ls) := by
  obtain ⟨front, tail, back, rfl, hfront, htail⟩ := exists_behind before
  cases htail with
  | nothing =>
    rw [List.append_nil] at h hplace ⊢
    obtain ⟨ks, ls, hks, hexpressions, hread⟩ := exists_read_insert_front ha hfront h hplace
    have hleaves := leaves_iff hks hfront .nothing ks
    rw [List.append_nil, List.append_nil] at hleaves
    exact ⟨ks, ls, hleaves.mpr rfl, hexpressions, hread⟩
  | separator =>
    rw [List.append_assoc, List.cons_append] at h ⊢
    obtain ⟨kept, htaken, hkept, -⟩ := exists_taken_of_read hfront (.separator _) h
    have hread := read_of_taken hfront (.separator (back ++ a :: after)) htaken
    have hleaves := (leaves_iff htaken.takes hfront (.separator back) (kept ++ back)).mpr rfl
    refine ⟨kept ++ back, after, hleaves, by rw [hkept, List.append_assoc], ?_⟩
    rw [List.append_assoc, hread]

/-- A literal between the arguments of a command line is listed at its place, with all else as
before, unless it has both signs. Then it is refused, and nothing else is. -/
theorem literal_listed_unless_both_signs (ha : (Token.ofWord a).literal? = some v)
    (h : read release (before ++ after) = .ok line) (hplace : ¬ Waits before) :
    ∃ ks ls, Leaves before ks ∧ line.expressions = ks ++ ls ∧
      (¬ HasBothSigns a →
        read release (before ++ a :: after) = .ok ⟨line.flags, ks ++ a :: ls⟩) ∧
      (HasBothSigns a →
        read release (before ++ a :: after) = .error (.misuse (.unrecognized [a]))) := by
  obtain ⟨ks, ls, hleaves, hexpressions, hread⟩ :=
    exists_read_insert (isKept_of_literal? ha) h hplace
  have hothers := not_switchLike_of_read h
  rw [hexpressions] at hothers
  have hks : ∀ text ∈ ks, ¬ SwitchLike text := fun text hmem =>
    hothers text (List.mem_append_left _ hmem)
  have hls : ∀ text ∈ ls, ¬ SwitchLike text := fun text hmem =>
    hothers text (List.mem_append_right _ hmem)
  refine ⟨ks, ls, hleaves, hexpressions, ?_, ?_⟩
  · intro hsigns
    rw [← switchLike_iff_of_literal? ha] at hsigns
    rw [hread, ofKept_eq_ok_iff]
    refine ⟨rfl, fun text hmem => ?_⟩
    rcases List.mem_append.mp hmem with hmem | hmem
    · exact hks text hmem
    rcases List.mem_cons.mp hmem with rfl | hmem
    · exact hsigns
    · exact hls text hmem
  · intro hsigns
    rw [← switchLike_iff_of_literal? ha] at hsigns
    have hfilter : (ks ++ a :: ls).filter (SwitchLike ·) = [a] := by
      rw [List.filter_append, List.filter_cons_of_pos (by simpa using hsigns),
        List.filter_eq_nil_iff.mpr (by simpa using hks),
        List.filter_eq_nil_iff.mpr (by simpa using hls), List.nil_append]
    rw [hread, ofKept_of_exists _ ⟨a, by simp, hsigns⟩, hfilter]

/-- A negative fraction behind a switch and a number, and the same fraction with a sign too many. -/
theorem literal_listed_unless_both_signs_at :
    read .later ["--strict", "1", "-1/2", "STOREa", "--", "-3 * 2"]
      = .ok ⟨⟨true, false, ""⟩, ["1", "-1/2", "STOREa", "-3 * 2"]⟩ ∧
    read .later ["--strict", "1", "-1/+2", "STOREa", "--", "-3 * 2"]
      = .error (.misuse (.unrecognized ["-1/+2"])) := by
  have hliteral : (Token.ofWord "-1/2").literal? = some (.ofRatio (-1) 2 (by decide)) := by
    decide +kernel
  have hsigned : (Token.ofWord "-1/+2").literal? = some (.ofRatio (-1) 2 (by decide)) := by
    decide +kernel
  have h : read .later (["--strict", "1"] ++ ["STOREa", "--", "-3 * 2"])
      = .ok ⟨⟨true, false, ""⟩, ["1", "STOREa", "-3 * 2"]⟩ := by decide +kernel
  have hplace : ¬ Waits ["--strict", "1"] := by
    rintro ⟨w, hw, hnamed⟩
    obtain rfl := Option.some.inj hw
    exact absurd (Argument.ofText_of_named hnamed) (by decide +kernel)
  have htakes : Takes ["--strict", "1"] ["1"] :=
    .alone (.strict ((Argument.ofText_eq_switch_iff _ _ _).mp (by decide +kernel)))
      (.kept (.inl (by decide +kernel)) .nil)
  have hleaves (ks : List String) : Leaves ["--strict", "1"] ks ↔ ks = ["1"] :=
    leaves_iff htakes (by decide +kernel) .nothing ks
  obtain ⟨ks, ls, hks, hls, hlisted, -⟩ := literal_listed_unless_both_signs hliteral h hplace
  obtain rfl := (hleaves ks).mp hks
  obtain rfl : ls = ["STOREa", "-3 * 2"] := (List.cons.inj hls).2.symm
  obtain ⟨ks', ls', hks', hls', -, hrefused⟩ := literal_listed_unless_both_signs hsigned h hplace
  obtain rfl := (hleaves ks').mp hks'
  exact ⟨hlisted (by rw [HasBothSigns]; decide), hrefused (by rw [HasBothSigns]; decide)⟩

/-- A fraction with a minus sign and a plus sign is a literal with a value, and is refused. -/
theorem literal_with_both_signs_is_refused :
    (Token.ofWord "-1/+2").literal? = some (.ofRatio (-1) 2 (by decide)) ∧
    read .later [] = .ok ⟨.none, []⟩ ∧
    read .later ["-1/+2"] = .error (.misuse (.unrecognized ["-1/+2"])) := by
  decide +kernel

end CommandLine

end RationalCalculator
