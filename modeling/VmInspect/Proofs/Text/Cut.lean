import VmInspect.Text.Cut

/-!
# Where texts are cut

A boundary of a text lies behind one of its beginnings, so looking for the last boundary up to a place is
looking for the longest beginning that ends there or before, and looking for the first boundary from a place
on is looking for the longest ending that starts there or behind.  Zero and the size of the text are
boundaries, so neither search runs past an end of the text:

* `Text.byteSize_toList`, `Text.isBoundary_iff_isValid` — sizes and boundaries are those of the UTF-8 form.
* `Text.floorBoundary?_exact`, `Text.ceilBoundary?_exact` — the boundary that each search finds.
* `Text.takeBytes?_longest`, `Text.takeRightBytes?_longest` — the beginning, and the ending, that a cut keeps.
-/

namespace VmInspect

namespace Text

variable {cs p q : List Char} {i limit : Nat}

/-! ## Sizes -/

theorem byteSize_eq (cs : List Char) : byteSize cs = (String.ofList cs).utf8ByteSize := by
  induction cs with
  | nil => rfl
  | cons c cs ih =>
    have hsplit : String.ofList (c :: cs) = String.singleton c ++ String.ofList cs := by
      rw [String.singleton_eq_ofList, ← String.ofList_append]
      rfl
    rw [byteSize_cons, ih, hsplit, String.utf8ByteSize_append, String.utf8ByteSize_singleton]

/-- The size of a text is that of its UTF-8 form. -/
theorem byteSize_toList (s : String) : byteSize s.toList = s.utf8ByteSize := by
  rw [byteSize_eq, String.ofList_toList]

theorem byteSize_le_of_isPrefix (h : p <+: q) : byteSize p ≤ byteSize q := by
  obtain ⟨rest, rfl⟩ := h
  rw [byteSize_append]
  exact Nat.le_add_right _ _

/-- What is left of a text after all its bytes is nothing. -/
theorem eq_nil_of_byteSize (h : byteSize cs = 0) : cs = [] := by
  cases cs with
  | nil => rfl
  | cons c cs =>
    have hpos := c.utf8Size_pos
    rw [byteSize_cons] at h
    omega

/-- Of two beginnings of a text the one with fewer bytes is a beginning of the other. -/
theorem isPrefix_of_byteSize_le (hp : p <+: cs) (hq : q <+: cs) (h : byteSize p ≤ byteSize q) :
    p <+: q := by
  rcases List.prefix_or_prefix_of_prefix hp hq with hpq | ⟨rest, rfl⟩
  · exact hpq
  · have hrest : rest = [] := by
      rw [byteSize_append] at h
      exact eq_nil_of_byteSize (by omega)
    exact ⟨[], by rw [hrest, List.append_nil, List.append_nil]⟩

/-! ## Boundaries -/

@[simp] theorem isBoundary_zero (cs : List Char) : isBoundary cs 0 = true := by
  cases cs with
  | nil => rfl
  | cons c cs => rfl

/-- A boundary lies behind a beginning of the text. -/
theorem isBoundary_iff : isBoundary cs i = true ↔ ∃ p, p <+: cs ∧ byteSize p = i := by
  induction cs generalizing i with
  | nil =>
    cases i with
    | zero => exact iff_of_true rfl ⟨[], List.prefix_refl [], rfl⟩
    | succ i =>
      refine iff_of_false Bool.false_ne_true ?_
      rintro ⟨p, hp, hsize⟩
      rw [List.prefix_nil.1 hp] at hsize
      cases hsize
  | cons c cs ih =>
    cases i with
    | zero => exact iff_of_true rfl ⟨[], List.nil_prefix, rfl⟩
    | succ i =>
      rw [isBoundary, Bool.and_eq_true, decide_eq_true_eq, ih]
      constructor
      · rintro ⟨hle, p, hp, hsize⟩
        refine ⟨c :: p, List.cons_prefix_cons.2 ⟨rfl, hp⟩, ?_⟩
        rw [byteSize_cons, hsize]
        omega
      · rintro ⟨p, hp, hsize⟩
        cases p with
        | nil => cases hsize
        | cons d p =>
          obtain ⟨rfl, hrest⟩ := List.cons_prefix_cons.1 hp
          rw [byteSize_cons] at hsize
          exact ⟨by omega, p, hrest, by omega⟩

/-- The boundaries of a text are the valid places of its UTF-8 form. -/
theorem isBoundary_iff_isValid (s : String) (i : Nat) :
    isBoundary s.toList i = true ↔ String.Pos.Raw.IsValid s ⟨i⟩ := by
  rw [isBoundary_iff, String.Pos.Raw.isValid_iff_exists_append]
  constructor
  · rintro ⟨p, ⟨rest, hs⟩, rfl⟩
    refine ⟨String.ofList p, String.ofList rest, ?_, ?_⟩
    · rw [← String.ofList_append, hs, String.ofList_toList]
    · rw [byteSize_eq]
      rfl
  · rintro ⟨first, rest, rfl, hplace⟩
    refine ⟨first.toList, ⟨rest.toList, String.toList_append.symm⟩, ?_⟩
    rw [byteSize_toList]
    exact (congrArg String.Pos.Raw.byteIdx hplace).symm

/-- The end of a text is a boundary, and there is none behind it. -/
theorem isBoundary_byteSize (cs : List Char) : isBoundary cs (byteSize cs) = true :=
  isBoundary_iff.2 ⟨cs, List.prefix_refl cs, rfl⟩

theorem le_byteSize_of_isBoundary (h : isBoundary cs i = true) : i ≤ byteSize cs := by
  obtain ⟨p, hp, rfl⟩ := isBoundary_iff.1 h
  exact byteSize_le_of_isPrefix hp

/-! ## The two searches -/

/-- The search backwards ends at the last boundary up to where it starts. -/
theorem floorBoundary?_exact (cs : List Char) (i : Nat) :
    ∃ b, floorBoundary? cs i = some b ∧ b ≤ i ∧ isBoundary cs b = true ∧
      ∀ j, isBoundary cs j = true → j ≤ i → j ≤ b := by
  induction i with
  | zero =>
    refine ⟨0, ?_, Nat.le_refl 0, isBoundary_zero cs, fun j _ hj => hj⟩
    rw [floorBoundary?, if_pos (isBoundary_zero cs)]
  | succ i ih =>
    rw [floorBoundary?]
    by_cases h : isBoundary cs (i + 1) = true
    · rw [if_pos h]
      exact ⟨i + 1, rfl, Nat.le_refl _, h, fun j _ hj => hj⟩
    · rw [if_neg h]
      obtain ⟨b, hfound, hle, hb, hlast⟩ := ih
      refine ⟨b, hfound, Nat.le_succ_of_le hle, hb, fun j hj hji => hlast j hj ?_⟩
      have hne : j ≠ i + 1 := fun heq => h (heq ▸ hj)
      omega

/-- The search forwards, from within a text, ends at the first boundary from where it starts. -/
theorem ceilBoundary?_exact (hi : i ≤ byteSize cs) :
    ∃ b, ceilBoundary? cs i = some b ∧ i ≤ b ∧ isBoundary cs b = true ∧
      ∀ j, isBoundary cs j = true → i ≤ j → b ≤ j := by
  fun_induction ceilBoundary? cs i with
  | case1 i h => exact ⟨i, rfl, Nat.le_refl i, h, fun j _ hj => hj⟩
  | case2 i h hlt ih =>
    obtain ⟨b, hfound, hle, hb, hfirst⟩ := ih hlt
    refine ⟨b, hfound, Nat.le_of_succ_le hle, hb, fun j hj hij => hfirst j hj ?_⟩
    have hne : j ≠ i := fun heq => h (heq ▸ hj)
    omega
  | case3 i h hge =>
    have hend : i = byteSize cs := by omega
    exact absurd (hend ▸ isBoundary_byteSize cs) h

/-! ## What a cut keeps -/

/-- The first character of a text takes at least one of its bytes. -/
theorem exists_byteSize_cons (c : Char) (cs : List Char) :
    ∃ k, byteSize (c :: cs) = k + 1 ∧ k + 1 - c.utf8Size = byteSize cs := by
  have hpos := c.utf8Size_pos
  refine ⟨c.utf8Size + byteSize cs - 1, ?_, by omega⟩
  rw [byteSize_cons]
  omega

theorem before_append (p rest : List Char) : before (p ++ rest) (byteSize p) = p := by
  induction p with
  | nil =>
    cases rest with
    | nil => rfl
    | cons c rest => rfl
  | cons c p ih =>
    obtain ⟨k, hk, hrest⟩ := exists_byteSize_cons c p
    rw [List.cons_append, hk, before, hrest, ih]

theorem behind_append (p rest : List Char) : behind (p ++ rest) (byteSize p) = rest := by
  induction p with
  | nil =>
    cases rest with
    | nil => rfl
    | cons c rest => rfl
  | cons c p ih =>
    obtain ⟨k, hk, hrest⟩ := exists_byteSize_cons c p
    rw [List.cons_append, hk, behind, hrest, ih]

/-- The longest beginning of a text within a number of bytes. -/
structure IsLongestBeginning (limit : Nat) (cs p : List Char) : Prop where
  begins : p <+: cs
  fits : byteSize p ≤ limit
  longest : ∀ q, q <+: cs → byteSize q ≤ limit → byteSize q ≤ byteSize p

/-- The longest ending of a text within a number of bytes. -/
structure IsLongestEnding (limit : Nat) (cs p : List Char) : Prop where
  ends : p <:+ cs
  fits : byteSize p ≤ limit
  longest : ∀ q, q <:+ cs → byteSize q ≤ limit → byteSize q ≤ byteSize p

/-- A text that fits is its own longest beginning. -/
theorem IsLongestBeginning.self (h : byteSize cs ≤ limit) : IsLongestBeginning limit cs cs :=
  ⟨List.prefix_refl cs, h, fun _ hq _ => byteSize_le_of_isPrefix hq⟩

/-- A cut to a number of bytes keeps the longest beginning. -/
theorem takeBytes?_longest (limit : Nat) (cs : List Char) :
    ∃ p, takeBytes? limit cs = some p ∧ IsLongestBeginning limit cs p := by
  obtain ⟨b, hfound, hle, hb, hlast⟩ := floorBoundary?_exact cs (min limit (byteSize cs))
  obtain ⟨p, ⟨rest, rfl⟩, rfl⟩ := isBoundary_iff.1 hb
  refine ⟨p, ?_, List.prefix_append p rest, by omega, fun q hq hfits => ?_⟩
  · rw [takeBytes?, hfound, Option.map_some, before_append]
  · have hsize := byteSize_le_of_isPrefix hq
    exact hlast _ (isBoundary_iff.2 ⟨q, hq, rfl⟩) (by omega)

/-- A cut that leaves a number of bytes keeps the longest ending. -/
theorem takeRightBytes?_longest (limit : Nat) (cs : List Char) :
    ∃ p, takeRightBytes? limit cs = some p ∧ IsLongestEnding limit cs p := by
  have hstart : min (byteSize cs - limit) (byteSize cs) ≤ byteSize cs := Nat.min_le_right _ _
  obtain ⟨b, hfound, hle, hb, hfirst⟩ := ceilBoundary?_exact hstart
  obtain ⟨front, ⟨p, rfl⟩, rfl⟩ := isBoundary_iff.1 hb
  refine ⟨p, ?_, List.suffix_append front p, ?_, fun q hq hfits => ?_⟩
  · rw [takeRightBytes?, hfound, Option.map_some, behind_append]
  · rw [byteSize_append] at hle
    omega
  · -- what stands in front of the other ending ends at a boundary as well
    obtain ⟨other, hother⟩ := hq
    have hsize := congrArg byteSize hother
    rw [byteSize_append, byteSize_append] at hsize
    have hboundary := isBoundary_iff.2 ⟨other, ⟨q, hother⟩, rfl⟩
    have hbehind := hfirst _ hboundary (by
      rw [byteSize_append]
      omega)
    omega

/-- A cut within a beginning of the text keeps the longest beginning of that. -/
theorem IsLongestBeginning.of_isPrefix {line : List Char} (hline : line <+: cs)
    (h : IsLongestBeginning (min (byteSize line) limit) cs p) : IsLongestBeginning limit line p := by
  have hfits := h.fits
  refine ⟨isPrefix_of_byteSize_le h.begins hline (by omega), by omega, fun q hq hle => ?_⟩
  have hsize := byteSize_le_of_isPrefix hq
  exact h.longest q (hq.trans hline) (by omega)

end Text

end VmInspect
