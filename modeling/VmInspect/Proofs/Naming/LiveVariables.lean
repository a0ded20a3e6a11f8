import VmInspect.Bytecode.Proto

/-!
# Numbering the variables that are alive

The variables of a function are numbered anew at every instruction, and only those that are alive there
count.  The list is read from the front, and no further than the first variable that has not begun.  This
file says when that is far enough:

* `Proto.activeLocals_eq_live_iff` — nothing that is alive is left out, at whichever instruction, exactly
  when no variable that lives at all begins before one in front of it.
* `Proto.localName?_eq_live` — so in a list that is ordered by where the variables begin, a number stands
  for the variable at that position among those that are alive.
-/

namespace VmInspect

/-- Whether a variable is alive at an instruction. -/
def LocalInfo.livesAt (v : LocalInfo) (pc : Nat) : Bool :=
  decide (v.startPc ≤ pc) && decide (pc < v.endPc)

variable {v : LocalInfo} {pc : Nat}

theorem LocalInfo.livesAt_iff : v.livesAt pc = true ↔ v.startPc ≤ pc ∧ pc < v.endPc := by
  simp [livesAt]

/-! ## Reading up to the first that has not begun -/

/-- The variables that are read and not over. -/
def readLive (vs : List LocalInfo) (pc : Nat) : List LocalInfo :=
  (vs.takeWhile fun v => v.startPc ≤ pc).filter fun v => pc < v.endPc

theorem readLive_cons_of_begun (h : v.startPc ≤ pc) (vs : List LocalInfo) :
    readLive (v :: vs) pc = if v.livesAt pc then v :: readLive vs pc else readLive vs pc := by
  simp [readLive, LocalInfo.livesAt, List.filter_cons, h]

theorem readLive_cons_of_not_begun (h : ¬ v.startPc ≤ pc) (vs : List LocalInfo) :
    readLive (v :: vs) pc = [] := by
  simp [readLive, h]

/-- What is read is all that is alive, unless something alive stands behind a variable that has not
begun. -/
theorem readLive_eq_filter_iff (vs : List LocalInfo) (pc : Nat) :
    readLive vs pc = vs.filter (·.livesAt pc) ↔
      vs.Pairwise fun v w => w.livesAt pc = true → v.startPc ≤ pc := by
  induction vs with
  | nil => simp [readLive]
  | cons v vs ih =>
    rw [List.pairwise_cons, List.filter_cons]
    by_cases hbegun : v.startPc ≤ pc
    · have hfront : ∀ w ∈ vs, w.livesAt pc = true → v.startPc ≤ pc := fun _ _ _ => hbegun
      rw [readLive_cons_of_begun hbegun, and_iff_right hfront, ← ih]
      split
      · exact List.cons_inj_right v
      · exact Iff.rfl
    · have hdead : ¬ v.livesAt pc = true := fun hlive => hbegun (LocalInfo.livesAt_iff.1 hlive).1
      rw [readLive_cons_of_not_begun hbegun, if_neg hdead, eq_comm, List.filter_eq_nil_iff]
      constructor
      · intro hnone
        refine ⟨fun w hw hlive => absurd hlive (hnone w hw), ?_⟩
        exact List.pairwise_of_forall_mem_list fun _ _ w hw hlive => absurd hlive (hnone w hw)
      · intro h w hw hlive
        exact hbegun (h.1 w hw hlive)

namespace Proto

variable {p : Proto}

/-- The variables that are alive at an instruction, wherever they stand in the list. -/
def liveLocals (p : Proto) (pc : Nat) : List LocalInfo := p.locals.filter (·.livesAt pc)

/-- The variables are listed in the order in which they begin. -/
def LocalsOrdered (p : Proto) : Prop := p.locals.Pairwise fun v w => v.startPc ≤ w.startPc

instance (p : Proto) : Decidable p.LocalsOrdered := inferInstanceAs (Decidable (List.Pairwise _ _))

/-- Nothing that is alive is left out exactly when no variable that lives at all begins before one in
front of it. -/
theorem activeLocals_eq_live_iff (p : Proto) :
    (∀ pc, p.activeLocals pc = p.liveLocals pc) ↔
      p.locals.Pairwise fun v w => w.startPc < w.endPc → v.startPc ≤ w.startPc := by
  have hread : ∀ pc, p.activeLocals pc = p.liveLocals pc ↔
      p.locals.Pairwise fun v w => w.livesAt pc = true → v.startPc ≤ pc :=
    fun pc => readLive_eq_filter_iff p.locals pc
  simp only [hread]
  constructor
  · intro h
    rw [List.pairwise_iff_getElem]
    intro i j hi hj hij hlives
    -- the later variable is alive where it begins
    have hall := List.pairwise_iff_getElem.1 (h p.locals[j].startPc) i j hi hj hij
    exact hall (LocalInfo.livesAt_iff.2 ⟨Nat.le_refl _, hlives⟩)
  · intro h pc
    refine h.imp fun {v w} hbegin hlive => ?_
    obtain ⟨hstart, hend⟩ := LocalInfo.livesAt_iff.1 hlive
    exact Nat.le_trans (hbegin (Nat.lt_of_le_of_lt hstart hend)) hstart

theorem LocalsOrdered.activeLocals_eq (h : p.LocalsOrdered) (pc : Nat) :
    p.activeLocals pc = p.liveLocals pc := by
  refine p.activeLocals_eq_live_iff.2 (List.Pairwise.imp ?_ h) pc
  intro v w hle _
  exact hle

theorem localName?_succ (p : Proto) (k pc : Nat) :
    p.localName? (k + 1) pc = (p.activeLocals pc)[k]?.map LocalInfo.name := by
  rw [localName?, if_neg (Nat.succ_ne_zero k), Nat.add_sub_cancel]

/-- **Variables are numbered among those that are alive.**  In a list that is ordered by where the
variables begin, the `n`-th name at an instruction is that of the `n`-th variable, counted from one, of
those that have begun and are not over there.  There is none for zero, and none past the last one. -/
theorem localName?_eq_live (p : Proto) (hordered : p.LocalsOrdered) (n pc : Nat) :
    (∀ name, p.localName? n pc = some name ↔
      ∃ k v, n = k + 1 ∧ (p.liveLocals pc)[k]? = some v ∧ v.name = name) ∧
    (p.localName? n pc = none ↔ n = 0 ∨ (p.liveLocals pc).length < n) := by
  cases n with
  | zero => simp [localName?]
  | succ k =>
    rw [localName?_succ, hordered.activeLocals_eq]
    refine ⟨fun name => ?_, ?_⟩
    · rw [Option.map_eq_some_iff]
      constructor
      · rintro ⟨v, hv, rfl⟩
        exact ⟨k, v, rfl, hv, rfl⟩
      · rintro ⟨j, v, hj, hv, rfl⟩
        obtain rfl : k = j := Nat.succ.inj hj
        exact ⟨v, hv, rfl⟩
    · rw [Option.map_eq_none_iff, List.getElem?_eq_none_iff]
      omega

/-- Nested, overlapping, adjacent and empty ranges: `b` is over where `d` begins, and `e` never lives. -/
theorem localName?_eq_live_nested :
    let p : Proto := {
      locals := [⟨"a", 0, 9⟩, ⟨"b", 1, 3⟩, ⟨"e", 2, 2⟩, ⟨"c", 2, 6⟩, ⟨"d", 3, 5⟩] }
    p.LocalsOrdered ∧ p.localName? 3 2 = some "c" ∧ p.localName? 3 3 = some "d" ∧
      p.localName? 4 3 = none ∧ p.localName? 0 3 = none := by
  intro p
  have hordered : p.LocalsOrdered := by decide
  have hnames := localName?_eq_live p hordered
  refine ⟨hordered, ?_, ?_, ?_, ?_⟩
  · exact ((hnames 3 2).1 "c").2 ⟨2, _, rfl, rfl, rfl⟩
  · exact ((hnames 3 3).1 "d").2 ⟨2, _, rfl, rfl, rfl⟩
  · exact (hnames 4 3).2.2 (Or.inr (by decide))
  · exact (hnames 0 3).2.2 (Or.inl rfl)

end Proto

end VmInspect
