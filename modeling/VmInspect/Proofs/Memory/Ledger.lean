import Mathlib.Algebra.GroupWithZero.Nat
import Mathlib.Algebra.Ring.Int.Defs
import Mathlib.Data.List.Perm.Basic
import VmInspect.Memory.Heap

/-!
# The ledger of an allocator

Whoever asks for memory can keep a ledger: which blocks are his, and how many bytes each has.  The
allocator keeps books of its own.  This file proves that the two agree after every request that goes
by the ledger:

* `System.Holds.realloc` — the system's list of blocks given out is the ledger, in some order.
* `Allocator.Holds.realloc` — so it is under any number of budgets, and each of them counts the
  bytes of the ledger.
* `Allocator.Holds.liveBytes` — the bytes given out are the bytes of the ledger.
-/

namespace VmInspect.Memory

namespace Ledger

/-- The bytes of all entries. -/
def bytes (owned : List (Block × Nat)) : Nat := (owned.map Prod.snd).sum

@[simp] theorem bytes_nil : bytes [] = 0 := rfl

@[simp] theorem bytes_cons (e : Block × Nat) (owned : List (Block × Nat)) :
    bytes (e :: owned) = e.2 + bytes owned := by
  rw [bytes, List.map_cons, List.sum_cons, bytes]

@[simp] theorem bytes_append (xs ys : List (Block × Nat)) :
    bytes (xs ++ ys) = bytes xs + bytes ys := by
  rw [bytes, List.map_append, List.sum_append, bytes, bytes]

theorem bytes_perm {xs ys : List (Block × Nat)} (h : xs.Perm ys) : bytes xs = bytes ys :=
  (h.map Prod.snd).sum_nat

/-- What the system knows of an entry: nothing of the null block. -/
def given? : Block × Nat → Option (Nat × Nat)
  | (.null, _) => none
  | (.live id, size) => some (id, size)

/-- What the system knows of a ledger. -/
def given (owned : List (Block × Nat)) : List (Nat × Nat) := owned.filterMap given?

@[simp] theorem given_cons_null (size : Nat) (owned : List (Block × Nat)) :
    given ((.null, size) :: owned) = given owned := rfl

@[simp] theorem given_cons_live (id size : Nat) (owned : List (Block × Nat)) :
    given ((.live id, size) :: owned) = (id, size) :: given owned := rfl

/-- The entry of a block of a size after a request for a new size, by the answer. -/
def settled (block : Block) (size : Nat) (answer : Block) (newSize : Nat) : Block × Nat :=
  if answer.isLive || newSize == 0 then (answer, newSize) else (block, size)

theorem settled_of_done {answer : Block} {newSize : Nat}
    (h : (answer.isLive || newSize == 0) = true) (block : Block) (size : Nat) :
    settled block size answer newSize = (answer, newSize) := by
  rw [settled, if_pos h]

theorem settled_of_failed {answer : Block} {newSize : Nat}
    (h : ¬ (answer.isLive || newSize == 0) = true) (block : Block) (size : Nat) :
    settled block size answer newSize = (block, size) := by
  rw [settled, if_neg h]

theorem settled_null {newSize : Nat} (h : 0 < newSize) (block : Block) (size : Nat) :
    settled block size .null newSize = (block, size) := by
  refine settled_of_failed ?_ block size
  simp only [Block.isLive, Bool.false_or, beq_iff_eq]
  omega

end Ledger

/-! ## The system -/

/-- The blocks that a system has given out are those of a ledger. -/
structure System.Holds (s : System) (owned : List (Block × Nat)) : Prop where
  /-- no bytes go with the null block, and with no other -/
  tidy : ∀ e ∈ owned, e.2 = 0 ↔ e.1 = .null
  given : (Ledger.given owned).Perm s.live
  nodup : (s.live.map Prod.fst).Nodup
  /-- numbers in use are older than the next one -/
  old : ∀ e ∈ s.live, e.1 < s.requests

/-- A request for bytes, by the system's answer. -/
theorem System.realloc_of_pos (s : System) (block : Block) (oldSize : Nat) {newSize : Nat}
    (hpos : 0 < newSize) :
    s.realloc block oldSize newSize =
      let next := { s with requests := s.requests + 1 }
      if s.grants s.requests (block.held oldSize) newSize then
        match block with
        | .null => (.live s.requests, next.give s.requests newSize)
        | .live id => (.live id, next.resize id newSize)
      else (.null, next) := by
  obtain ⟨n, rfl⟩ := Nat.exists_eq_succ_of_ne_zero (Nat.ne_of_gt hpos)
  cases block <;> rfl

namespace System.Holds

variable {s : System} {owned owned' : List (Block × Nat)} {id size : Nat}

/-- A system that has given out nothing goes by the empty ledger. -/
theorem of_live_nil (h : s.live = []) : s.Holds [] := by
  refine ⟨?_, by rw [h]; exact List.Perm.refl _, by rw [h]; exact List.nodup_nil, ?_⟩
  · intro e he
    cases he
  · intro e he
    rw [h] at he
    cases he

/-- The order of a ledger does not matter. -/
theorem perm (h : s.Holds owned) (hp : owned.Perm owned') : s.Holds owned' where
  tidy e he := h.tidy e (hp.mem_iff.2 he)
  given := (hp.filterMap Ledger.given?).symm.trans h.given
  nodup := h.nodup
  old := h.old

theorem cons_null (h : s.Holds owned) : s.Holds ((.null, 0) :: owned) where
  tidy e he := by
    rcases List.mem_cons.1 he with rfl | he
    · simp
    · exact h.tidy e he
  given := h.given
  nodup := h.nodup
  old := h.old

theorem tail_null (h : s.Holds ((.null, size) :: owned)) : s.Holds owned where
  tidy e he := h.tidy e (List.mem_cons_of_mem _ he)
  given := h.given
  nodup := h.nodup
  old := h.old

/-- The bytes given out are those of the ledger. -/
theorem liveBytes (h : s.Holds owned) : s.liveBytes = Ledger.bytes owned := by
  have hlive : s.liveBytes = (s.live.map Prod.snd).sum := by
    rw [System.liveBytes, List.sum_eq_foldr, List.foldr_map]
  have hgiven : ((Ledger.given owned).map Prod.snd).sum = Ledger.bytes owned := by
    have htidy := h.tidy
    clear h hlive
    induction owned with
    | nil => rfl
    | cons e owned ih =>
      have ih := ih fun e he => htidy e (List.mem_cons_of_mem _ he)
      obtain ⟨block, size⟩ := e
      cases block with
      | null =>
        have hsize : size = 0 := (htidy (.null, size) (List.mem_cons_self ..)).2 rfl
        rw [Ledger.bytes_cons, Ledger.given_cons_null, ih, hsize, Nat.zero_add]
      | live id =>
        rw [Ledger.bytes_cons, Ledger.given_cons_live, List.map_cons, List.sum_cons, ih]
  rw [hlive, ← hgiven]
  exact (h.given.map Prod.snd).sum_nat.symm

/-- A block of the ledger stands in it once. -/
theorem ne_of_mem (h : s.Holds ((.live id, size) :: owned)) :
    ∀ e ∈ Ledger.given owned, e.1 ≠ id := by
  have hnodup := (h.given.map Prod.fst).nodup_iff.2 h.nodup
  rw [Ledger.given_cons_live, List.map_cons, List.nodup_cons] at hnodup
  rintro e he rfl
  exact hnodup.1 (List.mem_map.2 ⟨e, he, rfl⟩)

theorem next (h : s.Holds owned) : ({ s with requests := s.requests + 1 } : System).Holds owned where
  tidy := h.tidy
  given := h.given
  nodup := h.nodup
  old e he := Nat.lt_succ_of_lt (h.old e he)

theorem release (h : s.Holds ((.live id, size) :: owned)) : (s.release id).Holds owned where
  tidy e he := h.tidy e (List.mem_cons_of_mem _ he)
  given := by
    have hp := h.given.filter fun entry => entry.1 ≠ id
    rw [Ledger.given_cons_live, List.filter_cons_of_neg (by simp)] at hp
    rwa [List.filter_eq_self.2 fun e he => by simpa using h.ne_of_mem e he] at hp
  nodup := h.nodup.sublist (List.filter_sublist.map _)
  old e he := h.old e (List.mem_of_mem_filter he)

theorem resize (h : s.Holds ((.live id, size) :: owned)) {newSize : Nat} (hpos : 0 < newSize) :
    (s.resize id newSize).Holds ((.live id, newSize) :: owned) where
  tidy e he := by
    rcases List.mem_cons.1 he with rfl | he
    · simp
      omega
    · exact h.tidy e (List.mem_cons_of_mem _ he)
  given := by
    have hp := h.given.map fun entry => if entry.1 = id then (id, newSize) else entry
    rw [Ledger.given_cons_live, List.map_cons, if_pos rfl] at hp
    have hrest : ((Ledger.given owned).map fun entry =>
        if entry.1 = id then (id, newSize) else entry) = Ledger.given owned :=
      (List.map_congr_left fun e he => if_neg (h.ne_of_mem e he)).trans (List.map_id _)
    rwa [hrest] at hp
  nodup := by
    have hids : (s.resize id newSize).live.map Prod.fst = s.live.map Prod.fst := by
      rw [System.resize, List.map_map]
      refine List.map_congr_left fun e _ => ?_
      simp only [Function.comp]
      split <;> simp_all
    rw [hids]
    exact h.nodup
  old e he := by
    obtain ⟨e', he', rfl⟩ := List.mem_map.1 he
    have := h.old e' he'
    split <;> simp_all [System.resize]

theorem give (h : s.Holds owned) (hpos : 0 < size) :
    (({ s with requests := s.requests + 1 } : System).give s.requests size).Holds
      ((.live s.requests, size) :: owned) where
  tidy e he := by
    rcases List.mem_cons.1 he with rfl | he
    · simp
      omega
    · exact h.tidy e he
  given := by
    rw [Ledger.given_cons_live, System.give]
    exact (h.given.cons _).trans (List.perm_append_singleton _ _).symm
  nodup := by
    rw [System.give, List.map_append, List.nodup_append]
    refine ⟨h.nodup, List.pairwise_singleton _ _, ?_⟩
    intro id hid id' hid'
    obtain ⟨e, he, rfl⟩ := List.mem_map.1 hid
    have := h.old e he
    simp only [List.map_cons, List.map_nil, List.mem_singleton] at hid'
    omega
  old e he := by
    rw [System.give] at he
    rcases List.mem_append.1 he with he | he
    · exact Nat.lt_succ_of_lt (h.old e he)
    · rw [List.mem_singleton.1 he]
      exact Nat.lt_succ_self _

/-- The system goes by the ledger: the answer settles the entry of the block asked about. -/
theorem realloc {block : Block} {oldSize : Nat} (h : s.Holds ((block, block.held oldSize) :: owned))
    (newSize : Nat) :
    (s.realloc block oldSize newSize).2.Holds
      (Ledger.settled block (block.held oldSize) (s.realloc block oldSize newSize).1 newSize ::
        owned) := by
  rcases Nat.eq_zero_or_pos newSize with rfl | hpos
  · cases block with
    | null => exact h.tail_null.cons_null
    | live id => exact h.release.cons_null
  · rw [System.realloc_of_pos s block oldSize hpos]
    by_cases hgrant : s.grants s.requests (block.held oldSize) newSize = true
    · rw [if_pos hgrant]
      cases block with
      | null => exact h.tail_null.give hpos
      | live id => exact h.next.resize hpos
    · rw [if_neg hgrant, Ledger.settled_null hpos]
      exact h.next

end System.Holds

/-! ## Budgets -/

namespace Allocator

/-- An allocator goes by a ledger: the system at the bottom gave out its blocks, and each budget on
the way counts its bytes. -/
def Holds : Allocator → List (Block × Nat) → Prop
  | system s, owned => s.Holds owned
  | budgeted b inner, owned => b.inUse = Ledger.bytes owned ∧ inner.Holds owned

variable {a : Allocator} {owned owned' : List (Block × Nat)} {block : Block} {oldSize : Nat}

/-- A request leaves the budgets in place. -/
theorem isSome_budget?_realloc (a : Allocator) (block : Block) (oldSize newSize : Nat) :
    (a.realloc block oldSize newSize).2.budget?.isSome = a.budget?.isSome := by
  cases a with
  | system s => rfl
  | budgeted b inner =>
    rw [Allocator.realloc]
    split
    · rfl
    · simp only
      split <;> rfl

theorem isSome_budget?_setLimit (a : Allocator) (limit : Nat) :
    (a.setLimit limit).budget?.isSome = a.budget?.isSome := by
  cases a <;> rfl

namespace Holds

/-- The blocks given out are those of the ledger. -/
theorem bottom (h : a.Holds owned) : a.bottom.Holds owned := by
  induction a with
  | system s => exact h
  | budgeted b inner ih => exact ih h.2

theorem perm (h : a.Holds owned) (hp : owned.Perm owned') : a.Holds owned' := by
  induction a with
  | system s => exact System.Holds.perm h hp
  | budgeted b inner ih => exact ⟨h.1.trans (Ledger.bytes_perm hp), ih h.2⟩

theorem cons_null (h : a.Holds owned) : a.Holds ((.null, 0) :: owned) := by
  induction a with
  | system s => exact System.Holds.cons_null h
  | budgeted b inner ih => exact ⟨by rw [h.1, Ledger.bytes_cons, Nat.zero_add], ih h.2⟩

/-- A block without bytes is no block. -/
theorem tail_zero (h : a.Holds ((block, 0) :: owned)) : a.Holds owned := by
  obtain rfl : block = .null := (h.bottom.tidy (block, 0) (List.mem_cons_self ..)).1 rfl
  induction a with
  | system s => exact System.Holds.tail_null h
  | budgeted b inner ih =>
    refine ⟨?_, ih h.2⟩
    rw [h.1, Ledger.bytes_cons, Nat.zero_add]

/-- A block of the ledger gives up its bytes when it is resized. -/
theorem held_eq {size : Nat} (h : a.Holds ((block, size) :: owned)) : block.held size = size := by
  cases block with
  | null => exact ((h.bottom.tidy (.null, size) (List.mem_cons_self ..)).2 rfl).symm
  | live id => rfl

/-- Only the null block has no bytes. -/
theorem isLive_eq {size : Nat} (h : a.Holds ((block, size) :: owned)) :
    (!block.isLive) = (size == 0) := by
  have htidy : size = 0 ↔ block = .null := h.bottom.tidy (block, size) (List.mem_cons_self ..)
  cases block with
  | null =>
    obtain rfl : size = 0 := htidy.2 rfl
    rfl
  | live id => simpa [Block.isLive] using htidy

/-- The bytes given out are the bytes of the ledger. -/
theorem liveBytes (h : a.Holds owned) : a.bottom.liveBytes = Ledger.bytes owned :=
  h.bottom.liveBytes

/-- The outermost budget counts the bytes of the ledger. -/
theorem inUse (h : a.Holds owned) {b : Budget} (hb : a.budget? = some b) :
    b.inUse = Ledger.bytes owned := by
  cases a with
  | system s => cases hb
  | budgeted b' inner =>
    obtain rfl : b' = b := Option.some.inj hb
    exact h.1

/-- A change of the limit changes nothing that was given out. -/
theorem setLimit (h : a.Holds owned) (limit : Nat) : (a.setLimit limit).Holds owned := by
  cases a with
  | system s => exact h
  | budgeted b inner => exact h

/-- Every allocator goes by the ledger: the answer settles the entry of the block asked about. -/
theorem realloc (h : a.Holds ((block, block.held oldSize) :: owned)) (newSize : Nat) :
    (a.realloc block oldSize newSize).2.Holds
      (Ledger.settled block (block.held oldSize) (a.realloc block oldSize newSize).1 newSize ::
        owned) := by
  induction a with
  | system s => exact System.Holds.realloc h newSize
  | budgeted b inner ih =>
    obtain ⟨huse, hinner⟩ := h
    rw [Ledger.bytes_cons] at huse
    by_cases hrefuses : b.refuses (block.held oldSize) newSize = true
    · have hpos : 0 < newSize := by
        rcases Nat.eq_zero_or_pos newSize with rfl | hpos
        · simp at hrefuses
        · exact hpos
      rw [Allocator.realloc, if_pos hrefuses, Ledger.settled_null hpos]
      exact ⟨by rw [huse, Ledger.bytes_cons], hinner⟩
    · rw [Allocator.realloc, if_neg hrefuses]
      rcases hr : inner.realloc block oldSize newSize with ⟨result, inner'⟩
      replace hinner := ih hinner
      rw [hr] at hinner
      by_cases hdone : (result.isLive || newSize == 0) = true
      · rw [Ledger.settled_of_done hdone] at hinner
        simp only [hdone, if_true]
        rw [Ledger.settled_of_done hdone]
        refine ⟨?_, hinner⟩
        rw [Budget.count, Ledger.bytes_cons, huse]
        simp only
        omega
      · rw [Ledger.settled_of_failed hdone] at hinner
        simp only [hdone, Bool.false_eq_true, if_false]
        rw [Ledger.settled_of_failed hdone]
        exact ⟨by rw [huse, Ledger.bytes_cons], hinner⟩

end Holds

end Allocator

end VmInspect.Memory
