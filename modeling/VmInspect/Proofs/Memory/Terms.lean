import VmInspect.Proofs.Memory.Balance

/-!
# When requests are granted

A request is granted or refused by terms that know nothing of the collector: what the system says to
its size, the limit, and the bytes in use beside it.  Blocks that wait to be freed do not count, since
a request that they stand in the way of is tried again after a collection.  This file proves, for a
system that answers by the size alone:

* `Allocator.GoesBy.realloc` — the allocator grants what fits beside the blocks of its ledger.
* `Manager.GoesBy.tryRealloc` — the manager grants what fits beside the caller's blocks, in whatever
  state the collector is and whether or not the first attempt is made to fail.
* `Manager.GoesBy.resizeArray`, `Manager.GoesBy.ensureCapacity` — so it does for arrays.
-/

namespace VmInspect.Memory

/-- What decides about requests, and what is counted of them. -/
structure Terms where
  /-- the system's answer to a size -/
  grants : Nat → Bool
  limit : Nat
  /-- the labels of the blocks allocated so far -/
  labels : List Nat
  reallocations : Nat
  failures : Nat
  minArraySize : Nat
  /-- whether blocks can be handed over to be freed later -/
  keepsGarbage : Bool

namespace Terms

/-- Whether a size is granted beside other bytes. -/
def fits (T : Terms) (others newSize : Nat) : Bool :=
  T.grants newSize && decide (others + newSize ≤ T.limit)

/-- The terms after the allocator was asked for a size: the label of a new block is counted. -/
def asked (T : Terms) (others : Nat) (isNew : Bool) (label newSize : Nat) : Terms :=
  { T with
    labels := if T.fits others newSize && isNew then label :: T.labels else T.labels }

/-- Ask the manager for a size beside other bytes.  A new block has a label. -/
def resize (T : Terms) (others : Nat) (isNew : Bool) (label newSize : Nat) : Bool × Terms :=
  if newSize = 0 then (true, T)
  else
    let after := T.asked others isNew label newSize
    if T.fits others newSize then (true, { after with reallocations := T.reallocations + 1 })
    else (false, { after with failures := T.failures + 1 })

/-- What is given for a request, if it was granted. -/
def given {α : Type} (granted : Bool) (a : α) : Except AllocationFailure α :=
  if granted then .ok a else .error .outOfMemory

/-- What is made of an answer depends on whether the request was granted only, if it does not depend
on the block. -/
theorem map_eq_given {α β : Type} {result : Except AllocationFailure α} {granted : Bool}
    (h : result.map (fun _ => ()) = given granted ()) {f : α → β} {b : β} (hf : ∀ a, f a = b) :
    result.map f = given granted b := by
  cases granted with
  | true =>
    cases result with
    | error e => cases h
    | ok a => exact congrArg Except.ok (hf a)
  | false =>
    cases result with
    | error e =>
      obtain rfl := Except.error.inj h
      rfl
    | ok a => cases h

/-- Ask for a capacity of an array. -/
def resizeArray (T : Terms) (others : Nat) (a : GrowingArray) (capacity : Nat) :
    Except AllocationFailure GrowingArray × Terms :=
  match a.byteSize a.capacity, a.byteSize capacity with
  | .error e, _ => (.error e, T)
  | _, .error e => (.error e, T)
  | .ok oldBytes, .ok newBytes =>
    let (granted, T) := T.resize others (oldBytes == 0) oldBytes newBytes
    (given granted { a with capacity }, T)

/-- Ask for room for one more element of an array. -/
def ensureCapacity (T : Terms) (others : Nat) (a : GrowingArray) (count limit : Nat)
    (what : String) : Except AllocationFailure GrowingArray × Terms :=
  if count < a.capacity then (.ok a, T)
  else if a.elementLimit limit ≤ a.capacity then
    (.error (.limitExceeded what (a.elementLimit limit)), T)
  else T.resizeArray others a (a.grownCapacity (a.elementLimit limit) T.minArraySize)

/-- What was refused is not counted. -/
theorem asked_of_refused {T : Terms} {others newSize : Nat} (h : T.fits others newSize = false)
    (isNew : Bool) (label : Nat) : T.asked others isNew label newSize = T := by
  rw [asked, h]
  rfl

/-- What was granted is counted the same beside any bytes. -/
theorem asked_of_granted {T : Terms} {others others' newSize : Nat}
    (h : T.fits others newSize = true) (h' : T.fits others' newSize = true) (isNew : Bool)
    (label : Nat) : T.asked others isNew label newSize = T.asked others' isNew label newSize := by
  rw [asked, asked, h, h']

theorem resize_of_granted {T : Terms} {others newSize : Nat} (hpos : 0 < newSize)
    (h : T.fits others newSize = true) (isNew : Bool) (label : Nat) :
    T.resize others isNew label newSize =
      (true, { T.asked others isNew label newSize with reallocations := T.reallocations + 1 }) := by
  rw [resize, if_neg (Nat.ne_of_gt hpos), h]
  rfl

theorem resize_of_refused {T : Terms} {others newSize : Nat} (hpos : 0 < newSize)
    (h : T.fits others newSize = false) (isNew : Bool) (label : Nat) :
    T.resize others isNew label newSize = (false, { T with failures := T.failures + 1 }) := by
  rw [resize, if_neg (Nat.ne_of_gt hpos), asked_of_refused h, h]
  rfl

/-- What fits beside some bytes fits beside less. -/
theorem fits_of_le {T : Terms} {others fewer newSize : Nat} (hle : fewer ≤ others)
    (h : T.fits others newSize = true) : T.fits fewer newSize = true := by
  simp only [fits, Bool.and_eq_true, decide_eq_true_eq] at h ⊢
  exact ⟨h.1, by omega⟩

end Terms

/-! ## The allocator -/

namespace System

variable (s : System) (block : Block) (oldSize : Nat)

/-- The system answers by the same rule after a request. -/
theorem grants_realloc (newSize : Nat) : (s.realloc block oldSize newSize).2.grants = s.grants := by
  rcases Nat.eq_zero_or_pos newSize with rfl | hpos
  · cases block <;> rfl
  · rw [s.realloc_of_pos block oldSize hpos]
    simp only
    split
    · cases block <;> rfl
    · rfl

/-- A block is given if the system says so. -/
theorem isLive_realloc {newSize : Nat} (hpos : 0 < newSize) :
    (s.realloc block oldSize newSize).1.isLive =
      s.grants s.requests (block.held oldSize) newSize := by
  rw [s.realloc_of_pos block oldSize hpos]
  simp only
  split
  · rename_i hgrant
    rw [hgrant]
    cases block <;> rfl
  · rename_i hrefuse
    rw [Bool.not_eq_true] at hrefuse
    rw [hrefuse]
    rfl

end System

namespace Allocator

/-- A budget on a system that answers by the size alone, on some terms. -/
def GoesBy (a : Allocator) (T : Terms) : Prop :=
  ∃ b s, a = .budgeted b (.system s) ∧ (∀ i held n, s.grants i held n = T.grants n) ∧
    b.limit = T.limit ∧ b.labels = T.labels

namespace GoesBy

variable {a : Allocator} {T : Terms} {owned : List (Block × Nat)} {block : Block}
  {oldSize newSize : Nat}

/-- Freeing a block changes no terms. -/
theorem realloc_zero (h : a.GoesBy T) (block : Block) (oldSize : Nat) :
    (a.realloc block oldSize 0).2.GoesBy T := by
  obtain ⟨b, s, rfl, hgrants, hlimit, hlabels⟩ := h
  rw [Allocator.realloc, if_neg (by simp)]
  simp only [beq_self_eq_true, Bool.or_true, if_true]
  refine ⟨b.count block oldSize 0, (s.realloc block oldSize 0).2, rfl, ?_, hlimit, ?_⟩
  · rw [s.grants_realloc]
    exact hgrants
  · rw [Budget.count]
    simp only [Nat.lt_irrefl, decide_false, Bool.and_false, Bool.false_eq_true, if_false]
    exact hlabels

/-- A budget refuses what does not fit beside the other blocks of its ledger. -/
theorem refuses_eq {b : Budget} (huse : b.inUse = block.held oldSize + Ledger.bytes owned)
    (hpos : 0 < newSize) : b.refuses (block.held oldSize) newSize =
      decide (b.limit < Ledger.bytes owned + newSize) := by
  have hheld : ¬ b.inUse < block.held oldSize := by omega
  rw [Budget.refuses, huse, Nat.add_sub_cancel_left]
  simp only [hpos, decide_true, Bool.true_and]
  rw [← huse]
  simp only [hheld, decide_false, Bool.false_or]

/-- The allocator grants what fits beside the other blocks of its ledger. -/
theorem realloc (h : a.GoesBy T) (hholds : a.Holds ((block, block.held oldSize) :: owned))
    (hpos : 0 < newSize) :
    (a.realloc block oldSize newSize).1.isLive = T.fits (Ledger.bytes owned) newSize ∧
      (a.realloc block oldSize newSize).2.GoesBy
        (T.asked (Ledger.bytes owned) (!block.isLive) oldSize newSize) := by
  obtain ⟨b, s, rfl, hgrants, hlimit, hlabels⟩ := h
  have huse := hholds.1
  rw [Ledger.bytes_cons] at huse
  rw [Allocator.realloc, refuses_eq huse hpos, hlimit, Terms.asked, Terms.fits]
  by_cases hroom : Ledger.bytes owned + newSize ≤ T.limit
  · have hanswer := s.isLive_realloc block oldSize hpos
    rw [hgrants] at hanswer
    have hinner : ∀ i held n, (s.realloc block oldSize newSize).2.grants i held n = T.grants n := by
      rw [s.grants_realloc]
      exact hgrants
    have hsize : (newSize == 0) = false := by
      rw [beq_eq_false_iff_ne]
      omega
    simp only [Nat.not_lt.2 hroom, decide_false, Bool.false_eq_true, if_false, hroom, decide_true,
      Bool.and_true, Allocator.realloc, hanswer, hsize, Bool.or_false]
    cases hg : T.grants newSize with
    | true =>
      rw [hg] at hanswer
      simp only [if_true]
      refine ⟨hanswer, b.count block oldSize newSize, _, rfl, hinner, hlimit, ?_⟩
      rw [Budget.count]
      simp only [hpos, decide_true, Bool.and_true, Bool.true_and, hlabels]
    | false =>
      rw [hg] at hanswer
      simp only [Bool.false_eq_true, if_false]
      exact ⟨hanswer, b, _, rfl, hinner, hlimit, hlabels⟩
  · simp only [Nat.lt_of_not_le hroom, decide_true, if_true, hroom, decide_false, Bool.and_false]
    exact ⟨rfl, b, s, rfl, hgrants, hlimit, hlabels⟩

end GoesBy

end Allocator

/-! ## Collections -/

/-- Whether blocks can be handed over to the collector. -/
def Collector.keepsGarbage : Collector → Bool
  | idle _ _ => false
  | garbage _ _ => true

/-- Nothing waits in a collector that cannot run. -/
theorem Collector.pending_of_not_canCollect {c : Collector} (h : c.canCollect = false) :
    c.pending = [] := by
  cases c with
  | idle complete collecting => rfl
  | garbage pending n => cases h

/-- Of two steps that are no misuse together the first is none. -/
theorem exists_of_bind_ok {α β : Type} {x : Except Misuse α} {f : α → Except Misuse β} {b : β}
    (hrun : x >>= f = .ok b) : ∃ a, x = .ok a ∧ f a = .ok b := by
  cases x with
  | error e => cases hrun
  | ok a => exact ⟨a, rfl, hrun⟩

/-- A property of allocators that they keep when a block is freed. -/
def Allocator.KeptByFreeing (P : Allocator → Prop) : Prop :=
  ∀ (a : Allocator) (block : Block) (size : Nat), P a → P (a.realloc block size 0).2

/-- Freeing a block changes no terms. -/
theorem Allocator.keptByFreeing_goesBy (T : Terms) : KeptByFreeing fun a => a.GoesBy T :=
  fun _ block size hg => hg.realloc_zero block size

section Freeing

variable {P : Allocator → Prop} {h h' : Heap}

theorem Heap.raw_free (hkept : Allocator.KeptByFreeing P) {block : Block} {size : Nat}
    (hraw : P h.raw) (hrun : h.free block size = .ok h') : P h'.raw := by
  rw [Heap.free] at hrun
  split at hrun
  · obtain rfl := Except.ok.inj hrun
    exact hkept h.raw block size hraw
  · cases hrun

/-- What is kept when one block is freed is kept when many are. -/
theorem Collector.raw_freeAll (hkept : Allocator.KeptByFreeing P) (pending : List (Block × Nat))
    (hraw : P h.raw) (hrun : Collector.freeAll h pending = .ok h') : P h'.raw := by
  induction pending generalizing h with
  | nil =>
    obtain rfl := Except.ok.inj hrun
    exact hraw
  | cons entry pending ih =>
    obtain ⟨block, size⟩ := entry
    obtain ⟨h₁, hfree, hrest⟩ := exists_of_bind_ok hrun
    exact ih (Heap.raw_free hkept hraw hfree) hrest

/-- After a collection nothing waits. -/
theorem Collector.raw_collect (hkept : Allocator.KeptByFreeing P) {c c' : Collector}
    (hraw : P h.raw) (hrun : c.collect h = .ok (c', h')) :
    P h'.raw ∧ c'.pending = [] ∧ c'.keepsGarbage = c.keepsGarbage := by
  cases c with
  | idle complete collecting =>
    obtain ⟨rfl, rfl⟩ := Prod.mk.inj (Except.ok.inj hrun)
    exact ⟨hraw, rfl, rfl⟩
  | garbage pending n =>
    obtain ⟨h₁, hfree, hafter⟩ := exists_of_bind_ok hrun
    obtain ⟨rfl, rfl⟩ := Prod.mk.inj (Except.ok.inj hafter)
    exact ⟨Collector.raw_freeAll hkept pending hraw hfree, rfl, rfl⟩

end Freeing

/-! ## The manager -/

namespace Manager

/-- A manager on some terms. -/
structure GoesBy (m : Manager) (T : Terms) : Prop where
  raw : m.heap.raw.GoesBy T
  reallocations : m.stats.reallocations = T.reallocations
  failures : m.stats.failures = T.failures
  minArraySize : m.config.minArraySize = T.minArraySize
  keepsGarbage : m.collector.keepsGarbage = T.keepsGarbage

namespace GoesBy

variable {m m' : Manager} {T : Terms} {owned : List (Block × Nat)} {counted : Block × Nat}
  {shift : Int} {block answer : Block} {oldSize newSize : Nat}

/-- A collection changes no terms. -/
theorem fullCollection (hg : m.GoesBy T) (hrun : m.fullCollection = .ok m') :
    m'.GoesBy T ∧ m'.collector.pending = [] := by
  obtain ⟨⟨c, h⟩, hcollect, hafter⟩ := exists_of_bind_ok hrun
  obtain rfl := Except.ok.inj hafter
  obtain ⟨hraw, hpending, hkeeps⟩ :=
    Collector.raw_collect (Allocator.keptByFreeing_goesBy T) hg.raw hcollect
  exact ⟨⟨hraw, hg.reallocations, hg.failures, hg.minArraySize, hkeeps.trans hg.keepsGarbage⟩,
    hpending⟩

theorem free {size : Nat} (hg : m.GoesBy T) (hrun : m.free block size = .ok m') :
    m'.GoesBy T := by
  obtain ⟨h, hfree, hafter⟩ := exists_of_bind_ok hrun
  obtain rfl := Except.ok.inj hafter
  have hraw := Heap.raw_free (Allocator.keptByFreeing_goesBy T) hg.raw hfree
  exact ⟨hraw, hg.reallocations, hg.failures, hg.minArraySize, hg.keepsGarbage⟩

theorem discard (hg : m.GoesBy T) (block : Block) (size : Nat) : (m.discard block size).GoesBy T := by
  refine ⟨hg.raw, hg.reallocations, hg.failures, hg.minArraySize, ?_⟩
  rw [← hg.keepsGarbage, Manager.discard]
  cases m.collector <;> rfl

theorem setCollecting (hg : m.GoesBy T) (on : Bool) : (m.setCollecting on).GoesBy T := by
  refine ⟨hg.raw, hg.reallocations, hg.failures, hg.minArraySize, ?_⟩
  rw [← hg.keepsGarbage, Manager.setCollecting]
  cases m.collector <;> rfl

theorem setLimit (hg : m.GoesBy T) (limit : Nat) : (m.setLimit limit).GoesBy { T with limit } := by
  obtain ⟨b, s, hraw, hgrants, -, hlabels⟩ := hg.raw
  refine ⟨⟨{ b with limit }, s, ?_, hgrants, rfl, hlabels⟩, hg.reallocations, hg.failures,
    hg.minArraySize, hg.keepsGarbage⟩
  rw [Manager.setLimit, hraw]
  rfl

theorem shiftBaseline (hg : m.GoesBy T) (bytes : Int) : (m.shiftBaseline bytes).GoesBy T :=
  ⟨hg.raw, hg.reallocations, hg.failures, hg.minArraySize, hg.keepsGarbage⟩

theorem callRaw_zero (hg : m.GoesBy T) (block : Block) (oldSize : Nat) :
    (m.callRaw block oldSize 0).2.GoesBy T :=
  ⟨hg.raw.realloc_zero block oldSize, hg.reallocations, hg.failures, hg.minArraySize,
    hg.keepsGarbage⟩

/-- A raw call grants what fits beside all blocks, also those that wait. -/
theorem callRaw (hg : m.GoesBy T) (ho : m.Owes (block, block.held oldSize) counted owned shift)
    (hpos : 0 < newSize) :
    (m.callRaw block oldSize newSize).1.isLive =
        T.fits (Ledger.bytes (m.collector.pending ++ owned)) newSize ∧
      (m.callRaw block oldSize newSize).2.GoesBy
        (T.asked (Ledger.bytes (m.collector.pending ++ owned)) (!block.isLive) oldSize newSize) := by
  obtain ⟨hanswer, hraw⟩ := hg.raw.realloc ho.holds hpos
  exact ⟨hanswer, hraw, hg.reallocations, hg.failures, hg.minArraySize, hg.keepsGarbage⟩

/-- A first attempt that gives a block was granted.  One that fails, or is made to fail, was refused
for good only if there is no other attempt. -/
theorem firstTry (hg : m.GoesBy T) (ho : m.Owes (block, block.held oldSize) counted owned shift)
    (hpos : 0 < newSize) :
    ((m.firstTry block oldSize newSize).1.isLive = true →
        T.fits (Ledger.bytes owned) newSize = true ∧
          (m.firstTry block oldSize newSize).2.GoesBy
            (T.asked (Ledger.bytes owned) (!block.isLive) oldSize newSize)) ∧
      ((m.firstTry block oldSize newSize).1.isLive = false →
        (m.firstTry block oldSize newSize).2.GoesBy T ∧
          ((m.firstTry block oldSize newSize).2.canTryAgain = false →
            T.fits (Ledger.bytes owned) newSize = false)) := by
  rw [Manager.firstTry]
  by_cases hskip : m.skipsFirstTry newSize = true
  · rw [if_pos hskip]
    refine ⟨fun hlive => (by cases hlive), fun _ => ⟨hg, fun hcannot => ?_⟩⟩
    rw [skipsFirstTry, hcannot, Bool.and_false] at hskip
    cases hskip
  · rw [if_neg hskip]
    obtain ⟨hanswer, hafter⟩ := hg.callRaw ho hpos
    refine ⟨fun hlive => ?_, fun hfailed => ?_⟩
    · rw [hlive] at hanswer
      have hle : Ledger.bytes owned ≤ Ledger.bytes (m.collector.pending ++ owned) := by
        rw [Ledger.bytes_append]
        omega
      have hfits := Terms.fits_of_le hle hanswer.symm
      rw [Terms.asked_of_granted hanswer.symm hfits] at hafter
      exact ⟨hfits, hafter⟩
    · rw [hfailed] at hanswer
      rw [Terms.asked_of_refused hanswer.symm] at hafter
      refine ⟨hafter, fun hcannot => ?_⟩
      have hpending : m.collector.pending = [] := Collector.pending_of_not_canCollect hcannot
      rw [hpending] at hanswer
      exact hanswer.symm

/-- A second attempt is granted what fits beside the caller's blocks: those that wait are gone. -/
theorem tryAgain (hg : m.GoesBy T)
    (ho : m.Owes (block, block.held oldSize) (block, block.held oldSize) owned shift)
    (hpos : 0 < newSize)
    (hrefused : m.canTryAgain = false → T.fits (Ledger.bytes owned) newSize = false)
    (hrun : m.tryAgain block oldSize newSize = .ok (answer, m')) :
    answer.isLive = T.fits (Ledger.bytes owned) newSize ∧
      m'.GoesBy (T.asked (Ledger.bytes owned) (!block.isLive) oldSize newSize) := by
  rw [Manager.tryAgain] at hrun
  by_cases hcan : m.canTryAgain = true
  · have hb : ({ m with stats := { m.stats with
        emergencyCollections := m.stats.emergencyCollections + 1 } } : Manager).Balanced
        ((block, block.held oldSize) :: owned) shift := balanced_cons_iff.2 ho
    have hcounted : ({ m with stats := { m.stats with
        emergencyCollections := m.stats.emergencyCollections + 1 } } : Manager).GoesBy T :=
      ⟨hg.raw, hg.reallocations, hg.failures, hg.minArraySize, hg.keepsGarbage⟩
    obtain ⟨m₁, hcollect, hb₁⟩ := hb.fullCollection
    obtain ⟨hg₁, hpending⟩ := hcounted.fullCollection hcollect
    rw [if_pos hcan, emergencyCollection, hcollect] at hrun
    obtain ⟨hanswer, hafter⟩ := hg₁.callRaw (balanced_cons_iff.1 hb₁) hpos
    rw [hpending, List.nil_append] at hanswer hafter
    obtain ⟨rfl, rfl⟩ := Prod.mk.inj (Except.ok.inj hrun)
    exact ⟨hanswer, hafter⟩
  · rw [Bool.not_eq_true] at hcan
    rw [hcan] at hrun
    obtain ⟨rfl, rfl⟩ := Prod.mk.inj (Except.ok.inj hrun)
    rw [Terms.asked_of_refused (hrefused hcan), hrefused hcan]
    exact ⟨rfl, hg⟩

theorem countGrant (hg : m.GoesBy T) (block : Block) (oldSize : Nat) (hpos : 0 < newSize) :
    (m.countGrant block oldSize newSize).GoesBy
      { T with reallocations := T.reallocations + 1 } := by
  refine ⟨hg.raw, ?_, hg.failures, hg.minArraySize, hg.keepsGarbage⟩
  rw [Manager.countGrant, if_neg (Nat.ne_of_gt hpos)]
  exact congrArg (· + 1) hg.reallocations

theorem countFailure (hg : m.GoesBy T) :
    m.countFailure.GoesBy { T with failures := T.failures + 1 } :=
  ⟨hg.raw, hg.reallocations, congrArg (· + 1) hg.failures, hg.minArraySize, hg.keepsGarbage⟩

/-- The manager grants what fits beside the caller's blocks. -/
theorem tryRealloc {result : Option Block} (hg : m.GoesBy T)
    (hb : m.Balanced ((block, block.held oldSize) :: owned) shift)
    (hrun : m.tryRealloc block oldSize newSize = .ok (result, m')) :
    result.isSome = (T.resize (Ledger.bytes owned) (!block.isLive) oldSize newSize).1 ∧
      m'.GoesBy (T.resize (Ledger.bytes owned) (!block.isLive) oldSize newSize).2 := by
  rw [Manager.tryRealloc] at hrun
  rcases Nat.eq_zero_or_pos newSize with rfl | hpos
  · have hskip : m.skipsFirstTry 0 = false := by
      rw [skipsFirstTry, decide_eq_false (Nat.lt_irrefl 0), Bool.and_false, Bool.false_and]
    simp only [Manager.firstTry, hskip, Bool.false_eq_true, if_false, beq_self_eq_true,
      Bool.or_true, if_true] at hrun
    obtain ⟨rfl, rfl⟩ := Prod.mk.inj (Except.ok.inj hrun)
    have hfreed := hg.callRaw_zero block oldSize
    exact ⟨rfl, hfreed.raw, hfreed.reallocations, hfreed.failures, hfreed.minArraySize,
      hfreed.keepsGarbage⟩
  · have ho := balanced_cons_iff.1 hb
    obtain ⟨hgranted, hfailed⟩ := hg.firstTry ho hpos
    have hfirst := ho.firstTry newSize
    rcases htry : m.firstTry block oldSize newSize with ⟨first, m₁⟩
    rw [htry] at hgranted hfailed hfirst hrun
    have hsize : (newSize == 0) = false := by
      rw [beq_eq_false_iff_ne]
      omega
    cases hlive : first.isLive with
    | true =>
      simp only [hlive, Bool.true_or, if_true] at hrun
      obtain ⟨rfl, rfl⟩ := Prod.mk.inj (Except.ok.inj hrun)
      obtain ⟨hfits, hafter⟩ := hgranted hlive
      rw [Terms.resize_of_granted hpos hfits]
      exact ⟨rfl, hafter.countGrant block oldSize hpos⟩
    | false =>
      simp only [hlive, hsize, Bool.or_self, Bool.false_eq_true, if_false] at hrun
      obtain ⟨hg₁, hrefused⟩ := hfailed hlive
      rw [Ledger.settled_of_failed (by simp [hlive, hsize])] at hfirst
      obtain ⟨second, m₂, hagain, -⟩ := hfirst.tryAgain hpos
      obtain ⟨hanswer, hafter⟩ := hg₁.tryAgain hfirst hpos hrefused hagain
      rw [hagain] at hrun
      cases hlive₂ : second.isLive with
      | true =>
        rw [hlive₂] at hanswer
        simp only [bind, Except.bind, hlive₂, if_true] at hrun
        obtain ⟨rfl, rfl⟩ := Prod.mk.inj (Except.ok.inj hrun)
        rw [Terms.resize_of_granted hpos hanswer.symm]
        exact ⟨rfl, hafter.countGrant block oldSize hpos⟩
      | false =>
        rw [hlive₂] at hanswer
        simp only [bind, Except.bind, hlive₂, Bool.false_eq_true, if_false] at hrun
        obtain ⟨rfl, rfl⟩ := Prod.mk.inj (Except.ok.inj hrun)
        rw [Terms.asked_of_refused hanswer.symm] at hafter
        rw [Terms.resize_of_refused hpos hanswer.symm]
        exact ⟨rfl, hafter.countFailure⟩

/-- So it does where a failure has a name. -/
theorem realloc {result : Except AllocationFailure Block} (hg : m.GoesBy T)
    (hb : m.Balanced ((block, block.held oldSize) :: owned) shift)
    (hrun : m.realloc block oldSize newSize = .ok (result, m')) :
    result.map (fun _ => ()) =
        Terms.given (T.resize (Ledger.bytes owned) (!block.isLive) oldSize newSize).1 () ∧
      m'.GoesBy (T.resize (Ledger.bytes owned) (!block.isLive) oldSize newSize).2 := by
  obtain ⟨answer, m₁, htry, -⟩ := hb.tryRealloc newSize
  obtain ⟨hsome, hafter⟩ := hg.tryRealloc hb htry
  rw [Manager.realloc, htry] at hrun
  rw [← hsome]
  cases answer with
  | none =>
    obtain ⟨rfl, rfl⟩ := Prod.mk.inj (Except.ok.inj hrun)
    exact ⟨rfl, hafter⟩
  | some answer =>
    obtain ⟨rfl, rfl⟩ := Prod.mk.inj (Except.ok.inj hrun)
    exact ⟨rfl, hafter⟩

/-- A new block of no bytes is always given. -/
theorem allocateLabelled {result : Except AllocationFailure Block} {size label : Nat}
    (hg : m.GoesBy T) (hb : m.Balanced owned shift)
    (hrun : m.allocateLabelled size label = .ok (result, m')) :
    result.map (fun _ => ()) =
        Terms.given (T.resize (Ledger.bytes owned) true label size).1 () ∧
      m'.GoesBy (T.resize (Ledger.bytes owned) true label size).2 := by
  rw [Manager.allocateLabelled] at hrun
  split at hrun
  · rename_i hzero
    obtain ⟨rfl, rfl⟩ := Prod.mk.inj (Except.ok.inj hrun)
    rw [Terms.resize, if_pos hzero]
    exact ⟨rfl, hg⟩
  · have hnull : m.Balanced ((.null, Block.null.held label) :: owned) shift := hb.cons_null
    exact hg.realloc hnull hrun

theorem tryAllocate {result : Option Block} {size : Nat} (hg : m.GoesBy T)
    (hb : m.Balanced owned shift) (hrun : m.tryAllocate size = .ok (result, m')) :
    result.isSome = (T.resize (Ledger.bytes owned) true 0 size).1 ∧
      m'.GoesBy (T.resize (Ledger.bytes owned) true 0 size).2 := by
  have hnull : m.Balanced ((.null, Block.null.held 0) :: owned) shift := hb.cons_null
  exact hg.tryRealloc hnull hrun

end GoesBy

/-! ### Arrays -/

/-- Only the null block has no bytes. -/
theorem Balanced.isLive_eq {m : Manager} {owned : List (Block × Nat)} {shift : Int} {block : Block}
    {size : Nat} (hb : m.Balanced ((block, size) :: owned) shift) :
    (!block.isLive) = (size == 0) :=
  (balanced_cons_iff.1 hb).holds.isLive_eq

end Manager

/-- An array without its block. -/
def GrowingArray.outline (a : GrowingArray) : GrowingArray := { a with block := .null }

namespace Manager.GoesBy

variable {m m' : Manager} {T : Terms} {owned : List (Block × Nat)} {shift : Int} {a : GrowingArray}
  {result : Except AllocationFailure GrowingArray}

/-- A change of the capacity is granted on the same terms. -/
theorem resizeArray {capacity : Nat} (hg : m.GoesBy T) (hb : m.Balanced (a.entry :: owned) shift)
    (hrun : m.resizeArray a capacity = .ok (result, m')) :
    result.map GrowingArray.outline = (T.resizeArray (Ledger.bytes owned) a.outline capacity).1 ∧
      m'.GoesBy (T.resizeArray (Ledger.bytes owned) a.outline capacity).2 := by
  have hold : a.outline.byteSize a.outline.capacity = a.byteSize a.capacity := rfl
  have hnew : a.outline.byteSize capacity = a.byteSize capacity := rfl
  rw [Manager.resizeArray] at hrun
  rw [Terms.resizeArray, hold, hnew]
  cases hfrom : a.byteSize a.capacity with
  | error e =>
    rw [hfrom] at hrun
    obtain ⟨rfl, rfl⟩ := Prod.mk.inj (Except.ok.inj hrun)
    exact ⟨rfl, hg⟩
  | ok oldBytes =>
    cases hto : a.byteSize capacity with
    | error e =>
      rw [hfrom, hto] at hrun
      obtain ⟨rfl, rfl⟩ := Prod.mk.inj (Except.ok.inj hrun)
      exact ⟨rfl, hg⟩
    | ok newBytes =>
      obtain rfl := GrowingArray.eq_of_byteSize hfrom
      obtain ⟨answer, m₁, hrealloc, -⟩ := (Balanced.held hb).realloc newBytes
      obtain ⟨hanswer, hafter⟩ := hg.realloc (Balanced.held hb) hrealloc
      rw [Balanced.isLive_eq hb] at hanswer hafter
      rw [hfrom, hto] at hrun
      simp only [hrealloc] at hrun
      obtain ⟨rfl, rfl⟩ := Prod.mk.inj (Except.ok.inj hrun)
      refine ⟨?_, hafter⟩
      have hmap : (answer.map fun block => { a with block, capacity }).map GrowingArray.outline =
          answer.map fun _ => { a.outline with capacity } := by
        cases answer with
        | error e => rfl
        | ok block => rfl
      exact hmap.trans (Terms.map_eq_given hanswer fun _ => rfl)

theorem ensureCapacity {count limit : Nat} {what : String} (hg : m.GoesBy T)
    (hb : m.Balanced (a.entry :: owned) shift)
    (hrun : m.ensureCapacity a count limit what = .ok (result, m')) :
    result.map GrowingArray.outline =
        (T.ensureCapacity (Ledger.bytes owned) a.outline count limit what).1 ∧
      m'.GoesBy (T.ensureCapacity (Ledger.bytes owned) a.outline count limit what).2 := by
  have hcapacity : a.outline.capacity = a.capacity := rfl
  have hlimit : a.outline.elementLimit limit = a.elementLimit limit := rfl
  have hgrown : ∀ minimum, a.outline.grownCapacity (a.elementLimit limit) minimum =
      a.grownCapacity (a.elementLimit limit) minimum := fun _ => rfl
  rw [Manager.ensureCapacity] at hrun
  rw [Terms.ensureCapacity, hcapacity, hlimit, hgrown]
  split at hrun
  · rename_i hroom
    obtain ⟨rfl, rfl⟩ := Prod.mk.inj (Except.ok.inj hrun)
    rw [if_pos hroom]
    exact ⟨rfl, hg⟩
  · rename_i hfull
    simp only at hrun
    rw [if_neg hfull]
    split at hrun
    · rename_i hmost
      obtain ⟨rfl, rfl⟩ := Prod.mk.inj (Except.ok.inj hrun)
      rw [if_pos hmost]
      exact ⟨rfl, hg⟩
    · rename_i hless
      rw [if_neg hless, ← hg.minArraySize]
      exact hg.resizeArray hb hrun

theorem shrinkTo {count : Nat} (hg : m.GoesBy T) (hb : m.Balanced (a.entry :: owned) shift)
    (hrun : m.shrinkTo a count = .ok (result, m')) :
    result.map GrowingArray.outline = (T.resizeArray (Ledger.bytes owned) a.outline count).1 ∧
      m'.GoesBy (T.resizeArray (Ledger.bytes owned) a.outline count).2 :=
  hg.resizeArray hb hrun

end Manager.GoesBy

end VmInspect.Memory
