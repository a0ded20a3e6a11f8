import VmInspect.Memory.Growth
import VmInspect.Proofs.Memory.Ledger

/-!
# The books of the manager balance

The manager keeps the debt beside the allocator's books, and the collector keeps blocks that wait to
be freed.  This file proves, for each operation of the manager, that the allocator and the debt both
go by the same ledger afterwards: the caller's blocks and those that wait.

* `Heap.Balanced.free` — a block of the ledger can always be freed.
* `Manager.Balanced.fullCollection` — and so can all blocks that wait.
* `Manager.Balanced.tryRealloc` — a resize settles the entry of its block, whether or not it had to
  collect, and whether or not it failed.
* `Manager.Balanced.resizeArray` — so does a change of the capacity of an array.
-/

namespace VmInspect.Memory

/-! ## The heap -/

/-- The allocator, a budget, goes by one ledger, and the debt, from the first baseline on, by
another. -/
structure Heap.Keeps (h : Heap) (owned counted : List (Block × Nat)) (shift : Int) : Prop where
  budgeted : h.raw.budget?.isSome = true
  holds : h.raw.Holds owned
  debt : h.debt + shift = Ledger.bytes counted

/-- The allocator and the debt go by the same ledger. -/
def Heap.Balanced (h : Heap) (owned : List (Block × Nat)) (shift : Int) : Prop :=
  h.Keeps owned owned shift

namespace Heap

variable {h : Heap} {owned owned' counted : List (Block × Nat)} {shift : Int} {block : Block}
  {oldSize size : Nat}

/-- A raw call leaves the debt behind. -/
theorem Keeps.callRaw (hk : h.Keeps ((block, block.held oldSize) :: owned) counted shift)
    (newSize : Nat) :
    (h.callRaw block oldSize newSize).2.Keeps
      (Ledger.settled block (block.held oldSize) (h.callRaw block oldSize newSize).1 newSize ::
        owned) counted shift :=
  ⟨(Allocator.isSome_budget?_realloc ..).trans hk.budgeted, hk.holds.realloc newSize, hk.debt⟩

/-- Charging makes up for it. -/
theorem Keeps.charge (hk : h.Keeps owned ((block, oldSize) :: counted) shift) (answer : Block)
    (newSize : Nat) :
    (h.charge oldSize newSize).Keeps owned ((answer, newSize) :: counted) shift := by
  refine ⟨hk.budgeted, hk.holds, ?_⟩
  have hdebt := hk.debt
  rw [Ledger.bytes_cons] at hdebt ⊢
  rw [Heap.charge]
  push_cast at hdebt ⊢
  omega

theorem Balanced.perm (hb : h.Balanced owned shift) (hp : owned.Perm owned') :
    h.Balanced owned' shift :=
  ⟨hb.budgeted, hb.holds.perm hp, by rw [hb.debt, Ledger.bytes_perm hp]⟩

/-- A block of the ledger can be freed. -/
theorem Balanced.free (hb : h.Balanced ((block, size) :: owned) shift) :
    ∃ h', h.free block size = .ok h' ∧ h'.Balanced owned shift := by
  have hkeeps : h.Keeps ((block, block.held size) :: owned) ((block, size) :: owned) shift := by
    rw [hb.holds.held_eq]
    exact hb
  have hcall := (hkeeps.callRaw 0).charge .null 0
  rw [Ledger.settled_of_done (by simp)] at hcall
  refine ⟨_, by rw [Heap.free, if_pos hb.holds.isLive_eq.symm], hcall.budgeted, hcall.holds.tail_zero, ?_⟩
  rw [hcall.debt, Ledger.bytes_cons, Nat.zero_add]

/-- So can any blocks of the ledger, one after another. -/
theorem Balanced.freeAll (pending : List (Block × Nat)) (hb : h.Balanced (pending ++ owned) shift) :
    ∃ h', Collector.freeAll h pending = .ok h' ∧ h'.Balanced owned shift := by
  induction pending generalizing h with
  | nil => exact ⟨h, rfl, hb⟩
  | cons entry pending ih =>
    obtain ⟨block, size⟩ := entry
    obtain ⟨h₁, hfree, hb₁⟩ := Balanced.free hb
    obtain ⟨h₂, hrest, hb₂⟩ := ih hb₁
    refine ⟨h₂, ?_, hb₂⟩
    rw [Collector.freeAll, hfree]
    exact hrest

end Heap

/-! ## Collections -/

/-- The blocks that wait to be freed. -/
def Collector.pending : Collector → List (Block × Nat)
  | idle _ _ => []
  | garbage pending _ => pending

theorem Collector.pendingBytes_eq (c : Collector) : c.pendingBytes = Ledger.bytes c.pending := by
  cases c with
  | idle complete collecting => rfl
  | garbage pending n =>
    rw [pendingBytes, Collector.pending, Ledger.bytes, List.sum_eq_foldr, List.foldr_map]

/-- A collection frees what waits and leaves the rest of the ledger alone. -/
theorem Collector.collect_balanced (c : Collector) {h : Heap} {owned : List (Block × Nat)}
    {shift : Int} (hb : h.Balanced (c.pending ++ owned) shift) :
    ∃ c' h', c.collect h = .ok (c', h') ∧ h'.Balanced (c'.pending ++ owned) shift := by
  cases c with
  | idle complete collecting => exact ⟨_, h, rfl, hb⟩
  | garbage pending n =>
    obtain ⟨h', hfree, hb'⟩ := hb.freeAll pending
    refine ⟨.garbage [] (n + 1), h', ?_, hb'⟩
    rw [Collector.collect, hfree]
    rfl

/-! ## Arrays -/

/-- The entry of an array. -/
def GrowingArray.entry (a : GrowingArray) : Block × Nat := (a.block, a.capacity * a.elementSize)

theorem GrowingArray.eq_of_byteSize {a : GrowingArray} {count bytes : Nat}
    (h : a.byteSize count = .ok bytes) : count * a.elementSize = bytes := by
  rw [GrowingArray.byteSize] at h
  split at h
  · exact Except.ok.inj h
  · cases h

/-- The bytes of an array are those that a block can have. -/
theorem GrowingArray.le_maxBytes {a : GrowingArray} {count bytes : Nat}
    (h : a.byteSize count = .ok bytes) : bytes ≤ maxBytes := by
  rw [GrowingArray.byteSize] at h
  split at h
  · rename_i hle
    rw [← Except.ok.inj h]
    exact hle
  · cases h

/-! ## The manager -/

namespace Manager

/-- The allocator goes by a ledger with one entry for a block in question, the debt by a ledger
with another one.  The rest of both are the blocks that wait and the caller's. -/
def Owes (m : Manager) (raw counted : Block × Nat) (owned : List (Block × Nat)) (shift : Int) :
    Prop :=
  m.heap.Keeps (raw :: (m.collector.pending ++ owned)) (counted :: (m.collector.pending ++ owned))
    shift

/-- The allocator and the debt go by the same ledger: the blocks that wait and the caller's. -/
def Balanced (m : Manager) (owned : List (Block × Nat)) (shift : Int) : Prop :=
  m.heap.Balanced (m.collector.pending ++ owned) shift

variable {m : Manager} {owned owned' : List (Block × Nat)} {shift : Int} {block : Block}
  {oldSize size : Nat}

theorem balanced_cons_iff {e : Block × Nat} :
    m.Balanced (e :: owned) shift ↔ m.Owes e e owned shift :=
  ⟨fun hb => Heap.Balanced.perm hb List.perm_middle,
    fun hb => Heap.Balanced.perm hb List.perm_middle.symm⟩

namespace Balanced

theorem perm (hb : m.Balanced owned shift) (hp : owned.Perm owned') : m.Balanced owned' shift :=
  Heap.Balanced.perm hb (hp.append_left _)

theorem held_eq (hb : m.Balanced ((block, size) :: owned) shift) : block.held size = size :=
  (balanced_cons_iff.1 hb).holds.held_eq

theorem held (hb : m.Balanced ((block, size) :: owned) shift) :
    m.Balanced ((block, block.held size) :: owned) shift := by
  rw [hb.held_eq]
  exact hb

theorem cons_null (hb : m.Balanced owned shift) : m.Balanced ((.null, 0) :: owned) shift := by
  refine balanced_cons_iff.2 ⟨hb.budgeted, hb.holds.cons_null, ?_⟩
  rw [hb.debt, Ledger.bytes_cons, Nat.zero_add]

theorem tail_zero (hb : m.Balanced ((block, 0) :: owned) shift) : m.Balanced owned shift := by
  have ho := balanced_cons_iff.1 hb
  refine ⟨ho.budgeted, ho.holds.tail_zero, ?_⟩
  rw [ho.debt, Ledger.bytes_cons, Nat.zero_add]

/-- Blocks that are handed over wait, and the ledger is as it was. -/
theorem discard (hb : m.Balanced ((block, size) :: owned) shift) {pending : List (Block × Nat)}
    {n : Nat} (hc : m.collector = .garbage pending n) :
    (m.discard block size).Balanced owned shift := by
  rw [Balanced, hc] at hb
  rw [Balanced, Manager.discard, hc, Collector.discard]
  simp only [Collector.pending, List.append_assoc] at hb ⊢
  exact hb

theorem setCollecting (hb : m.Balanced owned shift) (on : Bool) :
    (m.setCollecting on).Balanced owned shift := by
  rw [Balanced, Manager.setCollecting]
  cases hc : m.collector with
  | idle complete collecting =>
    rw [Balanced, hc] at hb
    exact hb
  | garbage pending n =>
    rw [Balanced, hc] at hb
    exact hb

theorem setLimit (hb : m.Balanced owned shift) (limit : Nat) :
    (m.setLimit limit).Balanced owned shift :=
  ⟨(Allocator.isSome_budget?_setLimit ..).trans hb.budgeted, hb.holds.setLimit limit, hb.debt⟩

/-- A shift of the baseline is made up for by counting it. -/
theorem shiftBaseline (hb : m.Balanced owned shift) (bytes : Int) :
    (m.shiftBaseline bytes).Balanced owned (shift + bytes) := by
  refine ⟨hb.budgeted, hb.holds, Eq.trans ?_ hb.debt⟩
  simp only [Manager.shiftBaseline, Heap.shiftBaseline]
  omega

theorem fullCollection (hb : m.Balanced owned shift) :
    ∃ m', m.fullCollection = .ok m' ∧ m'.Balanced owned shift := by
  obtain ⟨c, h, hcollect, hb'⟩ := m.collector.collect_balanced hb
  refine ⟨{ m with collector := c, heap := h }, ?_, hb'⟩
  rw [Manager.fullCollection, hcollect]
  rfl

theorem free (hb : m.Balanced ((block, size) :: owned) shift) :
    ∃ m', m.free block size = .ok m' ∧ m'.Balanced owned shift := by
  obtain ⟨h, hfree, hb'⟩ := Heap.Balanced.free (balanced_cons_iff.1 hb)
  refine ⟨{ m with heap := h }, ?_, hb'⟩
  rw [Manager.free, hfree]
  rfl

end Balanced

/-! ### Requests -/

namespace Owes

theorem callRaw (ho : m.Owes (block, block.held oldSize) (block, block.held oldSize) owned shift)
    (newSize : Nat) :
    (m.callRaw block oldSize newSize).2.Owes
      (Ledger.settled block (block.held oldSize) (m.callRaw block oldSize newSize).1 newSize)
      (block, block.held oldSize) owned shift :=
  Heap.Keeps.callRaw ho newSize

/-- The first attempt settles the entry of the block in the allocator's books only. -/
theorem firstTry (ho : m.Owes (block, block.held oldSize) (block, block.held oldSize) owned shift)
    (newSize : Nat) :
    (m.firstTry block oldSize newSize).2.Owes
      (Ledger.settled block (block.held oldSize) (m.firstTry block oldSize newSize).1 newSize)
      (block, block.held oldSize) owned shift := by
  by_cases hskip : m.skipsFirstTry newSize = true
  · have hpos : 0 < newSize := by
      simp only [Manager.skipsFirstTry, Bool.and_eq_true, decide_eq_true_eq] at hskip
      exact hskip.1.2
    rw [Manager.firstTry, if_pos hskip, Ledger.settled_null hpos]
    exact ho
  · rw [Manager.firstTry, if_neg hskip]
    exact ho.callRaw newSize

/-- So does the second one, after a collection that frees what waits. -/
theorem tryAgain (ho : m.Owes (block, block.held oldSize) (block, block.held oldSize) owned shift)
    {newSize : Nat} (hpos : 0 < newSize) :
    ∃ answer m', m.tryAgain block oldSize newSize = .ok (answer, m') ∧
      m'.Owes (Ledger.settled block (block.held oldSize) answer newSize)
        (block, block.held oldSize) owned shift := by
  by_cases hcan : m.canTryAgain = true
  · have hb : ({ m with stats := { m.stats with
        emergencyCollections := m.stats.emergencyCollections + 1 } } : Manager).Balanced
        ((block, block.held oldSize) :: owned) shift := balanced_cons_iff.2 ho
    obtain ⟨m', hcollect, hb'⟩ := hb.fullCollection
    refine ⟨_, _, ?_, (balanced_cons_iff.1 hb').callRaw newSize⟩
    rw [Manager.tryAgain, if_pos hcan, Manager.emergencyCollection, hcollect]
    rfl
  · refine ⟨.null, m, ?_, ?_⟩
    · rw [Manager.tryAgain, if_neg hcan]
      rfl
    · rw [Ledger.settled_null hpos]
      exact ho

/-- Counting a grant settles the entry in the debt too. -/
theorem countGrant {answer : Block} {newSize : Nat}
    (ho : m.Owes (answer, newSize) (block, block.held oldSize) owned shift) :
    (m.countGrant block oldSize newSize).Balanced ((answer, newSize) :: owned) shift :=
  balanced_cons_iff.2 (Heap.Keeps.charge ho answer newSize)

/-- Counting a failure changes no books. -/
theorem countFailure {e : Block × Nat} (ho : m.Owes e e owned shift) :
    m.countFailure.Balanced (e :: owned) shift :=
  balanced_cons_iff.2 ho

end Owes

/-- The entry of a block after a resize that gave a block or failed. -/
def resized (e : Block × Nat) (result : Option Block) (newSize : Nat) : Block × Nat :=
  match result with
  | some block => (block, newSize)
  | none => e

namespace Balanced

/-- A resize settles the entry of its block. -/
theorem tryRealloc (hb : m.Balanced ((block, block.held oldSize) :: owned) shift) (newSize : Nat) :
    ∃ result m', m.tryRealloc block oldSize newSize = .ok (result, m') ∧
      m'.Balanced (resized (block, block.held oldSize) result newSize :: owned) shift := by
  have hfirst := (balanced_cons_iff.1 hb).firstTry newSize
  rcases htry : m.firstTry block oldSize newSize with ⟨answer, m₁⟩
  rw [htry] at hfirst
  by_cases hdone : (answer.isLive || newSize == 0) = true
  · rw [Ledger.settled_of_done hdone] at hfirst
    refine ⟨some answer, m₁.countGrant block oldSize newSize, ?_, hfirst.countGrant⟩
    rw [Manager.tryRealloc, htry]
    simp only [hdone, if_true]
    rfl
  · have hpos : 0 < newSize := by
      simp only [Bool.or_eq_true, beq_iff_eq, not_or] at hdone
      exact Nat.pos_of_ne_zero hdone.2
    rw [Ledger.settled_of_failed hdone] at hfirst
    obtain ⟨answer₂, m₂, hagain, hsecond⟩ := hfirst.tryAgain hpos
    have hrun : m.tryRealloc block oldSize newSize =
        if answer₂.isLive then .ok (some answer₂, m₂.countGrant block oldSize newSize)
        else .ok (none, m₂.countFailure) := by
      rw [Manager.tryRealloc, htry]
      simp only [hdone, Bool.false_eq_true, if_false, hagain]
      rfl
    by_cases hlive : answer₂.isLive = true
    · rw [Ledger.settled_of_done (by simp [hlive])] at hsecond
      exact ⟨some answer₂, _, by rw [hrun, if_pos hlive], hsecond.countGrant⟩
    · rw [Ledger.settled_of_failed (by simp [hlive]; omega)] at hsecond
      exact ⟨none, _, by rw [hrun, if_neg hlive], hsecond.countFailure⟩

theorem realloc (hb : m.Balanced ((block, block.held oldSize) :: owned) shift) (newSize : Nat) :
    ∃ result m', m.realloc block oldSize newSize = .ok (result, m') ∧
      m'.Balanced (resized (block, block.held oldSize) result.toOption newSize :: owned) shift := by
  obtain ⟨result, m', htry, hb'⟩ := hb.tryRealloc newSize
  cases result with
  | none =>
    refine ⟨.error .outOfMemory, m', ?_, hb'⟩
    rw [Manager.realloc, htry]
    rfl
  | some answer =>
    refine ⟨.ok answer, m', ?_, hb'⟩
    rw [Manager.realloc, htry]
    rfl

/-- A new block is an entry of its own, and a failure is none. -/
theorem allocateLabelled (hb : m.Balanced owned shift) (size label : Nat) :
    ∃ result m', m.allocateLabelled size label = .ok (result, m') ∧
      m'.Balanced (resized (.null, 0) result.toOption size :: owned) shift := by
  by_cases hsize : size = 0
  · refine ⟨.ok .null, m, ?_, ?_⟩
    · rw [Manager.allocateLabelled, if_pos hsize]
      rfl
    · rw [hsize]
      exact hb.cons_null
  · have hnull : m.Balanced ((.null, Block.null.held label) :: owned) shift := hb.cons_null
    obtain ⟨result, m', hrun, hb'⟩ := hnull.realloc size
    exact ⟨result, m', by rw [Manager.allocateLabelled, if_neg hsize, hrun], hb'⟩

theorem tryAllocate (hb : m.Balanced owned shift) (size : Nat) :
    ∃ result m', m.tryAllocate size = .ok (result, m') ∧
      m'.Balanced (resized (.null, 0) result size :: owned) shift := by
  have hnull : m.Balanced ((.null, Block.null.held 0) :: owned) shift := hb.cons_null
  exact hnull.tryRealloc size

end Balanced

/-! ### Arrays -/

namespace Balanced

variable {a : GrowingArray}

/-- A change of the capacity settles the entry of the array, and a failure leaves the array as it
was. -/
theorem resizeArray (hb : m.Balanced (a.entry :: owned) shift) (capacity : Nat) :
    ∃ result m', m.resizeArray a capacity = .ok (result, m') ∧
      m'.Balanced ((result.toOption.getD a).entry :: owned) shift := by
  rw [Manager.resizeArray]
  cases hold : a.byteSize a.capacity with
  | error e => exact ⟨.error e, m, rfl, hb⟩
  | ok oldBytes =>
    cases hnew : a.byteSize capacity with
    | error e => exact ⟨.error e, m, rfl, hb⟩
    | ok newBytes =>
      obtain rfl := GrowingArray.eq_of_byteSize hold
      obtain rfl := GrowingArray.eq_of_byteSize hnew
      have hheld : a.block.held (a.capacity * a.elementSize) = a.capacity * a.elementSize :=
        hb.held_eq
      obtain ⟨result, m', hrun, hb'⟩ := (Balanced.held hb).realloc (capacity * a.elementSize)
      refine ⟨result.map fun block => { a with block, capacity }, m', ?_, ?_⟩
      · simp only [hrun]
        rfl
      · cases result with
        | error e =>
          rw [hheld] at hb'
          exact hb'
        | ok block => exact hb'

theorem ensureCapacity (hb : m.Balanced (a.entry :: owned) shift) (count limit : Nat)
    (what : String) :
    ∃ result m', m.ensureCapacity a count limit what = .ok (result, m') ∧
      m'.Balanced ((result.toOption.getD a).entry :: owned) shift := by
  rw [Manager.ensureCapacity]
  split
  · exact ⟨.ok a, m, rfl, hb⟩
  · simp only
    split
    · exact ⟨.error (.limitExceeded what (a.elementLimit limit)), m, rfl, hb⟩
    · exact hb.resizeArray _

theorem shrinkTo (hb : m.Balanced (a.entry :: owned) shift) (count : Nat) :
    ∃ result m', m.shrinkTo a count = .ok (result, m') ∧
      m'.Balanced ((result.toOption.getD a).entry :: owned) shift :=
  hb.resizeArray count

end Balanced

end Manager

end VmInspect.Memory
