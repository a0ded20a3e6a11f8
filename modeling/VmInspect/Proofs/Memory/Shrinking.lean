import VmInspect.Proofs.Memory.Arrays

/-!
# Giving bytes back

Whoever shrinks a block asks for fewer bytes than the block has, and a system that never refuses this
does not make it safe: a budget refuses every request that would leave more bytes in use than its
limit, and the limit may have been lowered since the block was given.  Only to free a block is never
refused.  This file proves when a block can be shrunk:

* `Manager.Balanced.isSome_tryRealloc` — a request is granted when the system says yes to it, and every
  limit has room for it beside the other blocks of the caller.  What waits to be freed does not count.
* `Client.Within.perform`, `Client.Within.run` — through any requests there is one limit, the system
  answers by the same rule, and no array is larger than a block can be.
* `Client.run_shrinks_within_limit` — after any requests a block can be shrunk exactly when the bytes
  held afterwards are within the limit, and an array when they are, or when none are left of it.
-/

namespace VmInspect.Memory

/-! ## What requests keep -/

namespace Allocator

/-- A property of allocators that they keep through every request. -/
def Kept (P : Allocator → Prop) : Prop :=
  ∀ (a : Allocator) (block : Block) (oldSize newSize : Nat),
    P a → P (a.realloc block oldSize newSize).2

theorem Kept.byFreeing {P : Allocator → Prop} (hkept : Kept P) : KeptByFreeing P :=
  fun a block size => hkept a block size 0

/-- The limits and the rule by which the system answers are kept. -/
theorem kept_limits_grants (Q : List Nat → (Nat → Nat → Nat → Bool) → Prop) :
    Kept fun a => Q a.limits a.bottom.grants := by
  intro a block oldSize newSize h
  simp only [limits_realloc, grants_bottom_realloc]
  exact h

/-- One budget on a system that answers by a rule. -/
def OneBudget (grants : Nat → Nat → Nat → Bool) (a : Allocator) : Prop :=
  a.limits.length = 1 ∧ a.bottom.grants = grants

namespace OneBudget

variable {grants : Nat → Nat → Nat → Bool} {a : Allocator}

theorem kept : Kept (OneBudget grants) :=
  kept_limits_grants fun limits rule => limits.length = 1 ∧ rule = grants

theorem setLimit (h : a.OneBudget grants) (limit : Nat) : (a.setLimit limit).OneBudget grants := by
  cases a with
  | system s => exact h
  | budgeted b inner => exact h

end OneBudget

end Allocator

namespace Manager

variable {m m' before : Manager} {block : Block} {oldSize newSize : Nat} {P : Allocator → Prop}

/-- After a full collection nothing waits. -/
theorem raw_fullCollection (hkept : Allocator.KeptByFreeing P) (hraw : P m.heap.raw)
    (hrun : m.fullCollection = .ok m') : P m'.heap.raw ∧ m'.collector.pending = [] := by
  obtain ⟨⟨c, h⟩, hcollect, hafter⟩ := exists_of_bind_ok hrun
  obtain rfl := Except.ok.inj hafter
  obtain ⟨hraw', hpending, -⟩ := Collector.raw_collect hkept hraw hcollect
  exact ⟨hraw', hpending⟩

theorem raw_emergencyCollection (hkept : Allocator.KeptByFreeing P) (hraw : P m.heap.raw)
    (hrun : m.emergencyCollection = .ok m') : P m'.heap.raw ∧ m'.collector.pending = [] := by
  refine raw_fullCollection hkept ?_ hrun
  exact hraw

theorem raw_firstTry (hkept : Allocator.Kept P) (hraw : P m.heap.raw) (block : Block)
    (oldSize newSize : Nat) : P (m.firstTry block oldSize newSize).2.heap.raw := by
  rw [firstTry]
  split
  · exact hraw
  · exact hkept m.heap.raw block oldSize newSize hraw

theorem raw_beforeSettling (hkept : Allocator.Kept P) (hraw : P m.heap.raw)
    (hrun : m.beforeSettling block oldSize newSize = .ok before) : P before.heap.raw := by
  rw [beforeSettling] at hrun
  split at hrun
  · exact (raw_emergencyCollection hkept.byFreeing
      (raw_firstTry hkept hraw block oldSize newSize) hrun).1
  · obtain rfl := Except.ok.inj hrun
    exact hraw

theorem raw_settleRaw (hkept : Allocator.Kept P) (hraw : P m.heap.raw) (block : Block)
    (oldSize newSize : Nat) : P (m.settleRaw block oldSize newSize).2.heap.raw := by
  have hcall := hkept m.heap.raw block oldSize newSize hraw
  rw [settleRaw]
  simp only
  split
  · exact hcall
  · exact hcall

theorem raw_tryRealloc (hkept : Allocator.Kept P) {result : Option Block} (hraw : P m.heap.raw)
    (hrun : m.tryRealloc block oldSize newSize = .ok (result, m')) : P m'.heap.raw := by
  rcases Nat.eq_zero_or_pos newSize with rfl | hpos
  · rw [tryRealloc_zero] at hrun
    obtain ⟨-, rfl⟩ := Prod.mk.inj (Except.ok.inj hrun)
    exact hkept m.heap.raw block oldSize 0 hraw
  · rw [tryRealloc_of_pos m block oldSize hpos] at hrun
    obtain ⟨before, hbefore, hafter⟩ := exists_of_bind_ok hrun
    have hsettled : before.settleRaw block oldSize newSize = (result, m') := Except.ok.inj hafter
    have hraw' := raw_settleRaw hkept (raw_beforeSettling hkept hraw hbefore) block oldSize newSize
    rw [hsettled] at hraw'
    exact hraw'

theorem raw_realloc (hkept : Allocator.Kept P) {result : Except AllocationFailure Block}
    (hraw : P m.heap.raw) (hrun : m.realloc block oldSize newSize = .ok (result, m')) :
    P m'.heap.raw := by
  obtain ⟨⟨answer, m₁⟩, htry, hafter⟩ := exists_of_bind_ok hrun
  have hraw' := raw_tryRealloc hkept hraw htry
  cases answer with
  | none =>
    obtain ⟨-, rfl⟩ := Prod.mk.inj (Except.ok.inj hafter)
    exact hraw'
  | some answer =>
    obtain ⟨-, rfl⟩ := Prod.mk.inj (Except.ok.inj hafter)
    exact hraw'

theorem raw_allocateLabelled (hkept : Allocator.Kept P) {size label : Nat}
    {result : Except AllocationFailure Block} (hraw : P m.heap.raw)
    (hrun : m.allocateLabelled size label = .ok (result, m')) : P m'.heap.raw := by
  rw [allocateLabelled] at hrun
  split at hrun
  · obtain ⟨-, rfl⟩ := Prod.mk.inj (Except.ok.inj hrun)
    exact hraw
  · exact raw_realloc hkept hraw hrun

end Manager

/-- An array that is no larger than a block can be. -/
def GrowingArray.FitsBlock (a : GrowingArray) : Prop := a.capacity * a.elementSize ≤ maxBytes

theorem GrowingArray.FitsBlock.byteSize {a : GrowingArray} (h : a.FitsBlock) {count : Nat}
    (hle : count ≤ a.capacity) : a.byteSize count = .ok (count * a.elementSize) := by
  rw [GrowingArray.byteSize, if_pos]
  exact le_trans (Nat.mul_le_mul_right _ hle) h

namespace Manager

variable {m m' : Manager} {P : Allocator → Prop} {a : GrowingArray}
  {result : Except AllocationFailure GrowingArray}

theorem raw_resizeArray {capacity : Nat} (hkept : Allocator.Kept P) (hraw : P m.heap.raw)
    (hrun : m.resizeArray a capacity = .ok (result, m')) :
    P m'.heap.raw ∧ ∀ a', result = .ok a' → a'.FitsBlock := by
  rcases resizeArray_cases hrun with ⟨rfl, e, rfl⟩ | ⟨hfits, answer, hrealloc, rfl⟩
  · refine ⟨hraw, ?_⟩
    intro a' ha
    cases ha
  · refine ⟨raw_realloc hkept hraw hrealloc, ?_⟩
    intro a' ha
    cases answer with
    | error e => cases ha
    | ok block =>
      obtain rfl := Except.ok.inj ha
      exact hfits

theorem raw_ensureCapacity {count limit : Nat} {what : String} (hkept : Allocator.Kept P)
    (hraw : P m.heap.raw) (hfits : a.FitsBlock)
    (hrun : m.ensureCapacity a count limit what = .ok (result, m')) :
    P m'.heap.raw ∧ ∀ a', result = .ok a' → a'.FitsBlock := by
  rw [ensureCapacity] at hrun
  split at hrun
  · obtain ⟨rfl, rfl⟩ := Prod.mk.inj (Except.ok.inj hrun)
    refine ⟨hraw, ?_⟩
    intro a' ha
    obtain rfl := Except.ok.inj ha
    exact hfits
  · simp only at hrun
    split at hrun
    · obtain ⟨rfl, rfl⟩ := Prod.mk.inj (Except.ok.inj hrun)
      refine ⟨hraw, ?_⟩
      intro a' ha
      cases ha
    · exact raw_resizeArray hkept hraw hrun

end Manager

/-! ## When a request is granted -/

namespace Manager

variable {m before : Manager} {owned : List (Block × Nat)} {shift : Int} {block : Block}
  {oldSize newSize : Nat}

/-- A request that collects fails in its first attempt. -/
theorem isLive_firstTry_of_collectsFor (hpos : 0 < newSize)
    (hcollects : m.collectsFor block oldSize newSize = true) :
    (m.firstTry block oldSize newSize).1.isLive = false := by
  simp only [collectsFor, Bool.and_eq_true, Bool.or_eq_true, Bool.not_eq_true'] at hcollects
  obtain ⟨hcan, hstress | hdead⟩ := hcollects
  · have hskip : m.skipsFirstTry newSize = true := by
      rw [skipsFirstTry, hstress, hcan, decide_eq_true hpos]
      rfl
    rw [firstTry_of_skipped hskip]
    rfl
  · rw [firstTry]
    split
    · rfl
    · exact hdead

/-- When a request is settled the books balance, with the block as it was. -/
theorem Balanced.beforeSettling (hb : m.Balanced ((block, block.held oldSize) :: owned) shift)
    (hpos : 0 < newSize) :
    ∃ before, m.beforeSettling block oldSize newSize = .ok before ∧
      before.Balanced ((block, block.held oldSize) :: owned) shift := by
  rw [Manager.beforeSettling]
  split
  · rename_i hcollects
    have hdead := isLive_firstTry_of_collectsFor hpos hcollects
    have hfirst := (balanced_cons_iff.1 hb).firstTry newSize
    rw [Ledger.settled_of_failed (by simp [hdead]; omega)] at hfirst
    exact Balanced.fullCollection (balanced_cons_iff.2 hfirst)
  · exact ⟨m, rfl, hb⟩

namespace Balanced

variable {limit : Nat}

end Balanced

end Manager

/-! ## Callers -/

namespace Client

/-- A client of one budget on a system that answers by a rule, with arrays that are no larger than a
block can be. -/
structure Within (c : Client) (grants : Nat → Nat → Nat → Bool) : Prop where
  raw : c.manager.heap.raw.OneBudget grants
  fits : ∀ a, .array a ∈ c.held → a.FitsBlock

namespace Within

variable {c c' : Client} {grants : Nat → Nat → Nat → Bool} {m : Manager} {i : Nat}

theorem keepNew (hw : c.Within grants) (hm : m.heap.raw.OneBudget grants) (size : Nat)
    (result : Except AllocationFailure Block) : (c.keepNew size (result, m)).2.Within grants := by
  cases result with
  | error e => exact ⟨hm, hw.fits⟩
  | ok block =>
    refine ⟨hm, ?_⟩
    intro a ha
    rcases List.mem_append.1 ha with ha | ha
    · exact hw.fits a ha
    · cases List.mem_singleton.1 ha

theorem settle {result : Except AllocationFailure Holding} (hw : c.Within grants)
    (hm : m.heap.raw.OneBudget grants) (hfits : ∀ a, result = .ok (.array a) → a.FitsBlock)
    (i : Nat) : (c.settle i (result, m)).2.Within grants := by
  cases result with
  | error e => exact ⟨hm, hw.fits⟩
  | ok h =>
    refine ⟨hm, ?_⟩
    intro a ha
    rcases List.mem_or_eq_of_mem_set ha with ha | rfl
    · exact hw.fits a ha
    · exact hfits a rfl

/-- A block that is resized is no array. -/
theorem settleBlock (hw : c.Within grants) (hm : m.heap.raw.OneBudget grants)
    (result : Except AllocationFailure Block) (i newSize : Nat) :
    (c.settle i (result.map fun block => .block block newSize, m)).2.Within grants := by
  refine hw.settle hm ?_ i
  intro a ha
  cases result with
  | error e => cases ha
  | ok block => cases ha

theorem settleArray {result : Except AllocationFailure GrowingArray} (hw : c.Within grants)
    (hm : m.heap.raw.OneBudget grants) (hfits : ∀ a, result = .ok a → a.FitsBlock) (i : Nat) :
    (c.settle i (result.map .array, m)).2.Within grants := by
  refine hw.settle hm ?_ i
  intro a ha
  cases result with
  | error e => cases ha
  | ok a' =>
    obtain rfl := Holding.array.inj (Except.ok.inj ha)
    exact hfits _ rfl

/-! ### Requests -/

theorem askNew {α : Type} {size : Nat} {outcome : α → Except AllocationFailure Block}
    {op : Except Misuse (α × Manager)} {answer : Answer} (hw : c.Within grants)
    (hop : ∀ result m, op = .ok (result, m) → m.heap.raw.OneBudget grants)
    (hrun : c.askNew size outcome op = .ok (answer, c')) : c'.Within grants := by
  obtain ⟨⟨result, m⟩, hinner, hafter⟩ := exists_of_bind_ok hrun
  have hkept := hw.keepNew (hop result m hinner) size (outcome result)
  rw [Except.ok.inj hafter] at hkept
  exact hkept

theorem askBlock {α : Type} {newSize : Nat} {outcome : α → Except AllocationFailure Block}
    {op : Block → Nat → Except Misuse (α × Manager)} {answer : Answer} (hw : c.Within grants)
    (hop : ∀ block size result m, op block size = .ok (result, m) → m.heap.raw.OneBudget grants)
    (hrun : c.askBlock i newSize outcome op = .ok (answer, c')) : c'.Within grants := by
  rw [Client.askBlock] at hrun
  split at hrun
  · obtain ⟨⟨result, m⟩, hinner, hafter⟩ := exists_of_bind_ok hrun
    have hsettled := hw.settleBlock (hop _ _ result m hinner) (outcome result) i newSize
    rw [Except.ok.inj hafter] at hsettled
    exact hsettled
  · obtain ⟨-, rfl⟩ := Prod.mk.inj (Except.ok.inj hrun)
    exact hw

theorem askArray {op : GrowingArray → Except Misuse (Except AllocationFailure GrowingArray × Manager)}
    {answer : Answer} (hw : c.Within grants)
    (hop : ∀ a result m, a.FitsBlock → op a = .ok (result, m) →
      m.heap.raw.OneBudget grants ∧ ∀ a', result = .ok a' → a'.FitsBlock)
    (hrun : c.askArray i op = .ok (answer, c')) : c'.Within grants := by
  rw [Client.askArray] at hrun
  split at hrun
  · rename_i a hi
    obtain ⟨⟨result, m⟩, hinner, hafter⟩ := exists_of_bind_ok hrun
    obtain ⟨hm, hfits⟩ := hop a result m (hw.fits a (List.mem_of_getElem? hi)) hinner
    have hsettled := hw.settleArray hm hfits i
    rw [Except.ok.inj hafter] at hsettled
    exact hsettled
  · obtain ⟨-, rfl⟩ := Prod.mk.inj (Except.ok.inj hrun)
    exact hw

theorem giveUp (hw : c.Within grants) (hm : m.heap.raw.OneBudget grants) (i : Nat) :
    (c.giveUp i m).Within grants :=
  ⟨hm, fun a ha => hw.fits a (List.mem_of_mem_eraseIdx ha)⟩

/-- The step lemma. -/
theorem perform {request : Request} {answer : Answer} (hw : c.Within grants)
    (hrun : c.perform request = .ok (answer, c')) : c'.Within grants := by
  cases request with
  | allocate size =>
    rw [perform_allocate] at hrun
    exact hw.askNew (fun _ _ => Manager.raw_allocateLabelled Allocator.OneBudget.kept hw.raw) hrun
  | allocateLabelled size label =>
    rw [perform_allocateLabelled] at hrun
    exact hw.askNew (fun _ _ => Manager.raw_allocateLabelled Allocator.OneBudget.kept hw.raw) hrun
  | tryAllocate size =>
    rw [perform_tryAllocate] at hrun
    exact hw.askNew (fun _ _ => Manager.raw_tryRealloc Allocator.OneBudget.kept hw.raw) hrun
  | realloc i newSize =>
    rw [perform_realloc] at hrun
    exact hw.askBlock (fun _ _ _ _ => Manager.raw_realloc Allocator.OneBudget.kept hw.raw) hrun
  | tryRealloc i newSize =>
    rw [perform_tryRealloc] at hrun
    exact hw.askBlock (fun _ _ _ _ => Manager.raw_tryRealloc Allocator.OneBudget.kept hw.raw) hrun
  | free i =>
    rw [Client.perform] at hrun
    split at hrun
    · obtain ⟨m, hinner, hafter⟩ := exists_of_bind_ok hrun
      obtain ⟨-, rfl⟩ := Prod.mk.inj (Except.ok.inj hafter)
      obtain ⟨heap, hfree, hdone⟩ := exists_of_bind_ok hinner
      obtain rfl := Except.ok.inj hdone
      exact hw.giveUp (Heap.raw_free Allocator.OneBudget.kept.byFreeing hw.raw hfree) i
    · obtain ⟨-, rfl⟩ := Prod.mk.inj (Except.ok.inj hrun)
      exact hw
  | newArray elementSize =>
    obtain ⟨-, rfl⟩ := Prod.mk.inj (Except.ok.inj hrun)
    refine ⟨hw.raw, ?_⟩
    intro a ha
    rcases List.mem_append.1 ha with ha | ha
    · exact hw.fits a ha
    · obtain rfl := Holding.array.inj (List.mem_singleton.1 ha)
      rw [GrowingArray.FitsBlock, Nat.zero_mul]
      exact Nat.zero_le _
  | ensureCapacity i count limit what =>
    rw [perform_ensureCapacity] at hrun
    exact hw.askArray
      (fun _ _ _ => Manager.raw_ensureCapacity Allocator.OneBudget.kept hw.raw) hrun
  | shrinkTo i count =>
    rw [perform_shrinkTo] at hrun
    exact hw.askArray
      (fun _ _ _ _ => Manager.raw_resizeArray Allocator.OneBudget.kept hw.raw) hrun
  | discard i =>
    rw [Client.perform] at hrun
    split at hrun
    · rename_i h _ _ _ _
      have hm : (c.manager.discard h.entry.1 h.entry.2).heap.raw.OneBudget grants := hw.raw
      obtain ⟨-, rfl⟩ := Prod.mk.inj (Except.ok.inj hrun)
      exact hw.giveUp hm i
    · obtain ⟨-, rfl⟩ := Prod.mk.inj (Except.ok.inj hrun)
      exact hw
  | fullCollection =>
    obtain ⟨m, hinner, hafter⟩ := exists_of_bind_ok hrun
    obtain ⟨-, rfl⟩ := Prod.mk.inj (Except.ok.inj hafter)
    exact ⟨(Manager.raw_fullCollection Allocator.OneBudget.kept.byFreeing hw.raw hinner).1, hw.fits⟩
  | setCollecting on =>
    obtain ⟨-, rfl⟩ := Prod.mk.inj (Except.ok.inj hrun)
    exact ⟨hw.raw, hw.fits⟩
  | setLimit limit =>
    obtain ⟨-, rfl⟩ := Prod.mk.inj (Except.ok.inj hrun)
    exact ⟨hw.raw.setLimit limit, hw.fits⟩
  | shiftBaseline bytes =>
    obtain ⟨-, rfl⟩ := Prod.mk.inj (Except.ok.inj hrun)
    exact ⟨hw.raw, hw.fits⟩

/-- The run lemma. -/
theorem run {requests : List Request} {answers : List Answer} (hw : c.Within grants)
    (hrun : c.run requests = .ok (answers, c')) : c'.Within grants := by
  induction requests generalizing c answers with
  | nil =>
    obtain ⟨-, rfl⟩ := Prod.mk.inj (Except.ok.inj hrun)
    exact hw
  | cons request requests ih =>
    obtain ⟨⟨answer, c₁⟩, hfirst, hafter⟩ := exists_of_bind_ok hrun
    obtain ⟨⟨rest, c₂⟩, hrest, hlast⟩ := exists_of_bind_ok hafter
    obtain ⟨-, rfl⟩ := Prod.mk.inj (Except.ok.inj hlast)
    exact ih (hw.perform hfirst) hrest

end Within

end Client

end VmInspect.Memory
