import VmInspect.Proofs.Memory.Terms

/-!
# A budget inside a budget

A budget can be put around an allocator that has a budget of its own.  Each of them decides and counts
by itself, and what the inner one refuses the outer one must not count.  This file proves that the
two together are one budget with the smaller limit:

* `Allocator.Holds.isLive_realloc` — under any number of budgets, a request is granted when the system
  says yes to it and every limit has room for it beside the other blocks.
* `Allocator.Composes.realloc` — a request to two budgets and the same one to the budget with the
  smaller limit have the same answer, and count the same label.
* `RawClient.run_nested` — so have any requests, also when the outer limit is changed on the way.
-/

namespace VmInspect.Memory

/-! ## Any number of budgets -/

namespace Allocator

/-- The budgets on the way to the system, the outermost first. -/
def budgets : Allocator → List Budget
  | system _ => []
  | budgeted b inner => b :: inner.budgets

/-- Their limits. -/
def limits (a : Allocator) : List Nat := a.budgets.map Budget.limit

@[simp] theorem limits_system (s : System) : (system s).limits = [] := rfl

@[simp] theorem limits_budgeted (b : Budget) (inner : Allocator) :
    (budgeted b inner).limits = b.limit :: inner.limits := rfl

@[simp] theorem bottom_budgeted (b : Budget) (inner : Allocator) :
    (budgeted b inner).bottom = inner.bottom := rfl

/-- The labels counted by the outermost budget. -/
def labels? (a : Allocator) : Option (List Nat) := a.budget?.map Budget.labels

variable {a : Allocator} {owned : List (Block × Nat)} {block : Block} {oldSize newSize : Nat}

/-- A request changes no limit. -/
theorem limits_realloc (a : Allocator) (block : Block) (oldSize newSize : Nat) :
    (a.realloc block oldSize newSize).2.limits = a.limits := by
  induction a with
  | system s => rfl
  | budgeted b inner ih =>
    rw [Allocator.realloc]
    split
    · rfl
    · simp only
      split
      · rw [limits_budgeted, limits_budgeted, ih, Budget.count]
      · rw [limits_budgeted, limits_budgeted, ih]

/-- A request leaves the rule by which the system answers as it is. -/
theorem grants_bottom_realloc (a : Allocator) (block : Block) (oldSize newSize : Nat) :
    (a.realloc block oldSize newSize).2.bottom.grants = a.bottom.grants := by
  induction a with
  | system s => exact s.grants_realloc block oldSize newSize
  | budgeted b inner ih =>
    rw [Allocator.realloc]
    split
    · rfl
    · simp only
      split <;> exact ih

/-- Freeing gives no block. -/
theorem isLive_realloc_zero (a : Allocator) (block : Block) (oldSize : Nat) :
    (a.realloc block oldSize 0).1.isLive = false := by
  induction a with
  | system s => cases block <;> rfl
  | budgeted b inner ih =>
    rw [Allocator.realloc, Budget.refuses_zero, if_neg Bool.false_ne_true]
    simp only
    split <;> exact ih

/-- The outermost budget counts the label of a new block that was given. -/
theorem labels?_realloc (a : Allocator) (block : Block) (oldSize newSize : Nat) :
    (a.realloc block oldSize newSize).2.labels? = a.labels?.map fun labels =>
      if (a.realloc block oldSize newSize).1.isLive && !block.isLive then oldSize :: labels
      else labels := by
  cases a with
  | system s => rfl
  | budgeted b inner =>
    have hzero := isLive_realloc_zero inner block oldSize
    rw [Allocator.realloc]
    split
    · rfl
    · rcases hr : inner.realloc block oldSize newSize with ⟨answer, inner'⟩
      rcases Nat.eq_zero_or_pos newSize with rfl | hpos
      · rw [hr] at hzero
        simp [labels?, budget?, Budget.count, hzero]
      · have hsize : (newSize == 0) = false := beq_eq_false_iff_ne.2 (Nat.ne_of_gt hpos)
        cases hlive : answer.isLive with
        | true => simp [labels?, budget?, Budget.count, hlive, hpos]
        | false => simp [labels?, budget?, hlive, hsize]

namespace Holds

/-- Every budget on the way counts the bytes of the ledger. -/
theorem map_inUse (h : a.Holds owned) :
    a.budgets.map Budget.inUse = List.replicate a.limits.length (Ledger.bytes owned) := by
  induction a with
  | system s => rfl
  | budgeted b inner ih =>
    rw [budgets, List.map_cons, h.1, ih h.2]
    rfl

/-- A request is granted when the system says yes to it, and every limit has room for it beside the
other blocks. -/
theorem isLive_realloc (h : a.Holds ((block, block.held oldSize) :: owned)) (hpos : 0 < newSize) :
    (a.realloc block oldSize newSize).1.isLive =
      (a.bottom.grants a.bottom.requests (block.held oldSize) newSize &&
        a.limits.all fun limit => decide (Ledger.bytes owned + newSize ≤ limit)) := by
  induction a with
  | system s =>
    rw [limits_system, List.all_nil, Bool.and_true]
    exact s.isLive_realloc block oldSize hpos
  | budgeted b inner ih =>
    obtain ⟨huse, hinner⟩ := h
    rw [Ledger.bytes_cons] at huse
    have hanswer := ih hinner
    rw [Allocator.realloc, GoesBy.refuses_eq huse hpos, limits_budgeted, bottom_budgeted,
      List.all_cons]
    by_cases hroom : Ledger.bytes owned + newSize ≤ b.limit
    · rw [decide_eq_false (Nat.not_lt.2 hroom), if_neg Bool.false_ne_true, decide_eq_true hroom,
        Bool.true_and, ← hanswer]
      simp only
      split <;> rfl
    · rw [decide_eq_true (Nat.lt_of_not_le hroom), if_pos rfl, decide_eq_false hroom,
        Bool.false_and, Bool.and_false]
      rfl

end Holds

end Allocator

/-! ## Two budgets and one -/

namespace Allocator

/-- Two budgets beside the one with the smaller limit: both have counted the same labels, and the
systems below answer by the size alone, in the same way. -/
structure Composes (nested single : Allocator) (inner : Nat) (grants : Nat → Bool) : Prop where
  limits : ∃ outer, nested.limits = [outer, inner] ∧ single.limits = [min outer inner]
  labels : nested.labels? = single.labels?
  nested_bySize : ∀ i held n, nested.bottom.grants i held n = grants n
  single_bySize : ∀ i held n, single.bottom.grants i held n = grants n

namespace Composes

variable {nested single : Allocator} {inner : Nat} {grants : Nat → Bool}

/-- There is room within both limits when there is room within the smaller one. -/
theorem all_limits (hc : nested.Composes single inner grants) (bytes : Nat) :
    (nested.limits.all fun limit => decide (bytes ≤ limit)) =
      single.limits.all fun limit => decide (bytes ≤ limit) := by
  obtain ⟨outer, hnested, hsingle⟩ := hc.limits
  rw [hnested, hsingle]
  simp only [List.all_cons, List.all_nil, Bool.and_true]
  rw [← Bool.decide_and]
  exact decide_eq_decide.2 Nat.le_min.symm

/-- A request to both has the same answer and leaves them as they are to each other. -/
theorem realloc (hc : nested.Composes single inner grants) {block block' : Block}
    {owned owned' : List (Block × Nat)} {oldSize : Nat}
    (hn : nested.Holds ((block, block.held oldSize) :: owned))
    (hs : single.Holds ((block', block'.held oldSize) :: owned'))
    (hbytes : Ledger.bytes owned = Ledger.bytes owned') (hlive : block.isLive = block'.isLive)
    (newSize : Nat) :
    (nested.realloc block oldSize newSize).1.isLive =
        (single.realloc block' oldSize newSize).1.isLive ∧
      (nested.realloc block oldSize newSize).2.Composes (single.realloc block' oldSize newSize).2
        inner grants := by
  have hanswer : (nested.realloc block oldSize newSize).1.isLive =
      (single.realloc block' oldSize newSize).1.isLive := by
    rcases Nat.eq_zero_or_pos newSize with rfl | hpos
    · rw [isLive_realloc_zero, isLive_realloc_zero]
    · rw [hn.isLive_realloc hpos, hs.isLive_realloc hpos, hc.nested_bySize, hc.single_bySize, hbytes,
        hc.all_limits]
  refine ⟨hanswer, ?_, ?_, ?_, ?_⟩
  · rw [limits_realloc, limits_realloc]
    exact hc.limits
  · rw [labels?_realloc, labels?_realloc, hanswer, hlive, hc.labels]
  · rw [grants_bottom_realloc]
    exact hc.nested_bySize
  · rw [grants_bottom_realloc]
    exact hc.single_bySize

/-- A change of the outer limit is one of the single limit, as far as the inner one lets it. -/
theorem setLimit (hc : nested.Composes single inner grants) (limit : Nat) :
    (nested.setLimit limit).Composes (single.setLimit (min limit inner)) inner grants := by
  obtain ⟨outer, hnested, hsingle⟩ := hc.limits
  cases nested with
  | system s => cases hnested
  | budgeted b below =>
    cases single with
    | system s => cases hsingle
    | budgeted b' below' =>
      rw [limits_budgeted, List.cons.injEq] at hnested hsingle
      refine ⟨⟨limit, ?_, ?_⟩, hc.labels, hc.nested_bySize, hc.single_bySize⟩
      · rw [Allocator.setLimit, limits_budgeted, hnested.2]
      · rw [Allocator.setLimit, limits_budgeted, hsingle.2]

end Composes

end Allocator

/-! ## Callers -/

/-- What a caller can ask of an allocator.  The blocks that it holds are known by their places. -/
inductive RawRequest where
  /-- a new block under a label -/
  | allocate (label size : Nat)
  /-- another size for a block held; a size of zero frees it -/
  | resize (i newSize : Nat)
  /-- another limit for the outermost budget -/
  | setLimit (limit : Nat)

/-- The same request where no limit may be greater than another one. -/
def RawRequest.within (inner : Nat) : RawRequest → RawRequest
  | setLimit limit => setLimit (min limit inner)
  | request => request

/-- An allocator, and the blocks that its caller holds, with their sizes.  The null block is held with
a size of zero, and to resize it is to ask for a new block. -/
structure RawClient where
  raw : Allocator
  held : List (Block × Nat) := []

namespace RawClient

/-- The bytes of all blocks held. -/
def heldBytes (c : RawClient) : Nat := (c.held.map Prod.snd).sum

/-- Make a request, and say whether it was granted. -/
def perform (c : RawClient) : RawRequest → Bool × RawClient
  | .allocate label size =>
    let (answer, raw) := c.raw.realloc .null label size
    (answer.isLive || size == 0, { raw, held := c.held ++ [Ledger.settled .null 0 answer size] })
  | .resize i newSize =>
    match c.held[i]? with
    | some (block, size) =>
      let (answer, raw) := c.raw.realloc block size newSize
      (answer.isLive || newSize == 0,
        { raw, held := c.held.set i (Ledger.settled block size answer newSize) })
    | none => (true, c)
  | .setLimit limit => (true, { c with raw := c.raw.setLimit limit })

/-- Make one request after another. -/
def run (c : RawClient) : List RawRequest → List Bool × RawClient
  | [] => ([], c)
  | request :: requests =>
    let (answer, c) := c.perform request
    let (answers, c) := c.run requests
    (answer :: answers, c)

end RawClient

namespace Allocator.Holds

variable {a : Allocator} {owned : List (Block × Nat)} {block : Block} {size i : Nat}

/-- One of the blocks held can be looked at apart from the others. -/
theorem split (h : a.Holds owned) (hi : owned[i]? = some (block, size)) :
    a.Holds ((block, size) :: owned.eraseIdx i) := by
  obtain ⟨hlt, hentry⟩ := List.getElem?_eq_some_iff.1 hi
  rw [← hentry]
  exact h.perm (List.getElem_cons_eraseIdx_perm hlt).symm

/-- The size of a block held is what a resize gives up. -/
theorem held (h : a.Holds ((block, size) :: owned)) : a.Holds ((block, block.held size) :: owned) := by
  rw [h.held_eq]
  exact h

/-- A new block is held behind the others. -/
theorem allocate (h : a.Holds owned) (label newSize : Nat) :
    (a.realloc .null label newSize).2.Holds
      (owned ++ [Ledger.settled .null 0 (a.realloc .null label newSize).1 newSize]) := by
  have hnull : a.Holds ((.null, Block.null.held label) :: owned) := h.cons_null
  exact (hnull.realloc newSize).perm (List.perm_append_singleton _ _).symm

/-- A block that is resized is held in its place. -/
theorem resize (h : a.Holds owned) (hi : owned[i]? = some (block, size)) (newSize : Nat) :
    (a.realloc block size newSize).2.Holds
      (owned.set i (Ledger.settled block size (a.realloc block size newSize).1 newSize)) := by
  have hsplit := h.split hi
  have hsettled := hsplit.held.realloc newSize
  obtain ⟨hlt, -⟩ := List.getElem?_eq_some_iff.1 hi
  rw [hsplit.held_eq] at hsettled
  exact hsettled.perm (List.set_perm_cons_eraseIdx hlt _).symm

end Allocator.Holds

namespace RawClient

/-- A caller of two budgets beside a caller of one: both hold blocks of the same sizes. -/
structure Alike (c d : RawClient) (inner : Nat) (grants : Nat → Bool) : Prop where
  composes : c.raw.Composes d.raw inner grants
  nested_holds : c.raw.Holds c.held
  single_holds : d.raw.Holds d.held
  sizes : c.held.map Prod.snd = d.held.map Prod.snd

/-- The size of an entry after a request depends on whether it was granted only. -/
theorem snd_settled (block : Block) (size : Nat) (answer : Block) (newSize : Nat) :
    (Ledger.settled block size answer newSize).2 =
      if answer.isLive || newSize == 0 then newSize else size := by
  rw [Ledger.settled]
  split <;> rfl

namespace Alike

variable {c d : RawClient} {inner : Nat} {grants : Nat → Bool}

/-- The same places hold blocks of the same sizes, and the null block in both or in neither. -/
theorem getElem? (h : c.Alike d inner grants) {i : Nat} {block : Block} {size : Nat}
    (hi : c.held[i]? = some (block, size)) :
    ∃ block', d.held[i]? = some (block', size) ∧ block.isLive = block'.isLive := by
  have hsize : (d.held.map Prod.snd)[i]? = some size := by
    rw [← h.sizes, List.getElem?_map, hi, Option.map_some]
  rw [List.getElem?_map] at hsize
  obtain ⟨⟨block', size'⟩, hd, rfl⟩ := Option.map_eq_some_iff.1 hsize
  refine ⟨block', hd, Bool.not_inj ?_⟩
  rw [(h.nested_holds.split hi).isLive_eq, (h.single_holds.split hd).isLive_eq]

theorem getElem?_eq_none (h : c.Alike d inner grants) {i : Nat} (hi : c.held[i]? = none) :
    d.held[i]? = none := by
  have hsize : (d.held.map Prod.snd)[i]? = none := by
    rw [← h.sizes, List.getElem?_map, hi, Option.map_none]
  rw [List.getElem?_map] at hsize
  exact Option.map_eq_none_iff.1 hsize

/-- The bytes of the other blocks are the same. -/
theorem bytes_eraseIdx (h : c.Alike d inner grants) (i : Nat) :
    Ledger.bytes (c.held.eraseIdx i) = Ledger.bytes (d.held.eraseIdx i) := by
  rw [Ledger.bytes, Ledger.bytes, ← List.eraseIdx_map, ← List.eraseIdx_map, h.sizes]

/-- The step lemma: a request to both has the same answer. -/
theorem perform (h : c.Alike d inner grants) (request : RawRequest) :
    (c.perform request).1 = (d.perform (request.within inner)).1 ∧
      (c.perform request).2.Alike (d.perform (request.within inner)).2 inner grants := by
  cases request with
  | allocate label size =>
    have hbytes : Ledger.bytes c.held = Ledger.bytes d.held := by
      rw [Ledger.bytes, Ledger.bytes, h.sizes]
    have hnull : c.raw.Holds ((.null, Block.null.held label) :: c.held) := h.nested_holds.cons_null
    have hnull' : d.raw.Holds ((.null, Block.null.held label) :: d.held) := h.single_holds.cons_null
    obtain ⟨hanswer, hcomposes⟩ := h.composes.realloc hnull hnull' hbytes rfl size
    refine ⟨congrArg (· || size == 0) hanswer, hcomposes, h.nested_holds.allocate label size,
      h.single_holds.allocate label size, ?_⟩
    simp only [RawClient.perform, RawRequest.within, List.map_append, List.map_cons, List.map_nil,
      h.sizes, snd_settled, hanswer]
  | resize i newSize =>
    cases hi : c.held[i]? with
    | none =>
      have hd := h.getElem?_eq_none hi
      simp only [RawClient.perform, RawRequest.within, hi, hd]
      exact ⟨trivial, h⟩
    | some entry =>
      obtain ⟨block, size⟩ := entry
      obtain ⟨block', hd, hlive⟩ := h.getElem? hi
      obtain ⟨hanswer, hcomposes⟩ := h.composes.realloc (h.nested_holds.split hi).held
        (h.single_holds.split hd).held (h.bytes_eraseIdx i) hlive newSize
      simp only [RawClient.perform, RawRequest.within, hi, hd]
      refine ⟨congrArg (· || newSize == 0) hanswer, hcomposes, h.nested_holds.resize hi newSize,
        h.single_holds.resize hd newSize, ?_⟩
      simp only [List.map_set, h.sizes, snd_settled, hanswer]
  | setLimit limit =>
    exact ⟨rfl, h.composes.setLimit limit, h.nested_holds.setLimit limit,
      h.single_holds.setLimit (min limit inner), h.sizes⟩

/-- The run lemma: so have any requests, one after another. -/
theorem run (h : c.Alike d inner grants) (requests : List RawRequest) :
    (c.run requests).1 = (d.run (requests.map (.within inner))).1 ∧
      (c.run requests).2.Alike (d.run (requests.map (.within inner))).2 inner grants := by
  induction requests generalizing c d with
  | nil => exact ⟨rfl, h⟩
  | cons request requests ih =>
    obtain ⟨hanswer, hafter⟩ := h.perform request
    obtain ⟨hanswers, hlast⟩ := ih hafter
    exact ⟨congrArg₂ List.cons hanswer hanswers, hlast⟩

end Alike

/-- **A budget inside a budget is one budget with the smaller limit.**  Two systems that have given
out nothing answer by the size alone, in the same way.  One is behind two budgets, the other behind
one with the smaller of their limits.  Any requests to both are granted or refused alike, one by one,
where a change of the outer limit changes the single one as far as the inner limit lets it.
Afterwards blocks of the same sizes are held, all three budgets count their bytes, which are those
that the systems have given out, and the outer and the single budget have counted the same labels. -/
theorem run_nested {s t : System} (hs : s.Holds []) (ht : t.Holds []) {grants : Nat → Bool}
    (hsize : ∀ i held n, s.grants i held n = grants n)
    (hsize' : ∀ i held n, t.grants i held n = grants n) (outer inner : Nat)
    (requests : List RawRequest) :
    let nested := ({ raw := .budgeted { limit := outer } (.budgeted { limit := inner } (.system s)) }
      : RawClient).run requests
    let single := ({ raw := .budgeted { limit := min outer inner } (.system t) }
      : RawClient).run (requests.map (.within inner))
    nested.1 = single.1 ∧ nested.2.held.map Prod.snd = single.2.held.map Prod.snd ∧
      nested.2.raw.budgets.map Budget.inUse = [nested.2.heldBytes, nested.2.heldBytes] ∧
      single.2.raw.budgets.map Budget.inUse = [nested.2.heldBytes] ∧
      nested.2.raw.bottom.liveBytes = nested.2.heldBytes ∧
      single.2.raw.bottom.liveBytes = nested.2.heldBytes ∧
      ∀ label, nested.2.raw.budget?.map (·.labelCount label) =
        single.2.raw.budget?.map (·.labelCount label) := by
  intro nested single
  have hstart : ({ raw := .budgeted { limit := outer } (.budgeted { limit := inner } (.system s)) }
      : RawClient).Alike { raw := .budgeted { limit := min outer inner } (.system t) } inner grants :=
    ⟨⟨⟨outer, rfl, rfl⟩, rfl, hsize, hsize'⟩, ⟨rfl, rfl, hs⟩, ⟨rfl, ht⟩, rfl⟩
  obtain ⟨hanswers, hlast⟩ := hstart.run requests
  obtain ⟨last, hnested, hsingle⟩ := hlast.composes.limits
  have hbytes : Ledger.bytes single.2.held = nested.2.heldBytes := by
    rw [Ledger.bytes, heldBytes, hlast.sizes]
  refine ⟨hanswers, hlast.sizes, ?_, ?_, hlast.nested_holds.liveBytes, ?_, fun label => ?_⟩
  · rw [hlast.nested_holds.map_inUse, hnested]
    rfl
  · rw [hlast.single_holds.map_inUse, hsingle, hbytes]
    rfl
  · rw [hlast.single_holds.liveBytes, hbytes]
  · have hlabels := congrArg (Option.map (List.count label)) hlast.composes.labels
    rwa [Allocator.labels?, Allocator.labels?, Option.map_map, Option.map_map] at hlabels

/-- The outer limit is lowered under the bytes in use, and raised over the inner one.  One request is
refused by the inner budget, one by the outer one, although it makes a block smaller, and one by the
systems, which have answered different numbers of requests before. -/
theorem run_nested_lowered :
    let fresh (requests : Nat) : System := { grants := fun _ _ n => decide (n < 50), requests }
    let requests := [.allocate 7 40, .allocate 7 30, .setLimit 30, .resize 0 35, .resize 0 20,
      .setLimit 200, .allocate 3 50, .resize 0 0, .allocate 7 45]
    let nested := ({ raw := .budgeted { limit := 100 } (.budgeted { limit := 60 }
      (.system (fresh 0))) } : RawClient).run requests
    let single := ({ raw := .budgeted { limit := 60 } (.system (fresh 9)) } : RawClient).run
      (requests.map (.within 60))
    single.1 = [true, false, true, false, true, true, false, true, true] ∧ nested.1 = single.1 ∧
      nested.2.raw.budgets.map Budget.inUse = [45, 45] ∧
      nested.2.raw.budget?.map (·.labelCount 7) = some 2 ∧
      single.2.raw.budget?.map (·.labelCount 7) = some 2 := by
  intro fresh requests nested single
  have hfresh : ∀ n, (fresh n).Holds [] := fun n => System.Holds.of_live_nil rfl
  obtain ⟨hanswers, -, huse, -, -, -, hlabels⟩ := run_nested (hfresh 0) (hfresh 9)
    (fun _ _ _ => rfl) (fun _ _ _ => rfl) 100 60 requests
  exact ⟨by decide, hanswers, huse, by decide, (hlabels 7).symm⟩

end RawClient

end VmInspect.Memory
