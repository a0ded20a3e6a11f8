import Mathlib.Data.List.Nodup
import VmInspect.Proofs.Memory.NestedBudgets

/-!
# The attempts of a request

A request for bytes is settled by one raw call.  That is the first attempt, unless the first attempt
fails or is made to fail and a collection can run: then the collection runs once, and the raw call
after it settles the request.

* `Manager.tryRealloc_of_pos` — a request is the raw call that settles it.
* `Manager.exists_beforeSettling` — which is always reached, and what waited is freed on the way if
  a collection runs.
* `Manager.tryRealloc_exact` — so a request fails exactly when that call is refused, and a failure
  changes the books by what the collection freed only.
-/

namespace VmInspect.Memory

/-! ## Collections -/

namespace Collector

/-- What waits can be freed: no bytes go with the null block, and with no other. -/
def Tidy (c : Collector) : Prop := ∀ e ∈ c.pending, e.2 = 0 ↔ e.1 = .null

/-- The collector after a collection. -/
def collected : Collector → Collector
  | idle complete collecting => idle complete collecting
  | garbage _ n => garbage [] (n + 1)

@[simp] theorem pending_collected (c : Collector) : c.collected.pending = [] := by
  cases c <;> rfl

theorem tidy_of_pending_nil {c : Collector} (h : c.pending = []) : c.Tidy := by
  intro e he
  rw [h] at he
  cases he

theorem tidy_collected (c : Collector) : c.collected.Tidy := tidy_of_pending_nil c.pending_collected

/-- Blocks with sizes that go with them can be freed, one after another. -/
theorem exists_freeAll (pending : List (Block × Nat)) (htidy : ∀ e ∈ pending, e.2 = 0 ↔ e.1 = .null)
    (h : Heap) : ∃ h', freeAll h pending = .ok h' := by
  induction pending generalizing h with
  | nil => exact ⟨h, rfl⟩
  | cons e pending ih =>
    obtain ⟨block, size⟩ := e
    have hfits : (size == 0) = !block.isLive := by
      have hsize := htidy (block, size) (List.mem_cons_self ..)
      cases block with
      | null => simpa [Block.isLive] using hsize
      | live id => simpa [Block.isLive] using hsize
    rw [freeAll, Heap.free, if_pos hfits]
    exact ih (fun e he => htidy e (List.mem_cons_of_mem _ he)) _

/-- A collection of tidy garbage is no misuse. -/
theorem Tidy.exists_collect {c : Collector} (htidy : c.Tidy) (h : Heap) :
    ∃ h', c.collect h = .ok (c.collected, h') := by
  cases c with
  | idle complete collecting => exact ⟨h, rfl⟩
  | garbage pending n =>
    obtain ⟨h', hfree⟩ := exists_freeAll pending htidy h
    refine ⟨h', ?_⟩
    rw [collect, hfree]
    rfl

end Collector

namespace Manager

variable {m : Manager} {block : Block} {oldSize newSize : Nat}

/-- An emergency collection frees what waits, and is counted. -/
theorem exists_emergencyCollection (htidy : m.collector.Tidy) :
    ∃ heap, m.emergencyCollection = .ok
      { m with
        heap
        collector := m.collector.collected
        stats := { m.stats with emergencyCollections := m.stats.emergencyCollections + 1 } } := by
  obtain ⟨heap, hcollect⟩ := htidy.exists_collect m.heap
  refine ⟨heap, ?_⟩
  rw [emergencyCollection, fullCollection]
  simp only [hcollect]
  rfl

/-! ## The raw call that settles a request -/

/-- Whether a request for bytes runs a collection: one can run, and the first attempt is made to
fail or the raw call fails. -/
def collectsFor (m : Manager) (block : Block) (oldSize newSize : Nat) : Bool :=
  m.canTryAgain &&
    (m.config.emergencyStress || !(m.heap.raw.realloc block oldSize newSize).1.isLive)

/-- The manager whose raw call settles a request for bytes: as it is, or as the collection leaves it
that follows on the first attempt. -/
def beforeSettling (m : Manager) (block : Block) (oldSize newSize : Nat) : Except Misuse Manager :=
  if m.collectsFor block oldSize newSize then
    (m.firstTry block oldSize newSize).2.emergencyCollection
  else .ok m

/-- Settle a request for bytes by a raw call. -/
def settleRaw (m : Manager) (block : Block) (oldSize newSize : Nat) : Option Block × Manager :=
  let (answer, m) := m.callRaw block oldSize newSize
  if answer.isLive then (some answer, m.countGrant block oldSize newSize)
  else (none, m.countFailure)

/-- A first attempt that gives a block settles the request. -/
theorem tryRealloc_of_given (hlive : (m.firstTry block oldSize newSize).1.isLive = true) :
    m.tryRealloc block oldSize newSize =
      .ok (some (m.firstTry block oldSize newSize).1,
        (m.firstTry block oldSize newSize).2.countGrant block oldSize newSize) := by
  rw [tryRealloc]
  simp only [hlive, Bool.true_or, if_true]
  rfl

/-- After a first attempt that fails, a collection and the second one settle it if there can be
one. -/
theorem tryRealloc_of_failed (hpos : 0 < newSize)
    (hdead : (m.firstTry block oldSize newSize).1.isLive = false) :
    m.tryRealloc block oldSize newSize =
      if (m.firstTry block oldSize newSize).2.canTryAgain then
        (m.firstTry block oldSize newSize).2.emergencyCollection.map
          (·.settleRaw block oldSize newSize)
      else .ok (none, (m.firstTry block oldSize newSize).2.countFailure) := by
  have hsize : (newSize == 0) = false := beq_eq_false_iff_ne.2 (Nat.ne_of_gt hpos)
  rw [tryRealloc]
  simp only [hdead, hsize, Bool.or_false, Bool.false_eq_true, if_false, tryAgain]
  split
  · cases (m.firstTry block oldSize newSize).2.emergencyCollection with
    | error e => rfl
    | ok before =>
      simp only [Except.map, settleRaw, bind, Except.bind, pure, Except.pure]
      split <;> rfl
  · rfl

theorem firstTry_of_skipped (hskip : m.skipsFirstTry newSize = true) :
    m.firstTry block oldSize newSize = (.null, m) := by
  rw [firstTry, if_pos hskip]

theorem firstTry_of_called (block : Block) (oldSize : Nat)
    (hcall : m.skipsFirstTry newSize = false) :
    m.firstTry block oldSize newSize = m.callRaw block oldSize newSize := by
  rw [firstTry, hcall, if_neg Bool.false_ne_true]

/-- A request for bytes is the raw call that settles it. -/
theorem tryRealloc_of_pos (m : Manager) (block : Block) (oldSize : Nat) (hpos : 0 < newSize) :
    m.tryRealloc block oldSize newSize =
      (m.beforeSettling block oldSize newSize).map (·.settleRaw block oldSize newSize) := by
  cases hskip : m.skipsFirstTry newSize with
  | true =>
    have hfirst : m.firstTry block oldSize newSize = (.null, m) := firstTry_of_skipped hskip
    have hskipped : m.config.emergencyStress = true ∧ m.canTryAgain = true := by
      simp only [skipsFirstTry, Bool.and_eq_true] at hskip
      exact ⟨hskip.1.1, hskip.2⟩
    have hcollects : m.collectsFor block oldSize newSize = true := by
      rw [collectsFor, hskipped.1, hskipped.2]
      rfl
    rw [tryRealloc_of_failed hpos (by rw [hfirst]; rfl), beforeSettling, if_pos hcollects, hfirst,
      if_pos hskipped.2]
  | false =>
    have hfirst := firstTry_of_called block oldSize hskip
    have hcalled : (m.canTryAgain && m.config.emergencyStress) = false := by
      rw [← hskip, skipsFirstTry, decide_eq_true hpos, Bool.and_true, Bool.and_comm]
    have hcollects : m.collectsFor block oldSize newSize =
        (m.canTryAgain && !(m.callRaw block oldSize newSize).1.isLive) := by
      rw [collectsFor, Bool.and_or_distrib_left, hcalled, Bool.false_or]
      rfl
    rw [beforeSettling, hcollects]
    cases hlive : (m.callRaw block oldSize newSize).1.isLive with
    | true =>
      -- nothing is collected, and the call that settles the request is the first one
      rw [tryRealloc_of_given (by rw [hfirst]; exact hlive), hfirst, Bool.not_true, Bool.and_false,
        if_neg Bool.false_ne_true, Except.map, settleRaw]
      simp only [hlive, if_true]
    | false =>
      rw [tryRealloc_of_failed hpos (by rw [hfirst]; exact hlive), hfirst, Bool.not_false,
        Bool.and_true]
      by_cases hcan : m.canTryAgain = true
      · have hcan' : (m.callRaw block oldSize newSize).2.canTryAgain = true := hcan
        rw [if_pos hcan, if_pos hcan']
      · have hcan' : ¬ (m.callRaw block oldSize newSize).2.canTryAgain = true := hcan
        rw [if_neg hcan, if_neg hcan', Except.map, settleRaw]
        simp only [hlive, Bool.false_eq_true, if_false]

/-- A request for no bytes frees the block in its first attempt. -/
theorem tryRealloc_zero (m : Manager) (block : Block) (oldSize : Nat) :
    m.tryRealloc block oldSize 0 =
      .ok (some .null, (m.callRaw block oldSize 0).2.countGrant block oldSize 0) := by
  have hcall : m.skipsFirstTry 0 = false := by
    rw [skipsFirstTry, decide_eq_false (Nat.lt_irrefl 0), Bool.and_false, Bool.false_and]
  have hnull : (m.callRaw block oldSize 0).1 = .null := by
    have hdead : (m.callRaw block oldSize 0).1.isLive = false :=
      Allocator.isLive_realloc_zero m.heap.raw block oldSize
    cases hanswer : (m.callRaw block oldSize 0).1 with
    | null => rfl
    | live id =>
      rw [hanswer] at hdead
      cases hdead
  rw [tryRealloc, firstTry_of_called block oldSize hcall]
  simp only [beq_self_eq_true, Bool.or_true, if_true, hnull]
  rfl

/-! ## What a request leaves behind -/

/-- What the collection of a request frees, if it runs one. -/
def releasedFor (m : Manager) (block : Block) (oldSize newSize : Nat) : Nat :=
  if m.collectsFor block oldSize newSize then m.collector.pendingBytes else 0

/-- A manager beside what it is when a request is settled: the collection that the request needs has
run, and nothing but the heap has changed besides. -/
structure ReadyFor (m before : Manager) (block : Block) (oldSize newSize : Nat) : Prop where
  collector : before.collector =
    if m.collectsFor block oldSize newSize then m.collector.collected else m.collector
  stats : before.stats =
    { m.stats with
      emergencyCollections :=
        m.stats.emergencyCollections + if m.collectsFor block oldSize newSize then 1 else 0 }
  config : before.config = m.config

/-- The first attempt changes the heap at most. -/
theorem exists_firstTry (m : Manager) (block : Block) (oldSize newSize : Nat) :
    ∃ heap, (m.firstTry block oldSize newSize).2 = { m with heap } := by
  rw [firstTry]
  split
  · exact ⟨m.heap, rfl⟩
  · exact ⟨_, rfl⟩

/-- The call that settles a request is reached, if what waits can be freed. -/
theorem exists_beforeSettling (htidy : m.collector.Tidy) (block : Block) (oldSize newSize : Nat) :
    ∃ before, m.beforeSettling block oldSize newSize = .ok before ∧
      m.ReadyFor before block oldSize newSize := by
  rw [beforeSettling]
  cases hcollects : m.collectsFor block oldSize newSize with
  | false =>
    refine ⟨m, rfl, ?_, ?_, rfl⟩
    · rw [hcollects]
      rfl
    · rw [hcollects]
      rfl
  | true =>
    obtain ⟨heap₁, hfirst⟩ := m.exists_firstTry block oldSize newSize
    have htidy₁ : ({ m with heap := heap₁ } : Manager).collector.Tidy := htidy
    obtain ⟨heap₂, hrun⟩ := exists_emergencyCollection htidy₁
    rw [hfirst, hrun]
    refine ⟨_, rfl, ?_, ?_, rfl⟩
    · rw [hcollects]
      rfl
    · rw [hcollects]
      rfl

/-- A request fails when the call that settles it is refused. -/
theorem settleRaw_eq_none_iff (m : Manager) (block : Block) (oldSize newSize : Nat) :
    (m.settleRaw block oldSize newSize).1 = none ↔
      (m.heap.raw.realloc block oldSize newSize).1 = .null := by
  have hanswer : (m.callRaw block oldSize newSize).1 =
    (m.heap.raw.realloc block oldSize newSize).1 := rfl
  rw [settleRaw, ← hanswer]
  rcases m.callRaw block oldSize newSize with ⟨_ | id, m'⟩
  · exact ⟨fun _ => rfl, fun _ => rfl⟩
  · exact ⟨fun h => (nomatch h), fun h => (nomatch h)⟩

theorem collector_settleRaw (m : Manager) (block : Block) (oldSize newSize : Nat) :
    (m.settleRaw block oldSize newSize).2.collector = m.collector := by
  rw [settleRaw]
  simp only
  split <;> rfl

theorem config_settleRaw (m : Manager) (block : Block) (oldSize newSize : Nat) :
    (m.settleRaw block oldSize newSize).2.config = m.config := by
  rw [settleRaw]
  simp only
  split <;> rfl

/-- It is counted as a resize or as a failure. -/
theorem stats_settleRaw (m : Manager) (block : Block) (oldSize : Nat) (hpos : 0 < newSize) :
    (m.settleRaw block oldSize newSize).2.stats =
      { m.stats with
        reallocations := m.stats.reallocations +
          if (m.settleRaw block oldSize newSize).1.isSome then 1 else 0
        failures := m.stats.failures +
          if (m.settleRaw block oldSize newSize).1.isSome then 0 else 1 } := by
  rw [settleRaw]
  simp only
  split
  · rw [countGrant, if_neg (Nat.ne_of_gt hpos)]
    rfl
  · rfl

/-- A request for bytes is counted once, and its collection is. -/
theorem exists_tryRealloc (htidy : m.collector.Tidy) (block : Block) (oldSize : Nat)
    (hpos : 0 < newSize) :
    ∃ before result m', m.beforeSettling block oldSize newSize = .ok before ∧
      m.tryRealloc block oldSize newSize = .ok (result, m') ∧
      (result = none ↔ (before.heap.raw.realloc block oldSize newSize).1 = .null) ∧
      m'.config = m.config ∧
      (m'.collector =
        if m.collectsFor block oldSize newSize then m.collector.collected else m.collector) ∧
      m'.stats =
        { reallocations := m.stats.reallocations + if result.isSome then 1 else 0
          emergencyCollections :=
            m.stats.emergencyCollections + if m.collectsFor block oldSize newSize then 1 else 0
          failures := m.stats.failures + if result.isSome then 0 else 1 } := by
  obtain ⟨before, hbefore, hready⟩ := exists_beforeSettling htidy block oldSize newSize
  refine ⟨before, (before.settleRaw block oldSize newSize).1,
    (before.settleRaw block oldSize newSize).2, hbefore, ?_,
    before.settleRaw_eq_none_iff block oldSize newSize, ?_, ?_, ?_⟩
  · rw [tryRealloc_of_pos m block oldSize hpos, hbefore]
    rfl
  · rw [config_settleRaw, hready.config]
  · rw [collector_settleRaw, hready.collector]
  · rw [stats_settleRaw before block oldSize hpos, hready.stats]

namespace Balanced

variable {owned : List (Block × Nat)} {shift : Int} {id size : Nat}

/-- What waits can be freed. -/
theorem tidy (hb : m.Balanced owned shift) : m.collector.Tidy :=
  fun e he => hb.holds.bottom.tidy e (List.mem_append_left _ he)

/-- The debt is what waits and what the caller holds. -/
theorem debt_eq (hb : m.Balanced owned shift) :
    m.debt = m.collector.pendingBytes + Ledger.bytes owned - shift := by
  have hdebt := hb.debt
  rw [Ledger.bytes_append, ← Collector.pendingBytes_eq] at hdebt
  push_cast at hdebt
  rw [debt]
  omega

/-- So are the bytes in use. -/
theorem inUse_eq (hb : m.Balanced owned shift) :
    m.heap.raw.budget?.map Budget.inUse =
      some (m.collector.pendingBytes + Ledger.bytes owned) := by
  obtain ⟨b, hbudget⟩ := Option.isSome_iff_exists.1 hb.budgeted
  rw [hbudget, Option.map_some, hb.holds.inUse hbudget, Ledger.bytes_append,
    Collector.pendingBytes_eq]

/-- A block that the caller holds is live with its size, and with no other one. -/
theorem mem_live_iff (hb : m.Balanced owned shift) (hmem : (.live id, size) ∈ owned) (n : Nat) :
    (id, n) ∈ m.heap.raw.bottom.live ↔ n = size := by
  have hlive : (id, size) ∈ m.heap.raw.bottom.live :=
    hb.holds.bottom.given.mem_iff.1
      (List.mem_filterMap.2 ⟨_, List.mem_append_right _ hmem, rfl⟩)
  constructor
  · intro hn
    have hsame := List.inj_on_of_nodup_map hb.holds.bottom.nodup hn hlive rfl
    exact congrArg Prod.snd hsame
  · rintro rfl
    exact hlive

end Balanced

/-- What waited is gone if the request collected, and waits if not. -/
theorem pendingBytes_add_releasedFor (m : Manager) (block : Block) (oldSize newSize : Nat) :
    (if m.collectsFor block oldSize newSize then m.collector.collected
      else m.collector).pendingBytes + m.releasedFor block oldSize newSize =
      m.collector.pendingBytes := by
  rw [releasedFor]
  split
  · rw [Collector.pendingBytes_eq, Collector.pending_collected, Ledger.bytes_nil, Nat.zero_add]
  · rfl

/-- **One collection, exact failure.**  The books of a manager balance and a block of them, or the
null block under any label, is given another size.

* No bytes are given without fail, and nothing is collected or counted.
* A request for bytes runs a collection exactly once if one can run, and the first attempt is made
  to fail or the raw call fails, and never otherwise.  It fails exactly if the raw allocator refuses
  the request after that collection, or without one in the first raw call.  It is counted once, as a
  resize or as a failure.
* After a failure the block is live with its size, and from the debt and the bytes in use what the
  collection freed is gone. -/
theorem tryRealloc_exact {owned : List (Block × Nat)} {shift : Int}
    (hb : m.Balanced ((block, block.held oldSize) :: owned) shift) (newSize : Nat) :
    ∃ result m', m.tryRealloc block oldSize newSize = .ok (result, m') ∧
      (newSize = 0 → result = some .null ∧ m'.stats = m.stats ∧ m'.collector = m.collector) ∧
      (0 < newSize → ∃ before, m.beforeSettling block oldSize newSize = .ok before ∧
        (result = none ↔ (before.heap.raw.realloc block oldSize newSize).1 = .null) ∧
        (m'.collector =
          if m.collectsFor block oldSize newSize then m.collector.collected else m.collector) ∧
        m'.stats =
          { reallocations := m.stats.reallocations + if result.isSome then 1 else 0
            emergencyCollections :=
              m.stats.emergencyCollections + if m.collectsFor block oldSize newSize then 1 else 0
            failures := m.stats.failures + if result.isSome then 0 else 1 }) ∧
      (result = none →
        (∀ id n, block = .live id → ((id, n) ∈ m'.heap.raw.bottom.live ↔ n = oldSize)) ∧
        m'.debt = m.debt - m.releasedFor block oldSize newSize ∧
        m'.heap.raw.budget?.map (·.inUse + m.releasedFor block oldSize newSize) =
          m.heap.raw.budget?.map Budget.inUse) := by
  obtain ⟨result, m', hrun, hb'⟩ := hb.tryRealloc newSize
  refine ⟨result, m', hrun, ?_⟩
  rcases Nat.eq_zero_or_pos newSize with rfl | hpos
  · rw [tryRealloc_zero] at hrun
    obtain ⟨rfl, rfl⟩ := Prod.mk.inj (Except.ok.inj hrun)
    exact ⟨fun _ => ⟨rfl, rfl, rfl⟩, fun h => absurd h (Nat.lt_irrefl 0), fun h => nomatch h⟩
  · obtain ⟨before, result₁, m₁, hbefore, hrun₁, hrefused, -, hcollector, hstats⟩ :=
      exists_tryRealloc hb.tidy block oldSize hpos
    rw [hrun] at hrun₁
    obtain ⟨rfl, rfl⟩ := Prod.mk.inj (Except.ok.inj hrun₁)
    refine ⟨fun h => absurd h (Nat.ne_of_gt hpos), fun _ => ⟨before, hbefore, hrefused, hcollector,
      hstats⟩, ?_⟩
    rintro rfl
    have hpending := m.pendingBytes_add_releasedFor block oldSize newSize
    rw [← hcollector] at hpending
    refine ⟨?_, ?_, ?_⟩
    · rintro id n rfl
      exact hb'.mem_live_iff (List.mem_cons_self ..) n
    · rw [hb.debt_eq, hb'.debt_eq, ← hpending, resized]
      push_cast
      omega
    · have hinUse := hb'.inUse_eq
      rw [resized] at hinUse
      obtain ⟨b, hbudget, hbytes⟩ := Option.map_eq_some_iff.1 hinUse
      rw [hb.inUse_eq, hbudget, Option.map_some, hbytes, ← hpending]
      congr 1
      omega

/-- A block of 40 bytes waits and one of 30 is held within 100 bytes.  For 120 bytes the collection
runs and does not help. -/
theorem tryRealloc_exact_refused_twice :
    let m : Manager :=
      { heap :=
          { raw := .budgeted { limit := 100, inUse := 70, labels := [0, 0] }
              (.system { grants := fun _ _ _ => true, requests := 2, live := [(0, 40), (1, 30)] })
            debt := 70 }
        collector := .garbage [(.live 0, 40)] 0 }
    m.Balanced [(.live 1, 30)] 0 ∧ m.collectsFor (.live 1) 30 120 = true ∧
      ∃ m', m.tryRealloc (.live 1) 30 120 = .ok (none, m') ∧ m'.stats = ⟨0, 1, 1⟩ ∧
        (1, 30) ∈ m'.heap.raw.bottom.live ∧ m'.debt = 30 ∧
        m'.heap.raw.budget?.map (·.inUse + 40) = some 70 := by
  intro m
  have hholds : m.heap.raw.Holds [(.live 0, 40), (.live 1, 30)] :=
    ⟨rfl, by decide, by decide, by decide, by decide⟩
  have hb : m.Balanced [(.live 1, (Block.live 1).held 30)] 0 := ⟨rfl, hholds, rfl⟩
  obtain ⟨result, m', hrun, -, hpos, hfail⟩ := tryRealloc_exact hb 120
  obtain ⟨-, -, -, -, hstats⟩ := hpos (by decide)
  obtain rfl : result = none := by
    have hnone : (m.tryRealloc (.live 1) 30 120).map Prod.fst = .ok none := rfl
    rw [hrun] at hnone
    exact Except.ok.inj hnone
  obtain ⟨hlive, hdebt, hinUse⟩ := hfail rfl
  exact ⟨hb, rfl, m', hrun, hstats, (hlive 1 30 rfl).2 rfl, hdebt, hinUse⟩

end Manager

end VmInspect.Memory
