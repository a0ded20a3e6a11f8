import VmInspect.Proofs.Memory.Attempts
import VmInspect.Proofs.Memory.Client

/-!
# Arrays under failure

A growing array is a block with a capacity that its owner keeps beside it.  The old size of the
block is worked out from the capacity at each resize, so the two must never come apart.  This file
proves that they do not, whatever is asked of the manager and whether or not it is granted:

* `Client.Balanced.backsArrays` — while the books balance, the block of every array held is live
  with the bytes of its capacity.
* `Client.held_of_error` — a request that fails leaves what the caller holds alone.
* `Manager.Balanced.shrinkTo_exact` — an array that was shrunk has the capacity asked for, and the
  debt has moved by the bytes between, beside what a collection freed.
* `Client.run_keeps_arrays` — so it is after any requests to a fresh manager.
-/

namespace VmInspect.Memory

/-- The block of an array is live with the bytes of its capacity, and with no other size.  No bytes
are the null block. -/
def GrowingArray.BackedBy (a : GrowingArray) (s : System) : Prop :=
  if a.capacity * a.elementSize = 0 then a.block = .null
  else ∃ id, a.block = .live id ∧ ∀ n, (id, n) ∈ s.live ↔ n = a.capacity * a.elementSize

/-! ## Collections on the way -/

namespace Manager

variable {m m' : Manager} {block : Block} {oldSize newSize : Nat} {result : Option Block}

/-- What was freed between two states of a manager with at most one emergency collection between
them. -/
def freedUntil (m m' : Manager) : Nat :=
  if m'.stats.emergencyCollections = m.stats.emergencyCollections then 0
  else m.collector.pendingBytes

/-- What waited before a request waits after it, or was freed by its collection. -/
theorem pendingBytes_add_freedUntil (htidy : m.collector.Tidy)
    (hrun : m.tryRealloc block oldSize newSize = .ok (result, m')) :
    m'.collector.pendingBytes + m.freedUntil m' = m.collector.pendingBytes := by
  rcases Nat.eq_zero_or_pos newSize with rfl | hpos
  · rw [tryRealloc_zero] at hrun
    obtain ⟨-, rfl⟩ := Prod.mk.inj (Except.ok.inj hrun)
    have hfreed : m.freedUntil ((m.callRaw block oldSize 0).2.countGrant block oldSize 0) = 0 :=
      if_pos rfl
    rw [hfreed]
    rfl
  · obtain ⟨-, result₁, m₁, -, hrun₁, -, -, hcollector, hstats⟩ :=
      exists_tryRealloc htidy block oldSize hpos
    rw [hrun] at hrun₁
    obtain ⟨rfl, rfl⟩ := Prod.mk.inj (Except.ok.inj hrun₁)
    have hfreed : m.freedUntil m' = m.releasedFor block oldSize newSize := by
      rw [freedUntil, releasedFor, hstats]
      cases m.collectsFor block oldSize newSize <;> simp
    rw [hfreed, hcollector, pendingBytes_add_releasedFor]

/-! ## One array -/

variable {a a' : GrowingArray} {capacity : Nat}

theorem realloc_ok {answer : Block}
    (hrun : m.realloc block oldSize newSize = .ok (.ok answer, m')) :
    m.tryRealloc block oldSize newSize = .ok (some answer, m') := by
  obtain ⟨⟨given, m₁⟩, htry, hafter⟩ := exists_of_bind_ok hrun
  cases given with
  | none => cases hafter
  | some given =>
    obtain ⟨hanswer, rfl⟩ := Prod.mk.inj (Except.ok.inj hafter)
    rw [htry, Except.ok.inj hanswer]

/-- All that a change of the capacity can do: it is refused as it stands, or the block is
resized. -/
theorem resizeArray_cases {result : Except AllocationFailure GrowingArray}
    (hrun : m.resizeArray a capacity = .ok (result, m')) :
    (m' = m ∧ ∃ e, result = .error e) ∨
      (capacity * a.elementSize ≤ GrowingArray.maxBytes ∧
        ∃ answer, m.realloc a.block (a.capacity * a.elementSize) (capacity * a.elementSize) =
            .ok (answer, m') ∧
          result = answer.map fun block => { a with block, capacity }) := by
  rw [resizeArray] at hrun
  cases hold : a.byteSize a.capacity with
  | error e =>
    rw [hold] at hrun
    obtain ⟨rfl, rfl⟩ := Prod.mk.inj (Except.ok.inj hrun)
    exact .inl ⟨rfl, e, rfl⟩
  | ok oldBytes =>
    cases hnew : a.byteSize capacity with
    | error e =>
      rw [hold, hnew] at hrun
      obtain ⟨rfl, rfl⟩ := Prod.mk.inj (Except.ok.inj hrun)
      exact .inl ⟨rfl, e, rfl⟩
    | ok newBytes =>
      rw [hold, hnew] at hrun
      obtain ⟨⟨answer, m₁⟩, hrealloc, hafter⟩ := exists_of_bind_ok hrun
      obtain ⟨rfl, rfl⟩ := Prod.mk.inj (Except.ok.inj hafter)
      rw [GrowingArray.eq_of_byteSize hold, GrowingArray.eq_of_byteSize hnew]
      exact .inr ⟨GrowingArray.le_maxBytes hnew, answer, hrealloc, rfl⟩

/-- An array that was given another capacity was given a block for it. -/
theorem resizeArray_ok (hrun : m.resizeArray a capacity = .ok (.ok a', m')) :
    ∃ block, a' = { a with block, capacity } ∧
      m.tryRealloc a.block (a.capacity * a.elementSize) (capacity * a.elementSize) =
        .ok (some block, m') := by
  rcases resizeArray_cases hrun with ⟨-, e, he⟩ | ⟨-, answer, hrealloc, hresult⟩
  · cases he
  · cases answer with
    | error e => cases hresult
    | ok block => exact ⟨block, Except.ok.inj hresult, realloc_ok hrealloc⟩

namespace Balanced

variable {owned : List (Block × Nat)} {shift : Int}

/-- While the books balance, the block of an array is live with the bytes of its capacity. -/
theorem backs (hb : m.Balanced owned shift) (hmem : a.entry ∈ owned) :
    a.BackedBy m.heap.raw.bottom := by
  have htidy : a.capacity * a.elementSize = 0 ↔ a.block = .null :=
    hb.holds.bottom.tidy a.entry (List.mem_append_right _ hmem)
  rw [GrowingArray.BackedBy]
  split
  · rename_i hzero
    exact htidy.1 hzero
  · rename_i hpos
    cases hblock : a.block with
    | null => exact absurd (htidy.2 hblock) hpos
    | live id =>
      rw [GrowingArray.entry, hblock] at hmem
      exact ⟨id, rfl, hb.mem_live_iff hmem⟩

/-- An array that was shrunk has the capacity asked for, and the debt has moved by the bytes
between, beside what a collection freed. -/
theorem shrinkTo_exact (hb : m.Balanced (a.entry :: owned) shift) {count : Nat}
    (hrun : m.shrinkTo a count = .ok (.ok a', m')) :
    (∃ block, a' = { a with block, capacity := count }) ∧
      m'.debt = m.debt + (count * a.elementSize : Nat) - (a.capacity * a.elementSize : Nat) -
        m.freedUntil m' := by
  obtain ⟨block, rfl, htry⟩ := resizeArray_ok hrun
  obtain ⟨result, m₁, hrun₁, hb'⟩ := hb.shrinkTo count
  rw [hrun] at hrun₁
  obtain ⟨rfl, rfl⟩ := Prod.mk.inj (Except.ok.inj hrun₁)
  refine ⟨⟨block, rfl⟩, ?_⟩
  have hpending := pendingBytes_add_freedUntil hb.tidy htry
  have hbytes : Ledger.bytes (a.entry :: owned) =
      a.capacity * a.elementSize + Ledger.bytes owned := Ledger.bytes_cons ..
  have hbytes' : Ledger.bytes (GrowingArray.entry { a with block, capacity := count } :: owned) =
      count * a.elementSize + Ledger.bytes owned := Ledger.bytes_cons ..
  rw [hb.debt_eq, hb'.debt_eq, hbytes]
  simp only [Except.toOption, Option.getD_some, hbytes']
  omega

end Balanced

end Manager

/-! ## Callers -/

namespace Client

variable {c c' : Client} {shift : Int} {i : Nat} {e : AllocationFailure}

/-- The block of every array held is live with the bytes of its capacity. -/
def BacksArrays (c : Client) : Prop :=
  ∀ (i : Nat) (a : GrowingArray), c.held[i]? = some (.array a) →
    a.BackedBy c.manager.heap.raw.bottom

theorem Balanced.backsArrays (hb : c.Balanced shift) : c.BacksArrays := by
  intro i a hi
  exact Manager.Balanced.backs hb
    (List.mem_map.2 ⟨.array a, List.mem_of_getElem? hi, rfl⟩)

/-! ### Failures -/

theorem held_keepNew {size : Nat} {p : Except AllocationFailure Block × Manager}
    (h : (c.keepNew size p).1 = .error e) : (c.keepNew size p).2.held = c.held := by
  obtain ⟨result, m⟩ := p
  cases result with
  | error e => rfl
  | ok block => cases h

theorem held_settle {p : Except AllocationFailure Holding × Manager}
    (h : (c.settle i p).1 = .error e) : (c.settle i p).2.held = c.held := by
  obtain ⟨result, m⟩ := p
  cases result with
  | error e => rfl
  | ok h' => cases h

theorem held_of_bind {α : Type} {x : Except Misuse α} (f : α → Answer × Client)
    (hf : ∀ p, (f p).1 = .error e → (f p).2.held = c.held)
    (hrun : (do return f (← x)) = (.ok (.error e, c') : Except Misuse (Answer × Client))) :
    c'.held = c.held := by
  obtain ⟨p, -, hafter⟩ := exists_of_bind_ok hrun
  have hp : f p = (.error e, c') := Except.ok.inj hafter
  have hheld := hf p (by rw [hp])
  rw [hp] at hheld
  exact hheld

theorem held_askNew {α : Type} {size : Nat} {outcome : α → Except AllocationFailure Block}
    {op : Except Misuse (α × Manager)}
    (hrun : c.askNew size outcome op = .ok (.error e, c')) : c'.held = c.held :=
  held_of_bind (fun p : α × Manager => c.keepNew size (outcome p.1, p.2)) (fun _ => held_keepNew)
    hrun

theorem held_askBlock {α : Type} {newSize : Nat} {outcome : α → Except AllocationFailure Block}
    {op : Block → Nat → Except Misuse (α × Manager)}
    (hrun : c.askBlock i newSize outcome op = .ok (.error e, c')) : c'.held = c.held := by
  rw [askBlock] at hrun
  split at hrun
  · exact held_of_bind
      (fun p : α × Manager =>
        c.settle i ((outcome p.1).map fun block => .block block newSize, p.2))
      (fun _ => held_settle) hrun
  · cases hrun

theorem held_askArray
    {op : GrowingArray → Except Misuse (Except AllocationFailure GrowingArray × Manager)}
    (hrun : c.askArray i op = .ok (.error e, c')) : c'.held = c.held := by
  rw [askArray] at hrun
  split at hrun
  · exact held_of_bind
      (fun p : Except AllocationFailure GrowingArray × Manager => c.settle i (p.1.map .array, p.2))
      (fun _ => held_settle) hrun
  · cases hrun

/-- A request that fails leaves what the caller holds alone. -/
theorem held_of_error {request : Request} (hrun : c.perform request = .ok (.error e, c')) :
    c'.held = c.held := by
  cases request with
  | allocate size =>
    rw [perform_allocate] at hrun
    exact held_askNew hrun
  | allocateLabelled size label =>
    rw [perform_allocateLabelled] at hrun
    exact held_askNew hrun
  | tryAllocate size =>
    rw [perform_tryAllocate] at hrun
    exact held_askNew hrun
  | realloc i newSize =>
    rw [perform_realloc] at hrun
    exact held_askBlock hrun
  | tryRealloc i newSize =>
    rw [perform_tryRealloc] at hrun
    exact held_askBlock hrun
  | free i =>
    rw [perform] at hrun
    split at hrun
    · exact held_of_bind (fun m => (.ok (), c.giveUp i m)) (fun _ h => by cases h) hrun
    · cases hrun
  | newArray elementSize => cases hrun
  | ensureCapacity i count limit what =>
    rw [perform_ensureCapacity] at hrun
    exact held_askArray hrun
  | shrinkTo i count =>
    rw [perform_shrinkTo] at hrun
    exact held_askArray hrun
  | discard i =>
    rw [perform] at hrun
    split at hrun <;> cases hrun
  | fullCollection =>
    exact held_of_bind (fun m => (.ok (), { c with manager := m })) (fun _ h => by cases h) hrun
  | setCollecting on => cases hrun
  | setLimit limit => cases hrun
  | shiftBaseline bytes => cases hrun

/-- An array that was shrunk for a caller has the capacity asked for, and the debt has moved by the
bytes between, beside what a collection freed. -/
theorem Balanced.shrinkTo_exact (hb : c.Balanced shift) {a : GrowingArray} {count : Nat}
    (hi : c.held[i]? = some (.array a))
    (hrun : c.perform (.shrinkTo i count) = .ok (.ok (), c')) :
    (∃ block, c'.held = c.held.set i (.array { a with block, capacity := count })) ∧
      c'.manager.debt = c.manager.debt + (count * a.elementSize : Nat) -
        (a.capacity * a.elementSize : Nat) - c.manager.freedUntil c'.manager := by
  have hsplit : c.manager.Balanced (a.entry :: _) shift := hb.split hi
  obtain ⟨result, m', hinner, -⟩ := hsplit.shrinkTo count
  rw [Client.perform] at hrun
  simp only [hi, hinner] at hrun
  cases result with
  | error e => cases Except.ok.inj hrun
  | ok a' =>
    obtain ⟨-, rfl⟩ := Prod.mk.inj (Except.ok.inj hrun)
    obtain ⟨⟨block, rfl⟩, hdebt⟩ := hsplit.shrinkTo_exact hinner
    exact ⟨⟨block, rfl⟩, hdebt⟩

/-- **Arrays stay consistent under failure.**  From a fresh manager with nothing waiting to be
freed, any requests can be made, whatever the system answers and whether or not they succeed.  After
them the block of every array is live with the bytes of its capacity, and so it is after one more
request.  If that one fails, the caller holds what it held.  If it shrinks an array, the array has
the capacity asked for, and the debt has moved by the bytes between, beside what a collection
freed. -/
theorem run_keeps_arrays (grants : Nat → Nat → Nat → Bool) (limit : Nat) (collector : Collector)
    (config : Config) (hempty : collector.pending = []) (requests : List Request) :
    ∃ answers c, (start grants limit collector config).run requests = .ok (answers, c) ∧
      c.BacksArrays ∧
      ∀ request, ∃ answer c', c.perform request = .ok (answer, c') ∧
        c'.BacksArrays ∧
        (∀ e, answer = .error e → c'.held = c.held) ∧
        ∀ i count a, request = .shrinkTo i count → c.held[i]? = some (.array a) →
          answer = .ok () →
            (∃ block, c'.held = c.held.set i (.array { a with block, capacity := count })) ∧
              c'.manager.debt = c.manager.debt + (count * a.elementSize : Nat) -
                (a.capacity * a.elementSize : Nat) - c.manager.freedUntil c'.manager := by
  obtain ⟨⟨answers, c⟩, hrun, hb⟩ := (balanced_start grants limit config hempty).run requests
  refine ⟨answers, c, hrun, hb.backsArrays, fun request => ?_⟩
  obtain ⟨⟨answer, c'⟩, hnext, hb'⟩ := hb.perform request
  refine ⟨answer, c', hnext, hb'.backsArrays, ?_, ?_⟩
  · rintro e rfl
    exact held_of_error hnext
  · rintro i count a rfl hi rfl
    exact hb.shrinkTo_exact hi hnext

/-- An array cannot grow after the limit was lowered.  Then a block of 40 bytes waits while the
array is shrunk, and the collection before that frees it. -/
theorem run_keeps_arrays_shrunk :
    let requests := [.allocate 40, .newArray 8, .ensureCapacity 1 0 100 "items", .setLimit 60,
      .ensureCapacity 1 4 100 "items", .discard 0]
    let run :=
      (start (fun _ _ _ => true) 100 .emptyGarbage { emergencyStress := true }).run requests
    run.map Prod.fst = .ok [.ok (), .ok (), .ok (), .ok (), .error .outOfMemory, .ok ()] ∧
      ∃ answers c c', run = .ok (answers, c) ∧ c.BacksArrays ∧
        c.perform (.shrinkTo 0 2) = .ok (.ok (), c') ∧ c'.BacksArrays ∧
        (∃ block, c'.held = [.array ⟨block, 2, 8⟩]) ∧ c'.manager.debt = 72 + 16 - 32 - 40 := by
  intro requests run
  let before : Client :=
    { manager :=
        { heap :=
            { raw := .budgeted { limit := 60, inUse := 72, labels := [0, 0] }
                (.system { grants := fun _ _ _ => true, requests := 2, live := [(0, 40), (1, 32)] })
              debt := 72 }
          collector := .garbage [(.live 0, 40)] 3
          config := { emergencyStress := true }
          stats := ⟨2, 3, 1⟩ }
      held := [.array ⟨.live 1, 4, 8⟩] }
  obtain ⟨answers, c, hrun, hbacks, hnext⟩ :=
    run_keeps_arrays (fun _ _ _ => true) 100 .emptyGarbage { emergencyStress := true } rfl requests
  obtain ⟨answer, c', hlast, hbacks', -, hshrunk⟩ := hnext (.shrinkTo 0 2)
  have hbefore : .ok before = Except.ok c := congrArg (Except.map Prod.snd) hrun
  obtain rfl := Except.ok.inj hbefore
  have hanswer : .ok (.ok ()) = Except.ok answer := congrArg (Except.map Prod.fst) hlast
  obtain rfl := Except.ok.inj hanswer
  obtain ⟨hheld, hdebt⟩ := hshrunk 0 2 ⟨.live 1, 4, 8⟩ rfl rfl rfl
  have hfreed : .ok 40 = Except.ok (before.manager.freedUntil c'.manager) :=
    congrArg (Except.map fun p : Answer × Client => before.manager.freedUntil p.2.manager) hlast
  rw [← Except.ok.inj hfreed] at hdebt
  exact ⟨rfl, answers, _, c', hrun, hbacks, hlast, hbacks', hheld, hdebt⟩

end Client

end VmInspect.Memory
