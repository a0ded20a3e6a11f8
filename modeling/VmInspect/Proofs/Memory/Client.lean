import VmInspect.Proofs.Memory.Balance

/-!
# Callers of the manager

A caller asks the manager for blocks and arrays and keeps what it is given.  It resizes, frees and
hands over only what it holds, with the sizes it was given.  This file says what such a caller can
do, and proves that the books balance whatever it does:

* `Client.askNew`, `Client.askBlock`, `Client.askArray` — most requests ask for a new block, or for a
  change of a block or of an array held, and what holds of all of a kind is proved once.
* `Client.Balanced.perform` — every request leaves the books balanced, and none is a misuse.
* `Client.Balanced.run` — so does every list of requests.
* `Client.run_conserves` — from a fresh manager on, the bytes in use, the bytes given out and the
  debt from the first baseline on are the bytes held and the bytes that wait.
-/

namespace VmInspect.Memory

/-- What a caller holds: a block of a size, or an array. -/
inductive Holding where
  | block (block : Block) (size : Nat)
  | array (a : GrowingArray)

/-- The entry of a holding in the caller's ledger. -/
def Holding.entry : Holding → Block × Nat
  | .block b size => (b, size)
  | .array a => a.entry

/-- What a caller can ask for.  Holdings are known by their places, and a request for a place where
the holding is missing, or of the other kind, is not passed on. -/
inductive Request where
  | allocate (size : Nat)
  | allocateLabelled (size label : Nat)
  | tryAllocate (size : Nat)
  | realloc (i newSize : Nat)
  | tryRealloc (i newSize : Nat)
  | free (i : Nat)
  /-- an array of no elements -/
  | newArray (elementSize : Nat)
  | ensureCapacity (i count limit : Nat) (what : String)
  | shrinkTo (i count : Nat)
  | discard (i : Nat)
  | fullCollection
  | setCollecting (on : Bool)
  | setLimit (limit : Nat)
  | shiftBaseline (bytes : Int)

/-- How far a request moves the baseline. -/
def Request.shift : Request → Int
  | shiftBaseline bytes => bytes
  | _ => 0

/-- How a request ended. -/
abbrev Answer := Except AllocationFailure Unit

/-- A manager and what its caller holds. -/
structure Client where
  manager : Manager
  held : List Holding := []

namespace Client

/-- A fresh manager over a budget on the system. -/
def start (grants : Nat → Nat → Nat → Bool) (limit : Nat) (collector : Collector)
    (config : Config) : Client where
  manager := .create (.budgeted { limit } (.system { grants })) collector config

/-- The bytes of all holdings. -/
def heldBytes (c : Client) : Nat := Ledger.bytes (c.held.map Holding.entry)

/-! ## Requests -/

/-- Keep a new block. -/
def keepNew (c : Client) (size : Nat) : Except AllocationFailure Block × Manager → Answer × Client
  | (.ok block, m) => (.ok (), { manager := m, held := c.held ++ [.block block size] })
  | (.error e, m) => (.error e, { c with manager := m })

/-- Keep a holding in the place of another one. -/
def settle (c : Client) (i : Nat) : Except AllocationFailure Holding × Manager → Answer × Client
  | (.ok h, m) => (.ok (), { manager := m, held := c.held.set i h })
  | (.error e, m) => (.error e, { c with manager := m })

/-- Give a holding up. -/
def giveUp (c : Client) (i : Nat) (m : Manager) : Client :=
  { manager := m, held := c.held.eraseIdx i }

/-- The failure of a request that only says that it failed. -/
def orOutOfMemory : Option Block → Except AllocationFailure Block
  | some block => .ok block
  | none => .error .outOfMemory

/-- Make a request. -/
def perform (c : Client) : Request → Except Misuse (Answer × Client)
  | .allocate size => return c.keepNew size (← c.manager.allocate size)
  | .allocateLabelled size label => return c.keepNew size (← c.manager.allocateLabelled size label)
  | .tryAllocate size => do
    let (result, m) ← c.manager.tryAllocate size
    return c.keepNew size (orOutOfMemory result, m)
  | .realloc i newSize =>
    match c.held[i]? with
    | some (.block block size) => do
      let (result, m) ← c.manager.realloc block size newSize
      return c.settle i (result.map fun block => .block block newSize, m)
    | _ => return (.ok (), c)
  | .tryRealloc i newSize =>
    match c.held[i]? with
    | some (.block block size) => do
      let (result, m) ← c.manager.tryRealloc block size newSize
      return c.settle i ((orOutOfMemory result).map fun block => .block block newSize, m)
    | _ => return (.ok (), c)
  | .free i =>
    match c.held[i]? with
    | some h => return (.ok (), c.giveUp i (← c.manager.free h.entry.1 h.entry.2))
    | none => return (.ok (), c)
  | .newArray elementSize =>
    return (.ok (), { c with held := c.held ++ [.array { elementSize }] })
  | .ensureCapacity i count limit what =>
    match c.held[i]? with
    | some (.array a) => do
      let (result, m) ← c.manager.ensureCapacity a count limit what
      return c.settle i (result.map .array, m)
    | _ => return (.ok (), c)
  | .shrinkTo i count =>
    match c.held[i]? with
    | some (.array a) => do
      let (result, m) ← c.manager.shrinkTo a count
      return c.settle i (result.map .array, m)
    | _ => return (.ok (), c)
  | .discard i =>
    match c.held[i]?, c.manager.collector with
    | some h, .garbage _ _ => return (.ok (), c.giveUp i (c.manager.discard h.entry.1 h.entry.2))
    | _, _ => return (.ok (), c)
  | .fullCollection => return (.ok (), { c with manager := ← c.manager.fullCollection })
  | .setCollecting on => return (.ok (), { c with manager := c.manager.setCollecting on })
  | .setLimit limit => return (.ok (), { c with manager := c.manager.setLimit limit })
  | .shiftBaseline bytes => return (.ok (), { c with manager := c.manager.shiftBaseline bytes })

/-- Ask the manager for a new block. -/
def askNew {α : Type} (c : Client) (size : Nat) (outcome : α → Except AllocationFailure Block)
    (op : Except Misuse (α × Manager)) : Except Misuse (Answer × Client) := do
  let (result, m) ← op
  return c.keepNew size (outcome result, m)

/-- Ask the manager to resize a block held. -/
def askBlock {α : Type} (c : Client) (i newSize : Nat) (outcome : α → Except AllocationFailure Block)
    (op : Block → Nat → Except Misuse (α × Manager)) : Except Misuse (Answer × Client) :=
  match c.held[i]? with
  | some (.block block size) => do
    let (result, m) ← op block size
    return c.settle i ((outcome result).map fun block => .block block newSize, m)
  | _ => return (.ok (), c)

/-- Ask the manager to change an array held. -/
def askArray (c : Client) (i : Nat)
    (op : GrowingArray → Except Misuse (Except AllocationFailure GrowingArray × Manager)) :
    Except Misuse (Answer × Client) :=
  match c.held[i]? with
  | some (.array a) => do
    let (result, m) ← op a
    return c.settle i (result.map .array, m)
  | _ => return (.ok (), c)

theorem perform_allocate (c : Client) (size : Nat) :
    c.perform (.allocate size) = c.askNew size id (c.manager.allocateLabelled size 0) := rfl

theorem perform_allocateLabelled (c : Client) (size label : Nat) :
    c.perform (.allocateLabelled size label) =
      c.askNew size id (c.manager.allocateLabelled size label) := rfl

theorem perform_tryAllocate (c : Client) (size : Nat) :
    c.perform (.tryAllocate size) = c.askNew size orOutOfMemory (c.manager.tryAllocate size) := rfl

theorem perform_realloc (c : Client) (i newSize : Nat) :
    c.perform (.realloc i newSize) = c.askBlock i newSize id (c.manager.realloc · · newSize) := rfl

theorem perform_tryRealloc (c : Client) (i newSize : Nat) :
    c.perform (.tryRealloc i newSize) =
      c.askBlock i newSize orOutOfMemory (c.manager.tryRealloc · · newSize) := rfl

theorem perform_ensureCapacity (c : Client) (i count limit : Nat) (what : String) :
    c.perform (.ensureCapacity i count limit what) =
      c.askArray i (c.manager.ensureCapacity · count limit what) := rfl

theorem perform_shrinkTo (c : Client) (i count : Nat) :
    c.perform (.shrinkTo i count) = c.askArray i (c.manager.shrinkTo · count) := rfl

/-- Make one request after another. -/
def run (c : Client) : List Request → Except Misuse (List Answer × Client)
  | [] => return ([], c)
  | request :: requests => do
    let (answer, c) ← c.perform request
    let (answers, c) ← c.run requests
    return (answer :: answers, c)

/-! ## The books -/

/-- The manager's books balance with the caller's ledger. -/
def Balanced (c : Client) (shift : Int) : Prop :=
  c.manager.Balanced (c.held.map Holding.entry) shift

namespace Balanced

variable {c : Client} {shift : Int} {i : Nat} {h : Holding}

/-- One holding can be looked at apart from the others. -/
theorem split (hb : c.Balanced shift) (hi : c.held[i]? = some h) :
    c.manager.Balanced (h.entry :: (c.held.eraseIdx i).map Holding.entry) shift := by
  obtain ⟨hlt, rfl⟩ := List.getElem?_eq_some_iff.1 hi
  exact Manager.Balanced.perm hb ((List.getElem_cons_eraseIdx_perm hlt).symm.map Holding.entry)

theorem keepNew {size : Nat} {result : Except AllocationFailure Block} {m : Manager}
    (hb : m.Balanced (Manager.resized (.null, 0) result.toOption size ::
      c.held.map Holding.entry) shift) :
    (c.keepNew size (result, m)).2.Balanced shift := by
  cases result with
  | error e => exact Manager.Balanced.tail_zero hb
  | ok block =>
    have hp := (List.perm_append_singleton (.block block size) c.held).symm.map Holding.entry
    exact Manager.Balanced.perm hb hp

theorem settle (hi : c.held[i]? = some h) {result : Except AllocationFailure Holding}
    {m : Manager}
    (hb : m.Balanced ((result.toOption.getD h).entry ::
      (c.held.eraseIdx i).map Holding.entry) shift) :
    (c.settle i (result, m)).2.Balanced shift := by
  obtain ⟨hlt, rfl⟩ := List.getElem?_eq_some_iff.1 hi
  cases result with
  | error e =>
    exact Manager.Balanced.perm hb ((List.getElem_cons_eraseIdx_perm hlt).map Holding.entry)
  | ok h =>
    exact Manager.Balanced.perm hb ((List.set_perm_cons_eraseIdx hlt h).symm.map Holding.entry)

/-- A new block, if there is one, is held beside the others. -/
theorem askNew {α : Type} {size : Nat} {outcome : α → Except AllocationFailure Block}
    {op : Except Misuse (α × Manager)}
    (hop : ∃ result m, op = .ok (result, m) ∧
      m.Balanced (Manager.resized (.null, 0) (outcome result).toOption size ::
        c.held.map Holding.entry) shift) :
    ∃ p, c.askNew size outcome op = .ok p ∧ p.2.Balanced shift := by
  obtain ⟨result, m, rfl, hb⟩ := hop
  exact ⟨_, rfl, keepNew hb⟩

/-- A resize settles the entry of a block held. -/
theorem askBlock {α : Type} {newSize : Nat} {outcome : α → Except AllocationFailure Block}
    {op : Block → Nat → Except Misuse (α × Manager)} (hb : c.Balanced shift)
    (hop : ∀ block size,
      c.manager.Balanced ((block, size) :: (c.held.eraseIdx i).map Holding.entry) shift →
        ∃ result m, op block size = .ok (result, m) ∧
          m.Balanced (Manager.resized (block, size) (outcome result).toOption newSize ::
            (c.held.eraseIdx i).map Holding.entry) shift) :
    ∃ p, c.askBlock i newSize outcome op = .ok p ∧ p.2.Balanced shift := by
  rw [Client.askBlock]
  split
  · rename_i block size hi
    obtain ⟨result, m, hrun, hb'⟩ := hop block size (hb.split hi)
    refine ⟨c.settle i ((outcome result).map fun block => .block block newSize, m), ?_, settle hi ?_⟩
    · rw [hrun]
      rfl
    · cases houtcome : outcome result with
      | error e => rwa [houtcome] at hb'
      | ok block => rwa [houtcome] at hb'
  · exact ⟨_, rfl, hb⟩

/-- A change of an array settles its entry. -/
theorem askArray {op : GrowingArray → Except Misuse (Except AllocationFailure GrowingArray × Manager)}
    (hb : c.Balanced shift)
    (hop : ∀ a, c.manager.Balanced (a.entry :: (c.held.eraseIdx i).map Holding.entry) shift →
      ∃ result m, op a = .ok (result, m) ∧
        m.Balanced ((result.toOption.getD a).entry :: (c.held.eraseIdx i).map Holding.entry) shift) :
    ∃ p, c.askArray i op = .ok p ∧ p.2.Balanced shift := by
  rw [Client.askArray]
  split
  · rename_i a hi
    obtain ⟨result, m, hrun, hb'⟩ := hop a (hb.split hi)
    refine ⟨c.settle i (result.map .array, m), ?_, settle hi ?_⟩
    · rw [hrun]
      rfl
    · cases result with
      | error e => exact hb'
      | ok a => exact hb'
  · exact ⟨_, rfl, hb⟩

theorem toOption_orOutOfMemory (result : Option Block) :
    (orOutOfMemory result).toOption = result := by
  cases result <;> rfl

/-- Most requests leave the baseline where it is. -/
theorem still (hb : c.Balanced shift) : c.Balanced (shift + 0) := by
  rw [Int.add_zero]
  exact hb

theorem stays {x : Except Misuse (Answer × Client)} (h : ∃ p, x = .ok p ∧ p.2.Balanced shift) :
    ∃ p, x = .ok p ∧ p.2.Balanced (shift + 0) := by
  obtain ⟨p, hx, hb⟩ := h
  exact ⟨p, hx, hb.still⟩

/-- The step lemma: a request leaves the books balanced, and it is no misuse. -/
theorem perform (hb : c.Balanced shift) (request : Request) :
    ∃ p, c.perform request = .ok p ∧ p.2.Balanced (shift + request.shift) := by
  cases request with
  | allocate size =>
    rw [perform_allocate]
    exact stays (askNew (Manager.Balanced.allocateLabelled hb size 0))
  | allocateLabelled size label =>
    rw [perform_allocateLabelled]
    exact stays (askNew (Manager.Balanced.allocateLabelled hb size label))
  | tryAllocate size =>
    obtain ⟨result, m, hrun, hb'⟩ := Manager.Balanced.tryAllocate hb size
    rw [← toOption_orOutOfMemory result] at hb'
    rw [perform_tryAllocate]
    exact stays (askNew ⟨result, m, hrun, hb'⟩)
  | realloc i newSize =>
    rw [perform_realloc]
    refine stays (hb.askBlock fun block size hsplit => ?_)
    obtain ⟨result, m, hrun, hb'⟩ := hsplit.held.realloc newSize
    rw [hsplit.held_eq] at hb'
    exact ⟨result, m, hrun, hb'⟩
  | tryRealloc i newSize =>
    rw [perform_tryRealloc]
    refine stays (hb.askBlock fun block size hsplit => ?_)
    obtain ⟨result, m, hrun, hb'⟩ := hsplit.held.tryRealloc newSize
    rw [hsplit.held_eq, ← toOption_orOutOfMemory result] at hb'
    exact ⟨result, m, hrun, hb'⟩
  | free i =>
    rw [Client.perform]
    split
    · rename_i h hi
      have hsplit : c.manager.Balanced ((h.entry.1, h.entry.2) :: _) shift := hb.split hi
      obtain ⟨m, hrun, hb'⟩ := hsplit.free
      refine ⟨(.ok (), c.giveUp i m), ?_, still hb'⟩
      rw [hrun]
      rfl
    · exact ⟨_, rfl, hb.still⟩
  | newArray elementSize =>
    have hb' : c.manager.Balanced ((Holding.array { elementSize }).entry ::
        c.held.map Holding.entry) shift := by
      rw [Holding.entry, GrowingArray.entry, Nat.zero_mul]
      exact Manager.Balanced.cons_null hb
    refine ⟨_, rfl, still (Manager.Balanced.perm hb' ?_)⟩
    exact (List.perm_append_singleton (.array { elementSize }) c.held).symm.map Holding.entry
  | ensureCapacity i count limit what =>
    rw [perform_ensureCapacity]
    exact stays (hb.askArray fun _ hsplit => hsplit.ensureCapacity count limit what)
  | shrinkTo i count =>
    rw [perform_shrinkTo]
    exact stays (hb.askArray fun _ hsplit => hsplit.shrinkTo count)
  | discard i =>
    rw [Client.perform]
    split
    · rename_i h pending n hi hc
      exact ⟨_, rfl, still (Manager.Balanced.discard (hb.split hi) hc)⟩
    · exact ⟨_, rfl, hb.still⟩
  | fullCollection =>
    obtain ⟨m, hrun, hb'⟩ := Manager.Balanced.fullCollection hb
    refine ⟨(.ok (), { c with manager := m }), ?_, still hb'⟩
    rw [Client.perform, hrun]
    rfl
  | setCollecting on => exact ⟨_, rfl, still (Manager.Balanced.setCollecting hb on)⟩
  | setLimit limit => exact ⟨_, rfl, still (Manager.Balanced.setLimit hb limit)⟩
  | shiftBaseline bytes => exact ⟨_, rfl, Manager.Balanced.shiftBaseline hb bytes⟩

/-- The run lemma: so do any requests, one after another. -/
theorem run (hb : c.Balanced shift) (requests : List Request) :
    ∃ p, c.run requests = .ok p ∧ p.2.Balanced (shift + (requests.map Request.shift).sum) := by
  induction requests generalizing c shift with
  | nil => exact ⟨([], c), rfl, hb.still⟩
  | cons request requests ih =>
    obtain ⟨⟨answer, c₁⟩, hfirst, hb₁⟩ := hb.perform request
    obtain ⟨⟨answers, c₂⟩, hrest, hb₂⟩ := ih hb₁
    refine ⟨(answer :: answers, c₂), ?_, ?_⟩
    · rw [Client.run, hfirst]
      simp only [bind, Except.bind, hrest]
      rfl
    · rw [List.map_cons, List.sum_cons, ← Int.add_assoc]
      exact hb₂

end Balanced

/-- Before the first request the books are empty. -/
theorem balanced_start (grants : Nat → Nat → Nat → Bool) (limit : Nat) {collector : Collector}
    (config : Config) (hempty : collector.pending = []) :
    (start grants limit collector config).Balanced 0 := by
  have hsystem : ({ grants } : System).Holds [] := System.Holds.of_live_nil rfl
  rw [Balanced, Manager.Balanced, start, Manager.create]
  simp only [hempty]
  exact ⟨rfl, ⟨rfl, hsystem⟩, rfl⟩

/-- **The debt is conserved.**  From a fresh manager with nothing waiting to be freed, any requests
can be made, whatever the system answers and whether or not they succeed.  After them the bytes in
use of the budget, the bytes that the system has given out, and the debt with all shifts of the
baseline are the bytes held and the bytes that wait to be freed. -/
theorem run_conserves (grants : Nat → Nat → Nat → Bool) (limit : Nat) (collector : Collector)
    (config : Config) (hempty : collector.pending = []) (requests : List Request) :
    ∃ answers c, (start grants limit collector config).run requests = .ok (answers, c) ∧
      c.manager.heap.raw.budget?.map Budget.inUse =
        some (c.heldBytes + c.manager.collector.pendingBytes) ∧
      c.manager.heap.raw.bottom.liveBytes = c.heldBytes + c.manager.collector.pendingBytes ∧
      c.manager.debt + (requests.map Request.shift).sum =
        c.heldBytes + c.manager.collector.pendingBytes := by
  obtain ⟨⟨answers, c⟩, hrun, hb⟩ := (balanced_start grants limit config hempty).run requests
  have hbytes : Ledger.bytes (c.manager.collector.pending ++ c.held.map Holding.entry) =
      c.heldBytes + c.manager.collector.pendingBytes := by
    rw [Ledger.bytes_append, Nat.add_comm, ← heldBytes, Collector.pendingBytes_eq]
  refine ⟨answers, c, hrun, ?_, ?_, ?_⟩
  · obtain ⟨b, hbudget⟩ := Option.isSome_iff_exists.1 hb.budgeted
    rw [hbudget, Option.map_some, hb.holds.inUse hbudget, hbytes]
  · rw [hb.holds.liveBytes, hbytes]
  · have hdebt := hb.debt
    rw [hbytes, Int.zero_add] at hdebt
    exact hdebt

/-- A block waits while another one is asked for, so that an emergency collection frees it in the
middle of the request.  A later request fails. -/
theorem run_conserves_emergency :
    let requests := [.allocate 64, .discard 0, .allocateLabelled 60 7, .newArray 8,
      .ensureCapacity 1 0 100 "items", .tryRealloc 0 200, .shiftBaseline 16]
    let run := (start (fun _ _ _ => true) 100 .emptyGarbage {}).run requests
    run.map (fun p => (p.1, p.2.heldBytes, p.2.manager.debt)) =
        .ok ([.ok (), .ok (), .ok (), .ok (), .ok (), .error .outOfMemory, .ok ()], 92, 76) ∧
      ∃ answers c, run = .ok (answers, c) ∧
        c.manager.debt + 16 = c.heldBytes + c.manager.collector.pendingBytes := by
  intro requests run
  obtain ⟨answers, c, hrun, -, -, hdebt⟩ :=
    run_conserves (fun _ _ _ => true) 100 .emptyGarbage {} rfl requests
  exact ⟨rfl, answers, c, hrun, hdebt⟩

end Client

end VmInspect.Memory
