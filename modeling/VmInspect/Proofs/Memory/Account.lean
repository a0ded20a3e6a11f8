import VmInspect.Proofs.Memory.Client
import VmInspect.Proofs.Memory.Terms

/-!
# Collections are not seen by the caller

What a caller is told, and what it holds, can be worked out from an account that has no blocks and no
collector: the terms of the manager, and the sizes of the caller's holdings.  So it does not matter
when the collector runs.

* `Client.Follows.askNew`, `Client.Follows.askBlock`, `Client.Follows.askArray` — a new block, a block held
  and an array held come to the same for the account, whichever request it is that asks for them.
* `Client.Follows.perform` — every request is answered as the account says.
* `Client.Follows.run` — so is every list of requests.
* `Client.run_stress` — a manager whose first attempts are made to fail, so that it collects before
  each allocation, gives the same answers as one that collects only when it has to.
-/

namespace VmInspect.Memory

/-- A holding without its block. -/
def Holding.outline : Holding → Holding
  | .block _ size => .block .null size
  | .array a => .array a.outline

/-- What a caller and its manager have agreed on: the terms, and the holdings without their blocks. -/
structure Account where
  terms : Terms
  held : List Holding

namespace Account

/-- The bytes of all holdings. -/
def heldBytes (A : Account) : Nat := Ledger.bytes (A.held.map Holding.entry)

/-- The bytes of all holdings but one. -/
def others (A : Account) (i : Nat) : Nat := Ledger.bytes ((A.held.eraseIdx i).map Holding.entry)

/-- Keep a new block, if it was granted. -/
def keepNew (A : Account) (size : Nat) : Bool × Terms → Answer × Account
  | (true, terms) => (.ok (), { terms, held := A.held ++ [.block .null size] })
  | (false, terms) => (.error .outOfMemory, { A with terms })

/-- Keep a holding in the place of another one. -/
def settle (A : Account) (i : Nat) : Except AllocationFailure Holding × Terms → Answer × Account
  | (.ok h, terms) => (.ok (), { terms, held := A.held.set i h })
  | (.error e, terms) => (.error e, { A with terms })

/-- Allocate a block under a label. -/
def allocate (A : Account) (size label : Nat) : Answer × Account :=
  A.keepNew size (A.terms.resize A.heldBytes true label size)

/-- Resize a block. -/
def resizeBlock (A : Account) (i newSize : Nat) : Answer × Account :=
  match A.held[i]? with
  | some (.block _ size) =>
    let (granted, terms) := A.terms.resize (A.others i) (size == 0) size newSize
    A.settle i (Terms.given granted (.block .null newSize), terms)
  | _ => (.ok (), A)

/-- Change an array. -/
def changeArray (A : Account) (i : Nat)
    (change : GrowingArray → Except AllocationFailure GrowingArray × Terms) : Answer × Account :=
  match A.held[i]? with
  | some (.array a) => A.settle i ((change a).1.map .array, (change a).2)
  | _ => (.ok (), A)

/-- Give a holding up. -/
def giveUp (A : Account) (i : Nat) : Account := { A with held := A.held.eraseIdx i }

/-- What becomes of a request. -/
def perform (A : Account) : Request → Answer × Account
  | .allocate size => A.allocate size 0
  | .allocateLabelled size label => A.allocate size label
  | .tryAllocate size => A.allocate size 0
  | .realloc i newSize => A.resizeBlock i newSize
  | .tryRealloc i newSize => A.resizeBlock i newSize
  | .free i => (.ok (), A.giveUp i)
  | .newArray elementSize => (.ok (), { A with held := A.held ++ [.array { elementSize }] })
  | .ensureCapacity i count limit what =>
    A.changeArray i fun a => A.terms.ensureCapacity (A.others i) a count limit what
  | .shrinkTo i count => A.changeArray i fun a => A.terms.resizeArray (A.others i) a count
  | .discard i => (.ok (), if A.terms.keepsGarbage then A.giveUp i else A)
  | .fullCollection => (.ok (), A)
  | .setCollecting _ => (.ok (), A)
  | .setLimit limit => (.ok (), { A with terms := { A.terms with limit } })
  | .shiftBaseline _ => (.ok (), A)

/-- What becomes of requests, one after another. -/
def run (A : Account) : List Request → List Answer × Account
  | [] => ([], A)
  | request :: requests =>
    let (answer, A) := A.perform request
    let (answers, A) := A.run requests
    (answer :: answers, A)

end Account

namespace Client

/-- A client whose manager goes by the terms of an account, and who holds what is in it. -/
structure Follows (c : Client) (A : Account) : Prop where
  terms : c.manager.GoesBy A.terms
  held : c.held.map Holding.outline = A.held

/-- Without their blocks holdings have the same bytes. -/
theorem bytes_map_outline (held : List Holding) :
    Ledger.bytes ((held.map Holding.outline).map Holding.entry) =
      Ledger.bytes (held.map Holding.entry) := by
  induction held with
  | nil => rfl
  | cons h held ih =>
    rw [List.map_cons, List.map_cons, List.map_cons, Ledger.bytes_cons, Ledger.bytes_cons, ih]
    cases h with
    | block block size => rfl
    | array a => rfl

namespace Follows

variable {c c' : Client} {A : Account} {m : Manager} {T : Terms} {i : Nat} {shift : Int}

theorem heldBytes (hf : c.Follows A) : A.heldBytes = Ledger.bytes (c.held.map Holding.entry) := by
  rw [Account.heldBytes, ← hf.held, bytes_map_outline]

theorem others (hf : c.Follows A) (i : Nat) :
    A.others i = Ledger.bytes ((c.held.eraseIdx i).map Holding.entry) := by
  rw [Account.others, ← hf.held, List.eraseIdx_map, bytes_map_outline]

/-- A holding and what the account says of it. -/
theorem getElem? (hf : c.Follows A) (i : Nat) : A.held[i]? = c.held[i]?.map Holding.outline := by
  rw [← hf.held, List.getElem?_map]

theorem giveUp (hf : c.Follows A) (hm : m.GoesBy A.terms) (i : Nat) :
    (c.giveUp i m).Follows (A.giveUp i) := by
  refine ⟨hm, ?_⟩
  rw [Account.giveUp, ← hf.held, List.eraseIdx_map]
  rfl

/-- A new block is kept by both or by none. -/
theorem keepNew {granted : Bool} {result : Except AllocationFailure Block} (hf : c.Follows A)
    (hm : m.GoesBy T) (hanswer : result.map (fun _ => ()) = Terms.given granted ()) (size : Nat) :
    (c.keepNew size (result, m)).1 = (A.keepNew size (granted, T)).1 ∧
      (c.keepNew size (result, m)).2.Follows (A.keepNew size (granted, T)).2 := by
  cases granted with
  | true =>
    cases result with
    | error e => cases hanswer
    | ok block =>
      refine ⟨rfl, hm, ?_⟩
      simp only [Client.keepNew, Account.keepNew, List.map_append, hf.held]
      rfl
  | false =>
    cases result with
    | error e =>
      obtain rfl := Except.error.inj hanswer
      exact ⟨rfl, hm, hf.held⟩
    | ok block => cases hanswer

/-- A holding is changed for both or for none. -/
theorem settle {result result' : Except AllocationFailure Holding} (hf : c.Follows A)
    (hm : m.GoesBy T) (hresult : result.map Holding.outline = result') (i : Nat) :
    (c.settle i (result, m)).1 = (A.settle i (result', T)).1 ∧
      (c.settle i (result, m)).2.Follows (A.settle i (result', T)).2 := by
  subst hresult
  cases result with
  | error e => exact ⟨rfl, hm, hf.held⟩
  | ok h =>
    refine ⟨rfl, hm, ?_⟩
    simp only [Client.settle, Account.settle, Except.map, List.map_set, hf.held]

/-- A new block that is asked for is kept by both or by none. -/
theorem askNew {α : Type} {size label : Nat} {outcome : α → Except AllocationFailure Block}
    {op : Except Misuse (α × Manager)} {answer : Answer} (hf : c.Follows A)
    (hop : ∃ result m, op = .ok (result, m) ∧
      (outcome result).map (fun _ => ()) =
        Terms.given (A.terms.resize A.heldBytes true label size).1 () ∧
      m.GoesBy (A.terms.resize A.heldBytes true label size).2)
    (hrun : c.askNew size outcome op = .ok (answer, c')) :
    answer = (A.allocate size label).1 ∧ c'.Follows (A.allocate size label).2 := by
  obtain ⟨result, m, rfl, hanswer, hm⟩ := hop
  have hkept := hf.keepNew hm hanswer size
  rw [Except.ok.inj hrun] at hkept
  exact hkept

theorem allocateLabelled {size label : Nat} {answer : Answer} (hf : c.Follows A)
    (hb : c.Balanced shift)
    (hrun : c.askNew size id (c.manager.allocateLabelled size label) = .ok (answer, c')) :
    answer = (A.allocate size label).1 ∧ c'.Follows (A.allocate size label).2 := by
  obtain ⟨result, m, hinner, -⟩ := Manager.Balanced.allocateLabelled hb size label
  obtain ⟨hanswer, hm⟩ := hf.terms.allocateLabelled hb hinner
  rw [← hf.heldBytes] at hanswer hm
  exact hf.askNew ⟨result, m, hinner, hanswer, hm⟩ hrun

theorem map_orOutOfMemory (result : Option Block) :
    (orOutOfMemory result).map (fun _ => ()) = Terms.given result.isSome () := by
  cases result with
  | none => rfl
  | some block => rfl

/-- A block that is held is resized for both or for none, and what is no block for none. -/
theorem askBlock {α : Type} {newSize : Nat} {outcome : α → Except AllocationFailure Block}
    {op : Block → Nat → Except Misuse (α × Manager)} {answer : Answer} (hf : c.Follows A)
    (hb : c.Balanced shift)
    (hop : ∀ block size,
      c.manager.Balanced ((block, size) :: (c.held.eraseIdx i).map Holding.entry) shift →
        ∃ result m, op block size = .ok (result, m) ∧
          (outcome result).map (fun _ => ()) =
            Terms.given (A.terms.resize (A.others i) (size == 0) size newSize).1 () ∧
          m.GoesBy (A.terms.resize (A.others i) (size == 0) size newSize).2)
    (hrun : c.askBlock i newSize outcome op = .ok (answer, c')) :
    answer = (A.resizeBlock i newSize).1 ∧ c'.Follows (A.resizeBlock i newSize).2 := by
  rw [Client.askBlock] at hrun
  rw [Account.resizeBlock, hf.getElem?]
  split at hrun
  · rename_i block size hi
    obtain ⟨result, m, hinner, hanswer, hm⟩ := hop block size (hb.split hi)
    have hmap : ((outcome result).map fun block => Holding.block block newSize).map Holding.outline =
        (outcome result).map fun _ => Holding.block .null newSize := by
      cases outcome result with
      | error e => rfl
      | ok block => rfl
    have hsettled := hf.settle hm (hmap.trans (Terms.map_eq_given hanswer fun _ => rfl)) i
    rw [hinner] at hrun
    rw [Except.ok.inj hrun] at hsettled
    rw [hi]
    exact hsettled
  · rename_i hother
    obtain ⟨rfl, rfl⟩ := Prod.mk.inj (Except.ok.inj hrun)
    cases hi : c.held[i]? with
    | none => exact ⟨rfl, hf⟩
    | some h =>
      cases h with
      | block block size => exact absurd hi (hother block size)
      | array a => exact ⟨rfl, hf⟩

/-- An array that is held is changed for both or for none, and what is no array for none. -/
theorem askArray {op : GrowingArray → Except Misuse (Except AllocationFailure GrowingArray × Manager)}
    {change : GrowingArray → Except AllocationFailure GrowingArray × Terms} {answer : Answer}
    (hf : c.Follows A) (hb : c.Balanced shift)
    (hop : ∀ a, c.manager.Balanced (a.entry :: (c.held.eraseIdx i).map Holding.entry) shift →
      ∃ result m, op a = .ok (result, m) ∧
        result.map GrowingArray.outline = (change a.outline).1 ∧ m.GoesBy (change a.outline).2)
    (hrun : c.askArray i op = .ok (answer, c')) :
    answer = (A.changeArray i change).1 ∧ c'.Follows (A.changeArray i change).2 := by
  rw [Client.askArray] at hrun
  rw [Account.changeArray, hf.getElem?]
  split at hrun
  · rename_i a hi
    obtain ⟨result, m, hinner, hanswer, hm⟩ := hop a (hb.split hi)
    have hmap : (result.map Holding.array).map Holding.outline =
        (result.map GrowingArray.outline).map Holding.array := by
      cases result with
      | error e => rfl
      | ok a => rfl
    have hsettled := hf.settle hm (hmap.trans (congrArg _ hanswer)) i
    rw [hinner] at hrun
    rw [Except.ok.inj hrun] at hsettled
    rw [hi]
    exact hsettled
  · rename_i hother
    obtain ⟨rfl, rfl⟩ := Prod.mk.inj (Except.ok.inj hrun)
    cases hi : c.held[i]? with
    | none => exact ⟨rfl, hf⟩
    | some h =>
      cases h with
      | block block size => exact ⟨rfl, hf⟩
      | array a => exact absurd hi (hother a)

/-- A holding that is missing cannot be given up. -/
theorem giveUp_of_none (hf : c.Follows A) (hi : c.held[i]? = none) : A.giveUp i = A := by
  have hlength : A.held.length ≤ i := by
    rw [← hf.held, List.length_map]
    exact List.getElem?_eq_none_iff.1 hi
  rw [Account.giveUp, List.eraseIdx_of_length_le hlength]

/-- The step lemma: a request is answered as the account says. -/
theorem perform {request : Request} {answer : Answer} (hf : c.Follows A) (hb : c.Balanced shift)
    (hrun : c.perform request = .ok (answer, c')) :
    answer = (A.perform request).1 ∧ c'.Follows (A.perform request).2 := by
  cases request with
  | allocate size =>
    rw [perform_allocate] at hrun
    exact hf.allocateLabelled hb hrun
  | allocateLabelled size label =>
    rw [perform_allocateLabelled] at hrun
    exact hf.allocateLabelled hb hrun
  | tryAllocate size =>
    rw [perform_tryAllocate] at hrun
    obtain ⟨result, m, hinner, -⟩ := Manager.Balanced.tryAllocate hb size
    obtain ⟨hsome, hm⟩ := hf.terms.tryAllocate hb hinner
    rw [← hf.heldBytes] at hsome hm
    have hanswer := map_orOutOfMemory result
    rw [hsome] at hanswer
    exact hf.askNew ⟨result, m, hinner, hanswer, hm⟩ hrun
  | realloc i newSize =>
    rw [perform_realloc] at hrun
    refine hf.askBlock hb (fun block size hsplit => ?_) hrun
    obtain ⟨result, m, hinner, -⟩ := hsplit.held.realloc newSize
    obtain ⟨hanswer, hm⟩ := hf.terms.realloc hsplit.held hinner
    rw [hsplit.isLive_eq, ← hf.others i] at hanswer hm
    exact ⟨result, m, hinner, hanswer, hm⟩
  | tryRealloc i newSize =>
    rw [perform_tryRealloc] at hrun
    refine hf.askBlock hb (fun block size hsplit => ?_) hrun
    obtain ⟨result, m, hinner, -⟩ := hsplit.held.tryRealloc newSize
    obtain ⟨hsome, hm⟩ := hf.terms.tryRealloc hsplit.held hinner
    rw [hsplit.isLive_eq, ← hf.others i] at hsome hm
    have hanswer := map_orOutOfMemory result
    rw [hsome] at hanswer
    exact ⟨result, m, hinner, hanswer, hm⟩
  | free i =>
    rw [Client.perform] at hrun
    split at hrun
    · rename_i h hi
      have hsplit : c.manager.Balanced ((h.entry.1, h.entry.2) :: _) shift := hb.split hi
      obtain ⟨m, hinner, -⟩ := hsplit.free
      rw [hinner] at hrun
      obtain ⟨rfl, rfl⟩ := Prod.mk.inj (Except.ok.inj hrun)
      exact ⟨rfl, hf.giveUp (hf.terms.free hinner) i⟩
    · rename_i hi
      obtain ⟨rfl, rfl⟩ := Prod.mk.inj (Except.ok.inj hrun)
      rw [Account.perform, hf.giveUp_of_none hi]
      exact ⟨rfl, hf⟩
  | newArray elementSize =>
    obtain ⟨rfl, rfl⟩ := Prod.mk.inj (Except.ok.inj hrun)
    refine ⟨rfl, hf.terms, ?_⟩
    rw [List.map_append, hf.held]
    rfl
  | ensureCapacity i count limit what =>
    rw [perform_ensureCapacity] at hrun
    refine hf.askArray hb (fun a hsplit => ?_) hrun
    obtain ⟨result, m, hinner, -⟩ := hsplit.ensureCapacity count limit what
    obtain ⟨hanswer, hm⟩ := hf.terms.ensureCapacity hsplit hinner
    rw [← hf.others i] at hanswer hm
    exact ⟨result, m, hinner, hanswer, hm⟩
  | shrinkTo i count =>
    rw [perform_shrinkTo] at hrun
    refine hf.askArray hb (fun a hsplit => ?_) hrun
    obtain ⟨result, m, hinner, -⟩ := hsplit.shrinkTo count
    obtain ⟨hanswer, hm⟩ := hf.terms.shrinkTo hsplit hinner
    rw [← hf.others i] at hanswer hm
    exact ⟨result, m, hinner, hanswer, hm⟩
  | discard i =>
    rw [Client.perform] at hrun
    rw [Account.perform, ← hf.terms.keepsGarbage]
    split at hrun
    · rename_i h pending n hi hc
      obtain ⟨rfl, rfl⟩ := Prod.mk.inj (Except.ok.inj hrun)
      rw [hc]
      exact ⟨rfl, hf.giveUp (hf.terms.discard h.entry.1 h.entry.2) i⟩
    · rename_i hother
      obtain ⟨rfl, rfl⟩ := Prod.mk.inj (Except.ok.inj hrun)
      refine ⟨rfl, ?_⟩
      cases hi : c.held[i]? with
      | none =>
        rw [hf.giveUp_of_none hi, ite_self]
        exact hf
      | some h =>
        cases hc : c.manager.collector with
        | idle complete collecting => exact hf
        | garbage pending n => exact absurd hc (hother h pending n hi)
  | fullCollection =>
    obtain ⟨m, hinner, -⟩ := Manager.Balanced.fullCollection hb
    rw [Client.perform, hinner] at hrun
    obtain ⟨rfl, rfl⟩ := Prod.mk.inj (Except.ok.inj hrun)
    exact ⟨rfl, (hf.terms.fullCollection hinner).1, hf.held⟩
  | setCollecting on =>
    obtain ⟨rfl, rfl⟩ := Prod.mk.inj (Except.ok.inj hrun)
    exact ⟨rfl, hf.terms.setCollecting on, hf.held⟩
  | setLimit limit =>
    obtain ⟨rfl, rfl⟩ := Prod.mk.inj (Except.ok.inj hrun)
    exact ⟨rfl, hf.terms.setLimit limit, hf.held⟩
  | shiftBaseline bytes =>
    obtain ⟨rfl, rfl⟩ := Prod.mk.inj (Except.ok.inj hrun)
    exact ⟨rfl, hf.terms.shiftBaseline bytes, hf.held⟩

/-- The run lemma: so are any requests, one after another. -/
theorem run {requests : List Request} {answers : List Answer} (hf : c.Follows A)
    (hb : c.Balanced shift) (hrun : c.run requests = .ok (answers, c')) :
    answers = (A.run requests).1 ∧ c'.Follows (A.run requests).2 := by
  induction requests generalizing c A shift answers c' with
  | nil =>
    obtain ⟨rfl, rfl⟩ := Prod.mk.inj (Except.ok.inj hrun)
    exact ⟨rfl, hf⟩
  | cons request requests ih =>
    obtain ⟨⟨answer, c₁⟩, hfirst, hb₁⟩ := hb.perform request
    obtain ⟨⟨rest, c₂⟩, hrest, -⟩ := hb₁.run requests
    obtain ⟨hanswer, hf₁⟩ := hf.perform hb hfirst
    obtain ⟨hanswers, hf₂⟩ := ih hf₁ hb₁ hrest
    rw [Client.run, hfirst] at hrun
    simp only [bind, Except.bind, hrest] at hrun
    obtain ⟨rfl, rfl⟩ := Prod.mk.inj (Except.ok.inj hrun)
    exact ⟨congrArg₂ List.cons hanswer hanswers, hf₂⟩

/-- Without what waits to be freed, the debt is that of the account. -/
theorem debt_sub_pending (hf : c.Follows A) (hb : c.Balanced shift) :
    c.manager.debt - c.manager.collector.pendingBytes = A.heldBytes - shift := by
  have hdebt := hb.debt
  rw [Ledger.bytes_append, ← hf.heldBytes, ← Collector.pendingBytes_eq] at hdebt
  push_cast at hdebt
  rw [Manager.debt]
  omega

/-- The labels that are counted are those of the account. -/
theorem labelCount (hf : c.Follows A) (label : Nat) :
    c.manager.heap.raw.budget?.map (·.labelCount label) = some (A.terms.labels.count label) := by
  obtain ⟨b, s, hraw, -, -, hlabels⟩ := hf.terms.raw
  rw [hraw, ← hlabels]
  rfl

end Follows

/-! ## Two runs -/

/-- The same client, with first attempts that are made to fail or not. -/
def withStress (c : Client) (on : Bool) : Client :=
  { c with manager := { c.manager with config := c.manager.config.withEmergencyStress on } }

/-- The account of a client over a budget on a system that answers by the size alone. -/
def account (c : Client) (b : Budget) (grants : Nat → Bool) : Account where
  terms :=
    { grants
      limit := b.limit
      labels := b.labels
      reallocations := c.manager.stats.reallocations
      failures := c.manager.stats.failures
      minArraySize := c.manager.config.minArraySize
      keepsGarbage := c.manager.collector.keepsGarbage }
  held := c.held.map Holding.outline

/-- The account of a client does not say whether first attempts are made to fail. -/
theorem follows_account {c : Client} {b : Budget} {s : System}
    (hraw : c.manager.heap.raw = .budgeted b (.system s)) {grants : Nat → Bool}
    (hsize : ∀ i held n, s.grants i held n = grants n) (on : Bool) :
    (c.withStress on).Follows (c.account b grants) :=
  ⟨⟨⟨b, s, hraw, hsize, rfl, rfl⟩, rfl, rfl, rfl, rfl⟩, rfl⟩

/-- **Stress changes no outcome.**  Two managers are in the same state, in which the books balance,
as they do after any requests to a fresh manager, over a budget on a system that answers by the size
alone.  One is made to collect before each allocation, the other collects only when it has to.  Any
requests to both end the same way, one by one.  Afterwards both have counted the same resizes,
failures and labels, and owe the same debt for what does not wait to be freed. -/
theorem run_stress {c : Client} {shift : Int} (hb : c.Balanced shift) {b : Budget} {s : System}
    (hraw : c.manager.heap.raw = .budgeted b (.system s)) {grants : Nat → Bool}
    (hsize : ∀ i held n, s.grants i held n = grants n) (requests : List Request) :
    ∃ answers quiet stressed, (c.withStress false).run requests = .ok (answers, quiet) ∧
      (c.withStress true).run requests = .ok (answers, stressed) ∧
      stressed.manager.stats.reallocations = quiet.manager.stats.reallocations ∧
      stressed.manager.stats.failures = quiet.manager.stats.failures ∧
      (∀ label, stressed.manager.heap.raw.budget?.map (·.labelCount label) =
        quiet.manager.heap.raw.budget?.map (·.labelCount label)) ∧
      stressed.manager.debt - stressed.manager.collector.pendingBytes =
        quiet.manager.debt - quiet.manager.collector.pendingBytes := by
  have hquiet : (c.withStress false).Balanced shift := hb
  have hstressed : (c.withStress true).Balanced shift := hb
  obtain ⟨⟨answers, quiet⟩, hrun, hbq⟩ := hquiet.run requests
  obtain ⟨⟨answers', stressed⟩, hrun', hbs⟩ := hstressed.run requests
  obtain ⟨hanswers, hfq⟩ := (follows_account hraw hsize false).run hquiet hrun
  obtain ⟨hanswers', hfs⟩ := (follows_account hraw hsize true).run hstressed hrun'
  rw [hanswers] at hrun
  rw [hanswers'] at hrun'
  refine ⟨_, quiet, stressed, hrun, hrun', ?_, ?_, fun label => ?_, ?_⟩
  · rw [hfs.terms.reallocations, hfq.terms.reallocations]
  · rw [hfs.terms.failures, hfq.terms.failures]
  · rw [hfs.labelCount, hfq.labelCount]
  · rw [hfs.debt_sub_pending hbs, hfq.debt_sub_pending hbq]

/-- A block waits, an array stands in its way, and the limit is lowered under what is in use.  One
manager collects twice, the other four times. -/
theorem run_stress_lowered :
    let c := start (fun _ _ n => decide (n < 1000)) 100 .emptyGarbage {}
    let requests := [.allocate 40, .discard 0, .allocateLabelled 30 7, .newArray 8,
      .ensureCapacity 1 0 100 "items", .setLimit 50, .tryRealloc 0 60, .free 0]
    ((c.withStress false).run requests).map (fun p => (p.1, p.2.manager.stats)) =
        .ok ([.ok (), .ok (), .ok (), .ok (), .ok (), .ok (), .error .outOfMemory, .ok ()],
          { reallocations := 3, emergencyCollections := 2, failures := 1 }) ∧
      ((c.withStress true).run requests).map (fun p => p.2.manager.stats) =
        .ok { reallocations := 3, emergencyCollections := 4, failures := 1 } ∧
      ∃ answers quiet stressed, (c.withStress false).run requests = .ok (answers, quiet) ∧
        (c.withStress true).run requests = .ok (answers, stressed) ∧
        stressed.manager.debt - stressed.manager.collector.pendingBytes =
          quiet.manager.debt - quiet.manager.collector.pendingBytes := by
  intro c requests
  have hb : c.Balanced 0 := balanced_start _ 100 {} rfl
  obtain ⟨answers, quiet, stressed, hrun, hrun', -, -, -, hdebt⟩ :=
    run_stress hb rfl (fun _ _ _ => rfl) requests
  exact ⟨rfl, rfl, answers, quiet, stressed, hrun, hrun', hdebt⟩

end Client

end VmInspect.Memory
