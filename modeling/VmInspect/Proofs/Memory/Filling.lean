import Mathlib.Data.Nat.Log
import VmInspect.Proofs.Memory.Arrays

/-!
# Filling an array

An array that starts empty is filled one element after another, and room is made for each of them
first.  This file proves that the array takes as many elements as its limit says and no more, and
that its block is resized only a few times on the way:

* `GrowingArray.lt_grownCapacity` — a growth makes room, and stays within the limit.
* `GrowingArray.GrownBy.grow` — the capacity doubles with each growth until it is the limit, so the
  growths are as few as the digits of the number of elements.
* `Manager.fillArray_exact` — so it is for every number of elements, unless the raw allocator
  refuses one of the growths.
-/

namespace VmInspect.Memory

/-! ## Capacities -/

namespace GrowingArray

variable {a : GrowingArray} {limit most minimum n g : Nat}

/-- Capacities within the limit on the elements have a size. -/
theorem byteSize_of_le (h : n ≤ a.elementLimit limit) : a.byteSize n = .ok (n * a.elementSize) := by
  have hbytes : n * a.elementSize ≤ maxBytes := by
    rw [elementLimit] at h
    split at h
    · rename_i hzero
      rw [hzero, Nat.mul_zero]
      exact Nat.zero_le _
    · have hcount : n ≤ maxBytes / a.elementSize := le_trans h (Nat.min_le_right ..)
      exact le_trans (Nat.mul_le_mul_right _ hcount) (Nat.div_mul_le_self ..)
  rw [byteSize, if_pos hbytes]

/-- A growth makes room. -/
theorem lt_grownCapacity (h : a.capacity < most) (minimum : Nat) :
    a.capacity < a.grownCapacity most minimum := by
  rw [grownCapacity]
  split <;> omega

/-- It stays within the limit. -/
theorem grownCapacity_le (a : GrowingArray) (most minimum : Nat) :
    a.grownCapacity most minimum ≤ most := by
  rw [grownCapacity]
  split
  · exact le_rfl
  · exact Nat.min_le_right ..

/-- It doubles the capacity if it does not reach the limit. -/
theorem two_mul_le_grownCapacity (a : GrowingArray) (most minimum : Nat) :
    2 * a.capacity ≤ a.grownCapacity most minimum ∨ a.grownCapacity most minimum = most := by
  rw [grownCapacity]
  split
  · exact .inr rfl
  · left
    omega

/-- What is known of the capacity after some growths, when there is room for a number of elements:
it has doubled with each growth but the first until it was the limit, and the growths are few. -/
structure GrownBy (g : Nat) (a : GrowingArray) (most n : Nat) : Prop where
  doubled : g = 0 ∨ 2 ^ g ≤ 2 * a.capacity ∨ a.capacity = most
  few : g ≤ Nat.log 2 n + 2

/-- One more element in the room there is. -/
theorem GrownBy.succ (h : GrownBy g a most n) : GrownBy g a most (n + 1) :=
  ⟨h.doubled, le_trans h.few (Nat.add_le_add_right (Nat.log_mono_right n.le_succ) 2)⟩

/-- One more growth of an array that is full. -/
theorem GrownBy.grow (h : GrownBy g a most n) (hfull : a.capacity = n) (hlt : n < most)
    {a' : GrowingArray} (ha' : a'.capacity = a.grownCapacity most minimum) :
    GrownBy (g + 1) a' most (n + 1) := by
  have hroom : n < a'.capacity := by
    rw [ha', ← hfull]
    exact lt_grownCapacity (by omega) minimum
  -- the first growth may start from no capacity, and then it has nothing to double
  rcases Nat.eq_zero_or_pos g with rfl | hpos
  · exact ⟨.inr (.inl (by omega)), by omega⟩
  -- an array below its limit has doubled with every growth after the first
  have hpow : 2 ^ g ≤ 2 * n := by
    have hdoubled := h.doubled
    omega
  constructor
  · right
    rcases a.two_mul_le_grownCapacity most minimum with hgrown | hgrown
    · left
      rw [ha', pow_succ]
      omega
    · right
      rw [ha', hgrown]
  · obtain ⟨k, rfl⟩ := Nat.exists_eq_succ_of_ne_zero (Nat.ne_of_gt hpos)
    have hlog : k ≤ Nat.log 2 n := by
      rw [pow_succ] at hpow
      exact Nat.le_log_of_pow_le Nat.one_lt_two (by omega)
    have hsucc : Nat.log 2 n ≤ Nat.log 2 (n + 1) := Nat.log_mono_right n.le_succ
    omega

end GrowingArray

/-! ## One call -/

namespace Manager

variable {m m' : Manager} {a : GrowingArray} {limit n : Nat}

/-- Another capacity for an array is refused: by the raw call that settles the request for its
bytes. -/
def Refuses (m : Manager) (a : GrowingArray) (capacity : Nat) : Prop :=
  0 < capacity * a.elementSize ∧
    ∃ before, m.beforeSettling a.block (a.capacity * a.elementSize) (capacity * a.elementSize) =
        .ok before ∧
      (before.heap.raw.realloc a.block (a.capacity * a.elementSize)
        (capacity * a.elementSize)).1 = .null

/-- One manager after another, when what waits can be freed, and some requests were granted in
between. -/
structure Granted (m m' : Manager) (g : Nat) : Prop where
  tidy : m'.collector.Tidy
  config : m'.config = m.config
  few : m'.stats.reallocations ≤ m.stats.reallocations + g

/-- A request for bytes or for none is refused, or granted and counted once at most. -/
theorem tryRealloc_granted (htidy : m.collector.Tidy) (block : Block) (oldSize newSize : Nat) :
    ∃ result m', m.tryRealloc block oldSize newSize = .ok (result, m') ∧
      ((result = none ∧ 0 < newSize ∧ ∃ before,
          m.beforeSettling block oldSize newSize = .ok before ∧
            (before.heap.raw.realloc block oldSize newSize).1 = .null) ∨
        (result.isSome = true ∧ m.Granted m' 1)) := by
  rcases Nat.eq_zero_or_pos newSize with rfl | hpos
  · refine ⟨_, _, m.tryRealloc_zero block oldSize, .inr ⟨rfl, htidy, rfl, ?_⟩⟩
    exact Nat.le_succ _
  · obtain ⟨before, result, m', hbefore, hrun, hrefused, hconfig, hcollector, hstats⟩ :=
      exists_tryRealloc htidy block oldSize hpos
    refine ⟨result, m', hrun, ?_⟩
    cases result with
    | none => exact .inl ⟨rfl, hpos, before, hbefore, hrefused.1 rfl⟩
    | some answer =>
      refine .inr ⟨rfl, ?_, hconfig, ?_⟩
      · rw [hcollector]
        split
        · exact m.collector.tidy_collected
        · exact htidy
      · rw [hstats]
        exact le_rfl

/-- So is another capacity for an array, if both have a size. -/
theorem resizeArray_granted (htidy : m.collector.Tidy) {capacity : Nat}
    (hold : a.capacity ≤ a.elementLimit limit) (hnew : capacity ≤ a.elementLimit limit) :
    ∃ result m', m.resizeArray a capacity = .ok (result, m') ∧
      ((result = .error .outOfMemory ∧ m.Refuses a capacity) ∨
        ∃ block, result = .ok { a with block, capacity } ∧ m.Granted m' 1) := by
  obtain ⟨result, m', hrun, hcases⟩ :=
    tryRealloc_granted htidy a.block (a.capacity * a.elementSize) (capacity * a.elementSize)
  rw [resizeArray, GrowingArray.byteSize_of_le hold, GrowingArray.byteSize_of_le hnew]
  simp only [realloc, hrun]
  rcases hcases with ⟨rfl, hpos, hrefused⟩ | ⟨hsome, hgranted⟩
  · exact ⟨_, _, rfl, .inl ⟨rfl, hpos, hrefused⟩⟩
  · obtain ⟨block, rfl⟩ := Option.isSome_iff_exists.1 hsome
    exact ⟨_, _, rfl, .inr ⟨block, rfl, hgranted⟩⟩

/-- A call with room left changes nothing. -/
theorem ensureCapacity_of_lt (what : String) (h : n < a.capacity) :
    m.ensureCapacity a n limit what = .ok (.ok a, m) := by
  rw [ensureCapacity, if_pos h]
  rfl

/-- A call for an array that is full at its limit fails and changes nothing. -/
theorem ensureCapacity_of_limit (what : String) (hfull : a.capacity ≤ n)
    (hlimit : a.elementLimit limit ≤ a.capacity) :
    m.ensureCapacity a n limit what =
      .ok (.error (.limitExceeded what (a.elementLimit limit)), m) := by
  rw [ensureCapacity, if_neg (Nat.not_lt.2 hfull)]
  exact if_pos hlimit

/-- A call for an array that is full below its limit lets it grow. -/
theorem ensureCapacity_of_full (what : String) (hfull : a.capacity ≤ n)
    (hlimit : a.capacity < a.elementLimit limit) :
    m.ensureCapacity a n limit what =
      m.resizeArray a (a.grownCapacity (a.elementLimit limit) m.config.minArraySize) := by
  rw [ensureCapacity, if_neg (Nat.not_lt.2 hfull)]
  exact if_neg (Nat.not_le.2 hlimit)

/-! ## All calls -/

/-- Make room for one element after another in an array, until a call fails. -/
def fillArray (m : Manager) (a : GrowingArray) (limit : Nat) (what : String) :
    Nat → Except Misuse (Except AllocationFailure GrowingArray × Manager)
  | 0 => .ok (.ok a, m)
  | n + 1 => do
    let (result, m) ← m.fillArray a limit what n
    match result with
    | .ok a => m.ensureCapacity a n limit what
    | .error e => return (.error e, m)

/-- An array with room for a number of elements, and its manager, after the calls for them. -/
structure Fills (m m' : Manager) (first a : GrowingArray) (limit n : Nat) : Prop where
  elementSize : a.elementSize = first.elementSize
  room : n ≤ a.capacity
  fits : a.capacity ≤ first.elementLimit limit
  growths : ∃ g, m.Granted m' g ∧ GrowingArray.GrownBy g a (first.elementLimit limit) n

/-- The growth that some call asks for is refused. -/
def RefusesGrowth (m : Manager) (first : GrowingArray) (limit : Nat) (what : String) (n : Nat) :
    Prop :=
  ∃ k a m', k < n ∧ m.fillArray first limit what k = .ok (.ok a, m') ∧
    m'.Refuses a (a.grownCapacity (first.elementLimit limit) m'.config.minArraySize)

/-- How the calls for a number of elements can end. -/
inductive FillEnds (m : Manager) (first : GrowingArray) (limit : Nat) (what : String) (n : Nat) :
    Except AllocationFailure GrowingArray → Manager → Prop where
  | refused (m' : Manager) (h : m.RefusesGrowth first limit what n) :
      FillEnds m first limit what n (.error .outOfMemory) m'
  | limited (m' : Manager) (h : first.elementLimit limit < n) :
      FillEnds m first limit what n (.error (.limitExceeded what (first.elementLimit limit))) m'
  | filled (a : GrowingArray) (m' : Manager) (h : m.Fills m' first a limit n) :
      FillEnds m first limit what n (.ok a) m'

variable {first : GrowingArray} {what : String}

theorem Fills.elementLimit (h : m.Fills m' first a limit n) :
    a.elementLimit limit = first.elementLimit limit := by
  rw [GrowingArray.elementLimit, GrowingArray.elementLimit, h.elementSize]

/-- The step lemma: one more call leaves room for one more element, fails at the limit, or is
refused. -/
theorem Fills.ensureCapacity (h : m.Fills m' first a limit n)
    (hrun : m.fillArray first limit what n = .ok (.ok a, m')) :
    ∃ result m'', m'.ensureCapacity a n limit what = .ok (result, m'') ∧
      m.FillEnds first limit what (n + 1) result m'' := by
  obtain ⟨g, hgranted, hgrown⟩ := h.growths
  by_cases hroom : n < a.capacity
  · refine ⟨_, _, ensureCapacity_of_lt what hroom, .filled _ _ ?_⟩
    exact ⟨h.elementSize, hroom, h.fits, g, hgranted, hgrown.succ⟩
  have hfull : a.capacity = n := Nat.le_antisymm (Nat.not_lt.1 hroom) h.room
  by_cases hlimit : a.elementLimit limit ≤ a.capacity
  · refine ⟨_, _, ensureCapacity_of_limit what (Nat.not_lt.1 hroom) hlimit, ?_⟩
    rw [h.elementLimit] at hlimit ⊢
    exact .limited _ (by omega)
  · have hlt : a.capacity < a.elementLimit limit := Nat.not_le.1 hlimit
    rw [ensureCapacity_of_full what (Nat.not_lt.1 hroom) hlt]
    obtain ⟨result, m'', hresize, ⟨rfl, hrefused⟩ | ⟨block, rfl, hone⟩⟩ :=
      resizeArray_granted hgranted.tidy (Nat.le_of_lt hlt)
        (a.grownCapacity_le _ m'.config.minArraySize)
    · refine ⟨_, _, hresize, .refused _ ⟨n, a, m', Nat.lt_succ_self n, hrun, ?_⟩⟩
      rw [← h.elementLimit]
      exact hrefused
    · refine ⟨_, _, hresize, .filled _ _ ?_⟩
      rw [h.elementLimit] at hlt ⊢
      refine ⟨h.elementSize, ?_, a.grownCapacity_le .., g + 1, ?_, ?_⟩
      · have hgrew := GrowingArray.lt_grownCapacity hlt m'.config.minArraySize
        simp only
        omega
      · refine ⟨hone.tidy, hone.config.trans hgranted.config, ?_⟩
        have hlast := hone.few
        have hbefore := hgranted.few
        omega
      · exact hgrown.grow hfull (by omega) rfl

/-- The run lemma: so end all calls, one after another. -/
theorem exists_fillArray (htidy : m.collector.Tidy) (elementSize limit : Nat) (what : String)
    (n : Nat) :
    ∃ result m', m.fillArray { elementSize } limit what n = .ok (result, m') ∧
      m.FillEnds { elementSize } limit what n result m' := by
  induction n with
  | zero =>
    refine ⟨_, m, rfl, .filled _ _ ⟨rfl, le_rfl, Nat.zero_le _, 0, ⟨htidy, rfl, le_rfl⟩, ?_⟩⟩
    exact ⟨.inl rfl, Nat.zero_le _⟩
  | succ n ih =>
    obtain ⟨result, m', hrun, hends⟩ := ih
    rw [fillArray]
    simp only [hrun]
    cases hends with
    | refused _ h =>
      obtain ⟨k, a, m₁, hk, hrefuses⟩ := h
      exact ⟨_, _, rfl, .refused _ ⟨k, a, m₁, Nat.lt_succ_of_lt hk, hrefuses⟩⟩
    | limited _ h => exact ⟨_, _, rfl, .limited _ (Nat.lt_succ_of_lt h)⟩
    | filled a _ h => exact h.ensureCapacity hrun

/-- **An array takes what its limit says.**  Room is made for one element after another in an array
that starts empty, in any manager whose garbage can be freed.  Unless the raw allocator refuses a
growth, all calls succeed up to the limit, which the size of the elements may lower, and leave room
for one element more within it, and the next one fails there and changes nothing.  The capacity that
an array grows to is greater than the count and within the limit.  No size is ever too big for a
block, and the block is resized no more often than the logarithm of the calls says. -/
theorem fillArray_exact (htidy : m.collector.Tidy) (elementSize limit : Nat) (what : String)
    (n : Nat) :
    let empty : GrowingArray := { elementSize }
    let most := empty.elementLimit limit
    ∃ result m', m.fillArray empty limit what n = .ok (result, m') ∧
      result ≠ .error .blockTooBig ∧
      (m.RefusesGrowth empty limit what n ∧ result = .error .outOfMemory ∨
        (most < n → result = .error (.limitExceeded what most)) ∧
        (n ≤ most → ∃ a, result = .ok a ∧ n ≤ a.capacity ∧ a.capacity ≤ most ∧
          m'.stats.reallocations ≤ m.stats.reallocations + (Nat.log 2 n + 2) ∧
          (a.capacity < most → n < a.grownCapacity most m'.config.minArraySize ∧
            a.grownCapacity most m'.config.minArraySize ≤ most) ∧
          (n = most →
            m'.ensureCapacity a n limit what = .ok (.error (.limitExceeded what most), m')))) := by
  intro empty most
  obtain ⟨result, m', hrun, hends⟩ := exists_fillArray htidy elementSize limit what n
  refine ⟨result, m', hrun, ?_⟩
  cases hends with
  | refused _ h => exact ⟨fun h => (nomatch h), .inl ⟨h, rfl⟩⟩
  | limited _ h =>
    exact ⟨fun h => (nomatch h), .inr ⟨fun _ => rfl, fun hle => absurd h (Nat.not_lt.2 hle)⟩⟩
  | filled a _ h =>
    have hfits : a.capacity ≤ most := h.fits
    obtain ⟨g, hgranted, hgrown⟩ := h.growths
    refine ⟨fun h => (nomatch h), .inr ⟨?_, fun _ => ⟨a, rfl, h.room, hfits, ?_, ?_, ?_⟩⟩⟩
    · exact fun hlt => absurd (le_trans h.room hfits) (Nat.not_le.2 hlt)
    · exact le_trans hgranted.few (Nat.add_le_add_left hgrown.few _)
    · intro hlt
      refine ⟨?_, a.grownCapacity_le ..⟩
      exact Nat.lt_of_le_of_lt h.room (GrowingArray.lt_grownCapacity hlt _)
    · rintro rfl
      have hlimit : a.elementLimit limit = most := h.elementLimit
      rw [ensureCapacity_of_limit what hfits (by rw [hlimit]; exact h.room), hlimit]

/-- Ten elements of eight bytes come with three growths, and there is no eleventh. -/
theorem fillArray_exact_ten :
    let run := (Manager.create (.system { grants := fun _ _ _ => true }) .emptyGarbage {}).fillArray
      { elementSize := 8 } 10 "items" 10
    ∃ a m', run = .ok (.ok a, m') ∧ a.capacity = 10 ∧
      m'.stats.reallocations = 3 ∧ 3 ≤ 0 + (Nat.log 2 10 + 2) ∧
      m'.ensureCapacity a 10 10 "items" = .ok (.error (.limitExceeded "items" 10), m') := by
  intro run
  obtain ⟨result, m', hrun, -, hends⟩ :=
    fillArray_exact (m := Manager.create (.system { grants := fun _ _ _ => true }) .emptyGarbage {})
      (Collector.tidy_of_pending_nil rfl) 8 10 "items" 10
  have hvalue : run.map (fun p =>
      (p.1.toOption.map GrowingArray.capacity, p.2.stats.reallocations)) = .ok (some 10, 3) := rfl
  have hresult : run = .ok (result, m') := hrun
  rw [hresult] at hvalue
  obtain ⟨hcapacity, hcount⟩ := Prod.mk.inj (Except.ok.inj hvalue)
  rcases hends with ⟨-, rfl⟩ | ⟨-, hfilled⟩
  · cases hcapacity
  · obtain ⟨a, rfl, -, -, hfew, -, hnext⟩ := hfilled (by decide)
    exact ⟨a, m', hrun, Option.some.inj hcapacity, hcount, hcount ▸ hfew, hnext rfl⟩

end Manager

end VmInspect.Memory
