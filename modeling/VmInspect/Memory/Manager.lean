import VmInspect.Memory.Collector
import VmInspect.Memory.Config
import VmInspect.Memory.Failure

/-!
# The memory manager

Every size that moves is counted in the debt: the difference after a successful resize, the size
after a free, and nothing after a failure.  An allocation that fails runs one emergency collection,
if a collection is possible, and is tried once more.
-/

namespace VmInspect.Memory

/-- What the manager has done so far. -/
structure Stats where
  /-- the requests that gave or resized a block -/
  reallocations : Nat := 0
  /-- the collections run because an allocation failed -/
  emergencyCollections : Nat := 0
  /-- the requests that failed for good -/
  failures : Nat := 0
deriving DecidableEq, Repr, Inhabited

/-- A heap with a collector. -/
structure Manager where
  heap : Heap
  collector : Collector
  config : Config := {}
  stats : Stats := {}

namespace Manager

/-- A manager over an allocator. -/
def create (raw : Allocator) (collector : Collector) (config : Config) : Manager where
  heap := { raw }
  collector := collector
  config := config

def debt (m : Manager) : Int := m.heap.debt

/-! ## Requests -/

/-- Whether a failed request can be tried again after a collection. -/
def canTryAgain (m : Manager) : Bool := m.collector.canCollect

/-- Call the raw allocator. -/
def callRaw (m : Manager) (block : Block) (oldSize newSize : Nat) : Block × Manager :=
  let (result, heap) := m.heap.callRaw block oldSize newSize
  (result, { m with heap })

/-- Whether the first attempt is made to fail. -/
def skipsFirstTry (m : Manager) (newSize : Nat) : Bool :=
  m.config.emergencyStress && decide (0 < newSize) && m.canTryAgain

/-- The first attempt at a request. -/
def firstTry (m : Manager) (block : Block) (oldSize newSize : Nat) : Block × Manager :=
  if m.skipsFirstTry newSize then (.null, m) else m.callRaw block oldSize newSize

/-- Run a full collection. -/
def fullCollection (m : Manager) : Except Misuse Manager := do
  let (collector, heap) ← m.collector.collect m.heap
  return { m with collector, heap }

/-- Run a full collection because a request failed. -/
def emergencyCollection (m : Manager) : Except Misuse Manager :=
  fullCollection
    { m with
      stats := { m.stats with emergencyCollections := m.stats.emergencyCollections + 1 } }

/-- Collect and try a request once more, if a collection is possible. -/
def tryAgain (m : Manager) (block : Block) (oldSize newSize : Nat) :
    Except Misuse (Block × Manager) :=
  if m.canTryAgain then do
    let m ← m.emergencyCollection
    return m.callRaw block oldSize newSize
  else return (.null, m)

/-- Count a request that failed for good. -/
def countFailure (m : Manager) : Manager :=
  { m with stats := { m.stats with failures := m.stats.failures + 1 } }

/-- Count a request that was granted. -/
def countGrant (m : Manager) (block : Block) (oldSize newSize : Nat) : Manager :=
  { m with
    heap := m.heap.charge (block.held oldSize) newSize
    stats :=
      { m.stats with
        reallocations := m.stats.reallocations + if newSize = 0 then 0 else 1 } }

/-- Resize a block.  A failure leaves the block as it was. -/
def tryRealloc (m : Manager) (block : Block) (oldSize newSize : Nat) :
    Except Misuse (Option Block × Manager) := do
  let (result, m) := m.firstTry block oldSize newSize
  if result.isLive || newSize == 0 then
    return (some result, m.countGrant block oldSize newSize)
  else
    let (result, m) ← m.tryAgain block oldSize newSize
    if result.isLive then return (some result, m.countGrant block oldSize newSize)
    else return (none, m.countFailure)

/-- Resize a block, or fail for want of memory. -/
def realloc (m : Manager) (block : Block) (oldSize newSize : Nat) :
    Except Misuse (Except AllocationFailure Block × Manager) := do
  let (result, m) ← m.tryRealloc block oldSize newSize
  match result with
  | some block => return (.ok block, m)
  | none => return (.error .outOfMemory, m)

/-- Free a block of a size. -/
def free (m : Manager) (block : Block) (size : Nat) : Except Misuse Manager := do
  return { m with heap := ← m.heap.free block size }

/-! ## New blocks -/

/-- Allocate bytes. -/
def tryAllocate (m : Manager) (size : Nat) : Except Misuse (Option Block × Manager) :=
  m.tryRealloc .null 0 size

/-- Allocate bytes under a label. No bytes are the null block. -/
def allocateLabelled (m : Manager) (size label : Nat) :
    Except Misuse (Except AllocationFailure Block × Manager) :=
  if size = 0 then return (.ok .null, m) else m.realloc .null label size

/-- Allocate bytes, or fail for want of memory. -/
def allocate (m : Manager) (size : Nat) :
    Except Misuse (Except AllocationFailure Block × Manager) :=
  m.allocateLabelled size 0

/-! ## The parts -/

/-- Hand a block over to the collector. -/
def discard (m : Manager) (block : Block) (size : Nat) : Manager :=
  { m with collector := m.collector.discard block size }

def setCollecting (m : Manager) (on : Bool) : Manager :=
  { m with collector := m.collector.setCollecting on }

/-- Change the limit of the budget. -/
def setLimit (m : Manager) (limit : Nat) : Manager :=
  { m with heap := { m.heap with raw := m.heap.raw.setLimit limit } }

def shiftBaseline (m : Manager) (bytes : Int) : Manager :=
  { m with heap := m.heap.shiftBaseline bytes }

end Manager

end VmInspect.Memory
