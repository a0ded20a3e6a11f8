import VmInspect.Memory.Heap

/-!
# Collectors

A collector says whether a collection may run now and carries it out.  One kind never frees anything;
the other frees the blocks that were handed to it as garbage.
-/

namespace VmInspect.Memory

/-- What frees unreachable blocks. -/
inductive Collector where
  /-- a collector that frees nothing; `complete` once the runtime is built, `collecting` while a
  collection is under way -/
  | idle (complete collecting : Bool)
  /-- a list of blocks, with their sizes, that wait to be freed, and the collections so far -/
  | garbage (pending : List (Block × Nat)) (collections : Nat)
deriving DecidableEq, Repr, Inhabited

namespace Collector

/-- A collector that frees nothing, in a runtime that is built. -/
def ready : Collector := idle true false

/-- A collector that frees nothing, in a runtime that is still being built. -/
def building : Collector := idle false false

/-- An empty list of garbage. -/
def emptyGarbage : Collector := garbage [] 0

/-- Whether the runtime is built. -/
def isComplete : Collector → Bool
  | idle complete _ => complete
  | garbage _ _ => true

/-- Whether a collection is under way. -/
def isCollecting : Collector → Bool
  | idle _ collecting => collecting
  | garbage _ _ => false

/-- A collection can run once the runtime is built and none is under way. -/
def canCollect (c : Collector) : Bool := c.isComplete && !c.isCollecting

/-- Note that a collection is running, or is over. -/
def setCollecting : Collector → Bool → Collector
  | idle complete _, on => idle complete on
  | c@(garbage _ _), _ => c

/-- Hand over a block to be freed at the next collection. -/
def discard : Collector → Block → Nat → Collector
  | garbage pending n, block, size => garbage (pending ++ [(block, size)]) n
  | c@(idle _ _), _, _ => c

/-- The bytes that wait to be freed. -/
def pendingBytes : Collector → Nat
  | idle _ _ => 0
  | garbage pending _ => pending.foldr (fun entry total => entry.2 + total) 0

@[simp] theorem pendingBytes_garbage_cons (block : Block) (size : Nat)
    (pending : List (Block × Nat)) (n : Nat) :
    (garbage ((block, size) :: pending) n).pendingBytes =
      size + (garbage pending n).pendingBytes := rfl

/-- What is handed over waits to be freed. -/
theorem pendingBytes_discard_garbage (pending : List (Block × Nat)) (n : Nat) (block : Block)
    (size : Nat) :
    ((garbage pending n).discard block size).pendingBytes =
      (garbage pending n).pendingBytes + size := by
  induction pending with
  | nil => simp [discard, pendingBytes]
  | cons entry pending ih =>
    simp only [discard, pendingBytes, List.cons_append, List.foldr_cons] at ih ⊢
    rw [ih]
    omega

/-- Free a list of blocks. -/
def freeAll (h : Heap) : List (Block × Nat) → Except Misuse Heap
  | [] => .ok h
  | (block, size) :: rest => do freeAll (← h.free block size) rest

/-- Run a full collection. -/
def collect (c : Collector) (h : Heap) : Except Misuse (Collector × Heap) :=
  match c with
  | idle complete collecting => .ok (idle complete collecting, h)
  | garbage pending n => do return (garbage [] (n + 1), ← freeAll h pending)

end Collector

end VmInspect.Memory
