/-!
# Events and hooks

A hook is told about the events of a thread that its mask selects.  Its answer to a line or count
event may suspend the thread.
-/

namespace VmInspect

/-- What a hook can be told about. -/
inductive HookEvent where
  /-- a function was entered -/
  | call
  /-- a function returns -/
  | ret
  /-- another line was reached -/
  | line
  /-- a number of instructions was executed -/
  | count
  /-- a function was entered in place of its caller -/
  | tailCall
deriving DecidableEq, Repr, Inhabited

/-- The words for an event. -/
def HookEvent.text : HookEvent → String
  | .call => "call"
  | .ret => "return"
  | .line => "line"
  | .count => "count"
  | .tailCall => "tail call"

/-- A set of events. Tail calls count as calls. -/
structure HookMask where
  call : Bool := false
  ret : Bool := false
  line : Bool := false
  count : Bool := false
deriving DecidableEq, Repr, Inhabited

namespace HookMask

/-- No event. -/
def empty : HookMask := {}

def isEmpty (m : HookMask) : Bool := m == empty

/-- The events of either. -/
def or (a b : HookMask) : HookMask where
  call := a.call || b.call
  ret := a.ret || b.ret
  line := a.line || b.line
  count := a.count || b.count

/-- The events of both. -/
def and (a b : HookMask) : HookMask where
  call := a.call && b.call
  ret := a.ret && b.ret
  line := a.line && b.line
  count := a.count && b.count

/-- Whether all events of the second are in the first. -/
def contains (a b : HookMask) : Bool := a.and b == b

/-- Whether an event is in both. -/
def intersects (a b : HookMask) : Bool := !(a.and b).isEmpty

/-- Whether an event is selected. -/
def selects (m : HookMask) : HookEvent → Bool
  | .call => m.call
  | .tailCall => m.call
  | .ret => m.ret
  | .line => m.line
  | .count => m.count

/-- A mask that selects an event is not empty. -/
theorem isEmpty_of_selects {m : HookMask} {event : HookEvent} (h : m.selects event = true) :
    m.isEmpty = false := by
  rcases m with ⟨call, ret, line, count⟩
  cases event <;> cases call <;> cases ret <;> cases line <;> cases count <;> first | rfl | cases h

/-- Whether events are looked for at each instruction. -/
def watchesInstructions (m : HookMask) : Bool := m.line || m.count

end HookMask

/-- What a hook wants to be done. -/
inductive HookAnswer where
  | proceed
  /-- suspend the thread, for a line or count event -/
  | yield
deriving DecidableEq, Repr, Inhabited

/-- What a hook is told. -/
structure HookRecord where
  event : HookEvent
  /-- the line that was reached, for a line event -/
  line : Option Int
  /-- the frame of the event -/
  frame : Nat
deriving DecidableEq, Repr, Inhabited

end VmInspect
