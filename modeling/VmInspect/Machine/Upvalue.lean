import VmInspect.Value.Basic

/-!
# Upvalues

An upvalue is a captured variable.  It is open while the variable lives in a stack slot, and closed
once its value was moved into a cell.  Functions hold handles; functions that share a handle share
the variable, and upvalues that were copied after closing share the cell.
-/

namespace VmInspect

/-- Where a captured variable lives. -/
inductive Upvalue where
  | onStack (slot : Nat)
  | inCell (cell : Nat)
deriving DecidableEq, Repr, Inhabited

/-- All upvalues, by handle, and the cells of the closed ones. -/
structure UpvalueStore where
  handles : Array Upvalue := #[]
  cells : Array Value := #[]
deriving DecidableEq, Inhabited

namespace UpvalueStore

/-! ## New handles. The new handle is the number of handles before. -/

/-- Add a handle of an upvalue that exists. -/
def add (s : UpvalueStore) (u : Upvalue) : UpvalueStore := { s with handles := s.handles.push u }

/-- Add a handle of a stack slot. -/
def addOpen (s : UpvalueStore) (slot : Nat) : UpvalueStore := s.add (.onStack slot)

/-- Add a handle of a new cell. -/
def addClosed (s : UpvalueStore) (v : Value) : UpvalueStore where
  handles := s.handles.push (.inCell s.cells.size)
  cells := s.cells.push v

/-- Add a handle that denotes what another one denotes now. -/
def addCopy (s : UpvalueStore) (handle : Nat) : UpvalueStore :=
  match s.handles[handle]? with
  | some u => s.add u
  | none => s

/-! ## Access -/

def isOpen (s : UpvalueStore) (handle : Nat) : Bool :=
  match s.handles[handle]? with
  | some (.onStack _) => true
  | _ => false

/-- The value of a variable. A slot that does not exist reads as nil. -/
def get (s : UpvalueStore) (stack : Array Value) (handle : Nat) : Value :=
  match s.handles[handle]? with
  | some (.onStack slot) => stack[slot]?.getD .nil
  | some (.inCell cell) => s.cells[cell]?.getD .nil
  | none => .nil

/-- Write a variable, in the cells or on the stack. -/
def set (s : UpvalueStore) (stack : Array Value) (handle : Nat) (v : Value) :
    UpvalueStore × Array Value :=
  match s.handles[handle]? with
  | some (.onStack slot) => (s, stack.setIfInBounds slot v)
  | some (.inCell cell) => ({ s with cells := s.cells.setIfInBounds cell v }, stack)
  | none => (s, stack)

/-- Move an open variable off the stack into a cell of its own. -/
def close (s : UpvalueStore) (stack : Array Value) (handle : Nat) : UpvalueStore :=
  match s.handles[handle]? with
  | some (.onStack slot) =>
    { handles := s.handles.setIfInBounds handle (.inCell s.cells.size)
      cells := s.cells.push (stack[slot]?.getD .nil) }
  | _ => s

end UpvalueStore

end VmInspect
