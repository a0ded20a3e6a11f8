import VmInspect.Bytecode.Proto
import VmInspect.Machine.Frame
import VmInspect.Machine.Upvalue

/-!
# The machine

The machine is what an interpreter works on: the stack of values, the frames of the calls in
progress, the functions that values refer to, and the upvalues.  The first frame stands below all
calls and is never left.
-/

namespace VmInspect

/-- A function that a value refers to. -/
inductive FunctionObject where
  /-- an interpreted function with the handles of its upvalues -/
  | script (proto : Proto) (upvalues : Array Nat)
  | native (name : String) (upvalueCount : Nat)
deriving Inhabited

namespace FunctionObject

def proto? : FunctionObject → Option Proto
  | script proto _ => some proto
  | native _ _ => none

/-- The handles of the upvalues of an interpreted function. -/
def upvalues? : FunctionObject → Option (Array Nat)
  | script _ upvalues => some upvalues
  | native _ _ => none

def upvalueCount : FunctionObject → Nat
  | script _ upvalues => upvalues.size
  | native _ count => count

end FunctionObject

/-- The state of an interpreter, apart from what is reported to a debugger. -/
structure Machine where
  stack : Array Value
  /-- the first free slot -/
  top : Nat
  /-- the calls in progress, the current one last -/
  frames : Array Frame
  functions : Array FunctionObject := #[]
  upvalues : UpvalueStore := {}
deriving Inhabited

namespace Machine

/-- The slots that a native function, or a report, can use above the top. -/
def minStack : Nat := 20

/-- The slots kept free above the top of every frame. -/
def extraStack : Nat := 5

/-- The number of the frame below all calls. -/
def baseFrame : Nat := 0

/-- A machine without calls. Slot zero is that of the frame below all calls. -/
def initial : Machine where
  stack := Array.replicate (2 * minStack) .nil
  top := 1
  frames := #[Frame.native 0 (1 + minStack) none]

/-! ## The stack -/

/-- Make slots exist up to a number of them. -/
def growTo (m : Machine) (size : Nat) : Machine :=
  { m with stack := m.stack ++ Array.replicate (size - m.stack.size) Value.nil }

/-- Write a slot that exists. -/
def put (m : Machine) (slot : Nat) (v : Value) : Machine :=
  { m with stack := m.stack.setIfInBounds slot v }

/-- The value of a slot. A slot that does not exist reads as nil. -/
def slot (m : Machine) (i : Nat) : Value := m.stack[i]?.getD .nil

@[simp] theorem size_growTo (m : Machine) (size : Nat) :
    (m.growTo size).stack.size = max m.stack.size size := by
  simp only [growTo, Array.size_append, Array.size_replicate]
  omega

@[simp] theorem size_put (m : Machine) (i : Nat) (v : Value) :
    (m.put i v).stack.size = m.stack.size := by
  simp [put]

/-- New slots read as nil, as they did before. -/
@[simp] theorem slot_growTo (m : Machine) (size i : Nat) : (m.growTo size).slot i = m.slot i := by
  simp only [slot, growTo, Array.getElem?_append, Array.getElem?_replicate]
  split
  · rfl
  · rw [Array.getElem?_eq_none (by omega)]
    split <;> rfl

theorem slot_put_self (m : Machine) {i : Nat} (h : i < m.stack.size) (v : Value) :
    (m.put i v).slot i = v := by
  simp [slot, put, h]

theorem slot_put_of_ne (m : Machine) {i j : Nat} (h : i ≠ j) (v : Value) :
    (m.put i v).slot j = m.slot j := by
  simp [slot, put, h]

/-- Clear the slots from one up to another. -/
def clear (m : Machine) (first last : Nat) : Machine :=
  { m with
    stack := (List.range' first (last - first)).foldl (·.setIfInBounds · .nil) m.stack }

/-- Move the top. Slots given up are cleared. -/
def setTop (m : Machine) (top : Nat) : Machine :=
  { (m.growTo (top + extraStack)).clear top m.top with top }

def push (m : Machine) (v : Value) : Machine :=
  { (m.growTo (m.top + 1 + extraStack)).put m.top v with top := m.top + 1 }

/-- A pushed value is on top. -/
@[simp] theorem slot_push_top (m : Machine) (v : Value) : (m.push v).slot m.top = v :=
  slot_put_self _ (by rw [size_growTo]; omega) v

/-- A push leaves every other slot alone. -/
theorem slot_push_of_ne (m : Machine) {i : Nat} (h : m.top ≠ i) (v : Value) :
    (m.push v).slot i = m.slot i :=
  (slot_put_of_ne _ h v).trans (slot_growTo m _ i)

/-- Push values, the first one first. -/
def pushAll (m : Machine) (vs : List Value) : Machine := vs.foldl push m

/-- The value on top. An empty stack has nil on top. -/
def topValue (m : Machine) : Value := if m.top = 0 then .nil else m.slot (m.top - 1)

/-- Take the value on top away. -/
def drop (m : Machine) : Machine :=
  if m.top = 0 then m else { m.put (m.top - 1) .nil with top := m.top - 1 }

/-- Overwrite a slot, which is made to exist. -/
def setSlot (m : Machine) (i : Nat) (v : Value) : Machine := (m.growTo (i + 1)).put i v

/-- Make a number of slots above the top exist. -/
def ensureStack (m : Machine) (n : Nat) : Machine := m.growTo (m.top + n + extraStack)

/-! ## Functions -/

/-- Register a function. Its value refers to the number of functions before. -/
def register (m : Machine) (f : FunctionObject) : Machine :=
  { m with functions := m.functions.push f }

/-- Register an interpreted function whose upvalues are closed and nil. -/
def registerClosed (m : Machine) (proto : Proto) : Machine :=
  let first := m.upvalues.handles.size
  let count := proto.upvalues.size
  { m with
    upvalues := (List.range count).foldl (fun s _ => s.addClosed .nil) m.upvalues
    functions := m.functions.push (.script proto (Array.range' first count)) }

/-- The function that a value refers to. -/
def function? (m : Machine) : Value → Option FunctionObject
  | .function id => m.functions[id]?
  | _ => none

/-! ## Frames -/

/-- The number of the current frame. -/
def currentId (m : Machine) : Nat := m.frames.size - 1

def frame? (m : Machine) (id : Nat) : Option Frame := m.frames[id]?

/-- The frame of a number. -/
def frameAt (m : Machine) (id : Nat) : Frame := m.frames[id]?.getD default

/-- The current frame. -/
def current (m : Machine) : Frame := m.frameAt m.currentId

/-- The number of calls in progress. -/
def depth (m : Machine) : Nat := m.frames.size - 1

/-- Change a frame, if it exists. -/
def modifyFrame (m : Machine) (id : Nat) (change : Frame → Frame) : Machine :=
  { m with frames := m.frames.modify id change }

/-- Look for events in frames. -/
def armTraps (m : Machine) (ids : List Nat) : Machine :=
  { m with frames := ids.foldl (fun frames id => frames.modify id (·.setTrap true)) m.frames }

/-- The function running in a frame. -/
def frameFunction? (m : Machine) (id : Nat) : Option FunctionObject := do
  let f ← m.frame? id
  m.function? (← m.stack[f.func]?)

/-- The prototype running in a frame. -/
def frameProto? (m : Machine) (id : Nat) : Option Proto :=
  (m.frameFunction? id).bind FunctionObject.proto?

/-- The frames from one on, each followed by its caller. -/
def chain (m : Machine) : Nat → Option Nat → List Nat
  | _, none => []
  | 0, _ => []
  | fuel + 1, some id => id :: m.chain fuel (m.frame? id |>.bind Frame.previous)

/-- The frames from one on. There are no more than all frames. -/
def callers (m : Machine) (id : Nat) : List Nat := m.chain m.frames.size (some id)

end Machine

end VmInspect
