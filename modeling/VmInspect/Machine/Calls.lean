import VmInspect.Machine.Basic

/-!
# Entering and leaving functions

A call finds its function in a slot and its arguments between that slot and the top.  A function that
keeps extra arguments is moved above them with its fixed parameters.  On return the results go where
the function was.
-/

namespace VmInspect

namespace Machine

/-- The number of values above a slot. -/
def above (m : Machine) (slot : Nat) : Nat := m.top - (slot + 1)

/-- Enter the interpreted function in a slot. Missing parameters are nil. -/
def enterScript (m : Machine) (proto : Proto) (func : Nat) (flags : CallFlags) : Machine :=
  let missing := proto.paramCount - m.above func
  let m := (m.ensureStack (max proto.maxStack proto.paramCount)).pushAll
    (List.replicate missing .nil)
  let frame := { Frame.script func (func + 1 + proto.maxStack) (some m.currentId) with flags }
  let m := m.growTo (frame.top + extraStack)
  { m with frames := m.frames.push frame }

/-- Enter the native function in a slot. -/
def enterNative (m : Machine) (func : Nat) : Machine :=
  let frame := Frame.native func (m.top + minStack) (some m.currentId)
  let m := m.growTo (frame.top + extraStack)
  { m with frames := m.frames.push frame }

/-- Move the value of a slot to the top. -/
def liftValue (m : Machine) (slot : Nat) : Machine :=
  let v := m.slot slot
  (m.put slot .nil).push v

/-- Move the function of the current frame and its fixed parameters above all arguments. -/
def adjustVarargs (m : Machine) (fixed : Nat) : Machine :=
  let id := m.currentId
  let func := m.current.func
  let actual := m.above func
  let size := ((m.frameProto? id).map Proto.maxStack).getD 0
  let m := (m.ensureStack (size + 1)).push (m.slot func)
  let m := (List.range' (func + 1) fixed).foldl liftValue m
  let shift := actual + 1
  let m := m.modifyFrame id fun f =>
    { f with func := f.func + shift, top := f.top + shift }.setVarargs (actual - fixed) shift
  m.growTo ((m.frameAt id).top + extraStack)

/-- Copy a number of values from one slot on to another, the first one first. -/
def copyDown (m : Machine) (source target count : Nat) : Machine :=
  { m with
    stack := (List.range count).foldl
      (fun stack i => stack.setIfInBounds (target + i) (stack[source + i]?.getD .nil)) m.stack }

/-- Leave a frame: the values on top go where its function was, and the last frame is gone. -/
def leave (m : Machine) (id results : Nat) : Machine :=
  let frame := m.frameAt id
  let target := frame.func - frame.shift
  let m := (m.copyDown (m.top - results) target results).setTop (target + results)
  { m with frames := m.frames.pop }

end Machine

end VmInspect
