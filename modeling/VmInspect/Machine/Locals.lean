import VmInspect.Machine.Calls

/-!
# Levels and local variables

Level zero is the current call and each further level the caller of the one before.  The variables
of a call have numbers: the variables that the function declares and the temporary values after them
count from one, the extra arguments downwards from minus one.
-/

namespace VmInspect

namespace Machine

/-- The frame a number of callers above a frame. The frame below all calls is no level. -/
def callerAt? (m : Machine) : Nat → Nat → Option Nat
  | 0, id => if id = baseFrame then none else some id
  | level + 1, id =>
    if id = baseFrame then none
    else (m.frame? id).bind Frame.previous |>.bind (m.callerAt? level)

/-- The frame of a level. -/
def level? (m : Machine) (level : Int) : Option Nat :=
  if level < 0 then none else m.callerAt? level.toNat m.currentId

/-! ## Names and slots of variables -/

/-- The slot of an extra argument, numbered downwards from minus one. Extra arguments lie just below
the function. -/
def varargSlot? (m : Machine) (id : Nat) (n : Int) : Option Nat :=
  let frame := m.frameAt id
  let extra : Int := frame.extraArgs
  if (m.frameProto? id).any Proto.isVararg ∧ -extra ≤ n then
    some ((frame.func : Int) - extra - (n + 1)).toNat
  else none

/-- The first slot past the variables of a frame: those of a caller end at the function it called. -/
def localsEnd (m : Machine) (id : Nat) : Nat :=
  if id = m.currentId then m.top else ((m.frame? (id + 1)).map Frame.func).getD m.top

/-- What a value without a name is called. -/
def temporaryName (f : Frame) : String := if f.isScript then "(temporary)" else "(native temporary)"

/-- The name of a variable that the function of a frame declares. -/
def declaredName? (m : Machine) (frame : Frame) (id n : Nat) : Option String :=
  if frame.isScript then
    (m.frameProto? id).bind fun proto => proto.localName? n (frame.currentPc?.getD 0)
  else none

/-- The name and slot of a variable numbered from one, or of a temporary value. -/
def registerName? (m : Machine) (frame : Frame) (id n : Nat) : Option (String × Nat) :=
  let slot := frame.base + n - 1
  match m.declaredName? frame id n with
  | some name => some (name, slot)
  | none =>
    if 0 < n ∧ frame.base + n ≤ m.localsEnd id then some (temporaryName frame, slot) else none

/-- The name and slot of a variable of a frame. -/
def local? (m : Machine) (id : Nat) (n : Int) : Option (String × Nat) :=
  (m.frame? id).bind fun frame =>
    if frame.isScript && decide (n < 0) then
      (m.varargSlot? id n).map fun slot => ("(vararg)", slot)
    else if frame.isScript && (m.frameProto? id).isNone then none
    else if n < 0 then none
    else m.registerName? frame id n.toNat

/-- Push the value of a variable, if it exists, and give its name. -/
def readLocal (m : Machine) (id : Nat) (n : Int) : Option String × Machine :=
  match m.local? id n with
  | some (name, slot) => (some name, m.push (m.slot slot))
  | none => (none, m)

/-- Pop the top value into a variable, if it exists, and give its name. -/
def writeLocal (m : Machine) (id : Nat) (n : Int) : Option String × Machine :=
  match m.local? id n with
  | some (name, slot) =>
    let v := m.topValue
    (some name, m.drop.setSlot slot v)
  | none => (none, m)

/-- The name of a parameter of a function that need not be running. -/
def parameterName? (m : Machine) (f : Value) (n : Nat) : Option String := do
  (← (← m.function? f).proto?).localName? n 0

end Machine

end VmInspect
