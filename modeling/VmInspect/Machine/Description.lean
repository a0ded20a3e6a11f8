import VmInspect.Machine.Locals
import VmInspect.Naming.Describe
import VmInspect.Source.Label
import VmInspect.Source.Position

/-!
# Descriptions of functions and tracebacks

A function is described by its source and its shape, and, when it is running, by the line it has
reached and the name its caller used.  A traceback has one entry for each call in progress.
-/

namespace VmInspect

/-- What kind of function is described. -/
inductive FunctionKind where
  | native
  /-- the main function of a source -/
  | main
  /-- any other interpreted function -/
  | interpreted
deriving DecidableEq, Repr, Inhabited

/-- The word for a kind. -/
def FunctionKind.text : FunctionKind → String
  | .native => "native"
  | .main => "main"
  | .interpreted => "interpreted"

/-- A description. The defaults are those of a native function. -/
structure FunctionInfo where
  source : String := "=[C]"
  /-- the label of the source -/
  label : String := "[C]"
  definedLine : Int := -1
  lastLine : Int := -1
  kind : FunctionKind := .native
  /-- the line being executed -/
  currentLine : Option Int := none
  upvalueCount : Nat := 0
  paramCount : Nat := 0
  isVararg : Bool := true
  isTailCall : Bool := false
  /-- the values moved across the call that is being reported -/
  transfer : Transfer := {}
  /-- how the caller names the function -/
  name : Option Name := none
deriving DecidableEq, Repr, Inhabited

namespace FunctionInfo

/-- The source of a function that has none. -/
def unknownSource : String := "=?"

/-- The description of an interpreted function. -/
def ofProto (proto : Proto) (upvalueCount : Nat) : FunctionInfo where
  source := proto.source.getD unknownSource
  label := Source.label (proto.source.getD unknownSource)
  definedLine := proto.definedLine
  lastLine := proto.lastLine
  kind := if proto.isMain then .main else .interpreted
  upvalueCount := upvalueCount
  paramCount := proto.paramCount
  isVararg := proto.isVararg

/-- The description of a function. What is no function is described as a native one. -/
def ofFunction : Option FunctionObject → FunctionInfo
  | some (.script proto upvalues) => ofProto proto upvalues.size
  | some (.native _ upvalueCount) => { upvalueCount }
  | none => {}

/-- What a traceback calls the function. -/
def entryName? (info : FunctionInfo) : Option String :=
  match info.name with
  | some name => some name.name
  | none => if info.kind = .main then some "main chunk" else none

/-- The entry of a traceback. -/
def entry (info : FunctionInfo) : TraceEntry :=
  ⟨info.entryName?, info.label, info.currentLine, info.isTailCall⟩

end FunctionInfo

namespace Machine

/-- The name of the function that a frame is calling, as far as the way of the call tells. -/
def calledName? (m : Machine) (id : Nat) : Option Name := do
  let frame ← m.frame? id
  if frame.flags.hooked then some ⟨.hook, Name.unknown⟩
  else if frame.flags.finalizer then some ⟨.metamethod, Event.gc.key⟩
  else if frame.isScript then (← m.frameProto? id).calledName? (← frame.currentPc?)
  else none

/-- The description of a function that need not be running. -/
def describeFunction (m : Machine) (f : Value) : FunctionInfo :=
  FunctionInfo.ofFunction (m.function? f)

/-- The line that a frame has reached. -/
def currentLine? (m : Machine) (id : Nat) (frame : Frame) : Option Int := do
  (← m.frameProto? id).line? (← frame.currentPc?)

/-- The description of the function running in a frame. -/
def describeFrame? (m : Machine) (id : Nat) : Option FunctionInfo :=
  (m.frame? id).map fun frame =>
    { FunctionInfo.ofFunction (m.frameFunction? id) with
      currentLine := m.currentLine? id frame
      isTailCall := frame.flags.tailCall
      transfer := if frame.flags.transfer then frame.transfer else {}
      name := if frame.flags.tailCall then none else frame.previous.bind m.calledName? }

/-- The lines with instructions of an interpreted function. -/
def validLines? (m : Machine) (f : Value) : Option (List Int) := do
  return (← (← m.function? f).proto?).validLines?.getD []

/-- The entries of the calls in progress from a level on. -/
def traceback (m : Machine) (level : Int) : List TraceEntry :=
  match m.level? level with
  | some id =>
    ((m.callers id).takeWhile (· ≠ baseFrame)).filterMap fun id =>
      (m.describeFrame? id).map FunctionInfo.entry
  | none => []

end Machine

end VmInspect
