import VmInspect.Bytecode.Instruction
import VmInspect.Bytecode.LineTable
import VmInspect.Value.Basic

/-!
# Compiled functions

A prototype holds the instructions of one function and what belongs to them: constants, nested
functions, the upvalues it captures, and, for inspection, the ranges in which local variables live
and the lines of the instructions.
-/

namespace VmInspect

/-- A variable captured from the enclosing function. -/
structure UpvalueInfo where
  /-- the name, if it was kept -/
  name : Option String
  /-- whether a register of the enclosing function is captured, or one of its upvalues -/
  inStack : Bool
  /-- the number of that register or upvalue -/
  index : Nat
deriving DecidableEq, Repr, Inhabited

/-- A local variable, alive from one instruction up to another. -/
structure LocalInfo where
  name : String
  /-- the first instruction at which the variable is alive -/
  startPc : Nat
  /-- the first instruction at which it is dead again -/
  endPc : Nat
deriving DecidableEq, Repr, Inhabited

/-- A compiled function. -/
structure Proto where
  code : Array Instruction := #[]
  constants : Array Value := #[]
  upvalues : Array UpvalueInfo := #[]
  /-- the nested functions -/
  children : List Proto := []
  /-- the local variables, by their first instructions -/
  locals : List LocalInfo := []
  lines : LineTable := {}
  /-- the line where the definition ends -/
  lastLine : Int := 0
  /-- the source, if it is known -/
  source : Option String := none
  /-- whether extra arguments are kept -/
  isVararg : Bool := false
  /-- the number of fixed parameters -/
  paramCount : Nat := 0
  /-- the number of registers the function needs -/
  maxStack : Nat := 0
deriving Inhabited

namespace Proto

/-- The line where the function is defined. -/
def definedLine (p : Proto) : Int := p.lines.definedLine

/-- The main function of a source is defined at line zero. -/
def isMain (p : Proto) : Bool := p.definedLine == 0

/-- The line of an instruction. -/
def line? (p : Proto) (pc : Nat) : Option Int := p.lines.line? pc

/-- The lines that hold an instruction. -/
def validLines? (p : Proto) : Option (List Int) := p.lines.validLines? p.isVararg

/-! ## Local variables -/

/-- The variables alive at an instruction, among those at the front of the list that start at it
or before it. -/
def activeLocals (p : Proto) (pc : Nat) : List LocalInfo :=
  (p.locals.takeWhile fun v => v.startPc ≤ pc).filter fun v => pc < v.endPc

/-- The name of the `n`-th variable alive at an instruction, counted from one. -/
def localName? (p : Proto) (n pc : Nat) : Option String :=
  if n = 0 then none else (p.activeLocals pc)[n - 1]?.map LocalInfo.name

/-! ## Equality -/

/-- Whether two pools of constants are equal, as a program compares values. -/
def constantsEqual (cs ds : Array Value) : Bool :=
  cs.size == ds.size && (cs.zip ds).all fun p => p.1.equal p.2

/-- Whether two functions agree apart from their nested functions. -/
def bodyEqual (p q : Proto) : Bool :=
  p.code == q.code && constantsEqual p.constants q.constants && p.upvalues == q.upvalues &&
    p.locals == q.locals && p.lines == q.lines && p.lastLine == q.lastLine &&
    p.source == q.source && p.isVararg == q.isVararg && p.paramCount == q.paramCount &&
    p.maxStack == q.maxStack

theorem sizeOf_lt_of_mem_children {p c : Proto} (h : c ∈ p.children) : sizeOf c < sizeOf p := by
  obtain ⟨code, constants, upvalues, children, locals, lines, lastLine, source, _, _, _⟩ := p
  have := List.sizeOf_lt_of_mem h
  simp_all only [mk.sizeOf_spec]
  omega

/-- Equality of functions, the nested ones included.  Constants are compared as values, so a
function with a NaN among its constants differs from itself. -/
def equal (p q : Proto) : Bool :=
  bodyEqual p q && p.children.length == q.children.length &&
    (p.children.attach.zip q.children).all fun r => equal r.1.1 r.2
termination_by sizeOf p
decreasing_by exact sizeOf_lt_of_mem_children r.1.2

end Proto

end VmInspect
