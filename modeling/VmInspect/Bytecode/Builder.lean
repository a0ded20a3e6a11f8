import VmInspect.Bytecode.LineWriter
import VmInspect.Bytecode.Proto

/-!
# Building prototypes

A builder collects the parts of a prototype and writes its line table while instructions are added.
The stride and the defined line are to be set before the first instruction.
-/

namespace VmInspect

/-- A prototype in the making. -/
structure Builder where
  /-- the parts so far, apart from the line table -/
  proto : Proto
  lines : LineWriter
  /-- whether line information is kept -/
  keepLines : Bool := true
deriving Inhabited

namespace Builder

/-- An empty function without parameters. -/
def empty : Builder where
  proto := { maxStack := 2 }
  lines := .empty

/-! ## Settings -/

def withStride (b : Builder) (stride : Nat) : Builder :=
  { b with lines := b.lines.withStride stride }

def withSource (b : Builder) (source : String) : Builder :=
  { b with proto := { b.proto with source := some source } }

/-- Set the lines where the definition starts and ends. -/
def withLines (b : Builder) (defined last : Int) : Builder :=
  { b with
    proto := { b.proto with lastLine := last }
    lines := b.lines.withDefinedLine defined }

def withVararg (b : Builder) : Builder :=
  { b with proto := { b.proto with isVararg := true } }

def withParams (b : Builder) (count : Nat) : Builder :=
  { b with proto := { b.proto with paramCount := count } }

def withMaxStack (b : Builder) (size : Nat) : Builder :=
  { b with proto := { b.proto with maxStack := size } }

/-- Leave line information out of the result. -/
def withoutLineInfo (b : Builder) : Builder := { b with keepLines := false }

/-! ## Parts -/

/-- The place of the next instruction. -/
def pc (b : Builder) : Nat := b.proto.code.size

/-- Add an instruction of a line. -/
def emit (b : Builder) (i : Instruction) (line : Int) : Builder :=
  { b with
    proto := { b.proto with code := b.proto.code.push i }
    lines := b.lines.record line }

@[simp] theorem pc_emit (b : Builder) (i : Instruction) (line : Int) :
    (b.emit i line).pc = b.pc + 1 := by
  simp [pc, emit]

/-- Replace an instruction, if it exists. -/
def patch (b : Builder) (pc : Nat) (i : Instruction) : Builder :=
  { b with proto := { b.proto with code := b.proto.code.setIfInBounds pc i } }

def addConstant (b : Builder) (v : Value) : Builder :=
  { b with proto := { b.proto with constants := b.proto.constants.push v } }

def addUpvalue (b : Builder) (u : UpvalueInfo) : Builder :=
  { b with proto := { b.proto with upvalues := b.proto.upvalues.push u } }

def addChild (b : Builder) (child : Proto) : Builder :=
  { b with proto := { b.proto with children := b.proto.children ++ [child] } }

def addLocal (b : Builder) (v : LocalInfo) : Builder :=
  { b with proto := { b.proto with locals := b.proto.locals ++ [v] } }

/-- The finished function. -/
def build (b : Builder) : Proto := { b.proto with lines := b.lines.finish b.keepLines }

end Builder

end VmInspect
