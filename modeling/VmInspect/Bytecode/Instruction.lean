import VmInspect.Bytecode.Opcode

/-!
# Instructions

An instruction is an opcode with three byte operands and a flag.  The wider operands are readings of
the same fields: Bx is k, B and C together, Ax is A, k, B and C together, and the signed readings
subtract half the range.  A word of 32 bits holds, from the low end, seven bits of opcode number,
A, k, B and C; a word whose opcode number is unknown is no instruction.
-/

namespace VmInspect

/-- One instruction. -/
structure Instruction where
  opcode : Opcode
  /-- operand A -/
  byteA : UInt8
  k : Bool
  /-- operand B -/
  byteB : UInt8
  /-- operand C -/
  byteC : UInt8
deriving DecidableEq, Inhabited

namespace Instruction

/-! ## Operands -/

def a (i : Instruction) : Nat := i.byteA.toNat

def b (i : Instruction) : Nat := i.byteB.toNat

def c (i : Instruction) : Nat := i.byteC.toNat

/-- The signed reading of a byte is this much less. -/
def byteBias : Nat := 127

def signedB (i : Instruction) : Int := (i.b : Int) - byteBias

def signedC (i : Instruction) : Int := (i.c : Int) - byteBias

/-- The number of values of Bx, which has seventeen bits. -/
def bxRange : Nat := 131072

/-- The signed reading of Bx is this much less. -/
def bxBias : Nat := 65535

/-- The operand Bx: k, B and C from the low end. -/
def bx (i : Instruction) : Nat := i.k.toNat + 2 * i.b + 512 * i.c

def signedBx (i : Instruction) : Int := (i.bx : Int) - bxBias

/-- The number of values of Ax, which has twenty-five bits. -/
def axRange : Nat := 33554432

/-- The signed jump distance is this much less than Ax. -/
def jumpBias : Nat := 16777215

/-- The operand Ax: A and Bx from the low end. -/
def ax (i : Instruction) : Nat := i.a + 256 * i.bx

/-- The distance of a jump. -/
def jumpDistance (i : Instruction) : Int := (i.ax : Int) - jumpBias

/-! ## Making instructions -/

/-- An instruction of the format A, k, B, C. -/
def abck (op : Opcode) (a b c : UInt8) (k : Bool) : Instruction := ⟨op, a, k, b, c⟩

/-- The same with k clear. -/
def abc (op : Opcode) (a b c : UInt8) : Instruction := abck op a b c false

/-- An instruction of the format A, Bx. The operand is taken modulo its range. -/
def abx (op : Opcode) (a : UInt8) (bx : Nat) : Instruction :=
  ⟨op, a, bx % 2 == 1, UInt8.ofNat (bx / 2), UInt8.ofNat (bx / 512)⟩

/-- An instruction of the format A, sBx. -/
def asbx (op : Opcode) (a : UInt8) (sbx : Int) : Instruction :=
  abx op a ((sbx + bxBias) % bxRange).toNat

/-- An instruction of the format Ax. The operand is taken modulo its range. -/
def ofAx (op : Opcode) (ax : Nat) : Instruction := abx op (UInt8.ofNat ax) (ax / 256)

/-- A jump by a distance. -/
def ofJumpDistance (op : Opcode) (distance : Int) : Instruction :=
  ofAx op ((distance + jumpBias) % axRange).toNat

/-! ## Words -/

/-- The word of an instruction: the opcode in the low seven bits, Ax above. -/
def word (i : Instruction) : UInt32 := UInt32.ofNat (i.opcode.number + 128 * i.ax)

/-- The instruction of a word. -/
def ofWord? (w : UInt32) : Option Instruction :=
  (Opcode.ofNumber? (w.toNat % 128)).map fun op => ofAx op (w.toNat / 128)

/-! ## Open ranges of values -/

/-- Whether the values up to the stack top are taken as operands. -/
def usesOpenTop (i : Instruction) : Bool := i.opcode.usesTop && i.b == 0

/-- Whether the results reach up to a stack top left for the next instruction. -/
def leavesOpenTop (i : Instruction) : Bool :=
  (i.opcode.leavesTop && i.c == 0) || i.opcode == .tailCall

end Instruction

end VmInspect
