/-!
# Opcodes

The operations of the register machine, in the order of their numbers.  In the descriptions `R` is
the window of registers of the running function, `K` its constants, `U` its upvalues, and `RK(C)` a
register or a constant; `A`, `B`, `C` and `k` are the operands, `sB`, `sC`, `sBx` and `sJ` their
signed readings.  The static properties say what an operation may do to the top of the stack and to
the instruction that follows it.
-/

namespace VmInspect

/-- An operation. -/
inductive Opcode where
  /-- R[A] := R[B] -/
  | move
  /-- R[A] := sBx -/
  | loadI
  /-- R[A] := sBx as a float -/
  | loadF
  /-- R[A] := K[Bx] -/
  | loadK
  /-- R[A] := K[extra argument] -/
  | loadKX
  /-- R[A] := false -/
  | loadFalse
  /-- R[A] := false, and the next instruction is skipped -/
  | loadFalseSkip
  /-- R[A] := true -/
  | loadTrue
  /-- R[A], R[A+1], ..., R[A+B] := nil -/
  | loadNil
  /-- R[A] := U[B] -/
  | getUpvalue
  /-- U[B] := R[A] -/
  | setUpvalue
  /-- R[A] := U[B][K[C]], a string key -/
  | getTabUp
  /-- R[A] := R[B][R[C]] -/
  | getTable
  /-- R[A] := R[B][C] -/
  | getI
  /-- R[A] := R[B][K[C]], a string key -/
  | getField
  /-- U[A][K[B]] := RK(C), a string key -/
  | setTabUp
  /-- R[A][R[B]] := RK(C) -/
  | setTable
  /-- R[A][B] := RK(C) -/
  | setI
  /-- R[A][K[B]] := RK(C), a string key -/
  | setField
  /-- R[A] := an empty table -/
  | newTable
  /-- R[A+1] := R[B]; R[A] := R[B][RK(C)], a string key -/
  | selfIndex
  /-- R[A] := R[B] + sC -/
  | addI
  /-- R[A] := R[B] + K[C] -/
  | addK
  /-- R[A] := R[B] - K[C] -/
  | subK
  /-- R[A] := R[B] * K[C] -/
  | mulK
  /-- R[A] := R[B] % K[C] -/
  | modK
  /-- R[A] := R[B] ^ K[C] -/
  | powK
  /-- R[A] := R[B] / K[C] -/
  | divK
  /-- R[A] := R[B] // K[C] -/
  | floorDivK
  /-- R[A] := R[B] & K[C] -/
  | bitAndK
  /-- R[A] := R[B] | K[C] -/
  | bitOrK
  /-- R[A] := R[B] ~ K[C] -/
  | bitXorK
  /-- R[A] := R[B] >> sC -/
  | shiftRightI
  /-- R[A] := sC << R[B] -/
  | shiftLeftI
  /-- R[A] := R[B] + R[C] -/
  | add
  /-- R[A] := R[B] - R[C] -/
  | sub
  /-- R[A] := R[B] * R[C] -/
  | mul
  /-- R[A] := R[B] % R[C] -/
  | mod
  /-- R[A] := R[B] ^ R[C] -/
  | pow
  /-- R[A] := R[B] / R[C] -/
  | div
  /-- R[A] := R[B] // R[C] -/
  | floorDiv
  /-- R[A] := R[B] & R[C] -/
  | bitAnd
  /-- R[A] := R[B] | R[C] -/
  | bitOr
  /-- R[A] := R[B] ~ R[C] -/
  | bitXor
  /-- R[A] := R[B] << R[C] -/
  | shiftLeft
  /-- R[A] := R[B] >> R[C] -/
  | shiftRight
  /-- run the metamethod of event C over R[A] and R[B] -/
  | eventBin
  /-- run the metamethod of event C over R[A] and sB -/
  | eventBinI
  /-- run the metamethod of event C over R[A] and K[B] -/
  | eventBinK
  /-- R[A] := -R[B] -/
  | negate
  /-- R[A] := ~R[B] -/
  | bitNot
  /-- R[A] := not R[B] -/
  | logicNot
  /-- R[A] := the length of R[B] -/
  | length
  /-- R[A] := R[A].. ... ..R[A+B-1] -/
  | concat
  /-- close all upvalues at R[A] and above -/
  | close
  /-- mark the variable R[A] as to be closed -/
  | toBeClosed
  /-- go on sJ instructions further -/
  | jump
  /-- if (R[A] == R[B]) differs from k, skip the next instruction -/
  | eq
  /-- if (R[A] < R[B]) differs from k, skip the next instruction -/
  | lt
  /-- if (R[A] <= R[B]) differs from k, skip the next instruction -/
  | le
  /-- if (R[A] == K[B]) differs from k, skip the next instruction -/
  | eqK
  /-- if (R[A] == sB) differs from k, skip the next instruction -/
  | eqI
  /-- if (R[A] < sB) differs from k, skip the next instruction -/
  | ltI
  /-- if (R[A] <= sB) differs from k, skip the next instruction -/
  | leI
  /-- if (R[A] > sB) differs from k, skip the next instruction -/
  | gtI
  /-- if (R[A] >= sB) differs from k, skip the next instruction -/
  | geI
  /-- if (not R[A]) is k, skip the next instruction -/
  | test
  /-- if (not R[B]) is k, skip the next instruction, or else R[A] := R[B] -/
  | testSet
  /-- R[A], ..., R[A+C-2] := R[A](R[A+1], ..., R[A+B-1]) -/
  | call
  /-- return R[A](R[A+1], ..., R[A+B-1]) -/
  | tailCall
  /-- return R[A], ..., R[A+B-2] -/
  | ret
  /-- return nothing -/
  | return0
  /-- return R[A] -/
  | return1
  /-- update the counters, and if the loop goes on, go back Bx instructions -/
  | forLoop
  /-- prepare the counters, and if there is nothing to run, go on Bx + 1 further -/
  | forPrep
  /-- make R[A+3] an upvalue and go on Bx instructions further -/
  | genericPrep
  /-- R[A+4], ..., R[A+3+C] := R[A](R[A+1], R[A+2]) -/
  | genericCall
  /-- if R[A+2] is not nil, R[A] := R[A+2] and go back Bx instructions -/
  | genericLoop
  /-- R[A][C+i] := R[A+i] for i from 1 to B -/
  | setList
  /-- R[A] := a closure of the nested function Bx -/
  | closure
  /-- R[A], R[A+1], ..., R[A+C-2] := the extra arguments -/
  | vararg
  /-- set the fixed parameters apart from the extra arguments -/
  | varargPrep
  /-- a larger argument of the instruction before -/
  | extraArg
deriving DecidableEq, Inhabited

/-- How the operands lie in the word. -/
inductive Format where
  /-- A, k, B and C -/
  | iABC
  /-- A and an unsigned Bx -/
  | iABx
  /-- A and a signed sBx -/
  | iAsBx
  /-- Ax alone -/
  | iAx
  /-- a signed sJ alone -/
  | isJ
deriving DecidableEq, Repr, Inhabited

/-- The name of a format. -/
def Format.name : Format → String
  | .iABC => "iABC"
  | .iABx => "iABx"
  | .iAsBx => "iAsBx"
  | .iAx => "iAx"
  | .isJ => "isJ"

namespace Opcode

/-- All opcodes by number. -/
def all : Array Opcode := #[
  .move, .loadI, .loadF, .loadK, .loadKX, .loadFalse, .loadFalseSkip, .loadTrue, .loadNil,
  .getUpvalue, .setUpvalue, .getTabUp, .getTable, .getI, .getField, .setTabUp, .setTable, .setI,
  .setField, .newTable, .selfIndex, .addI, .addK, .subK, .mulK, .modK, .powK, .divK, .floorDivK,
  .bitAndK, .bitOrK, .bitXorK, .shiftRightI, .shiftLeftI, .add, .sub, .mul, .mod, .pow, .div,
  .floorDiv, .bitAnd, .bitOr, .bitXor, .shiftLeft, .shiftRight, .eventBin, .eventBinI, .eventBinK,
  .negate, .bitNot, .logicNot, .length, .concat, .close, .toBeClosed, .jump, .eq, .lt, .le, .eqK,
  .eqI, .ltI, .leI, .gtI, .geI, .test, .testSet, .call, .tailCall, .ret, .return0, .return1,
  .forLoop, .forPrep, .genericPrep, .genericCall, .genericLoop, .setList, .closure, .vararg,
  .varargPrep, .extraArg]

/-- The number in the encoding. -/
def number (op : Opcode) : Nat := op.ctorIdx

/-- The opcode of a number. -/
def ofNumber? (n : Nat) : Option Opcode := all[n]?

@[simp] theorem ofNumber?_number (op : Opcode) : ofNumber? op.number = some op := by
  cases op <;> rfl

/-- The mnemonic of listings. -/
def mnemonic : Opcode → String
  | move => "MOVE"
  | loadI => "LOADI"
  | loadF => "LOADF"
  | loadK => "LOADK"
  | loadKX => "LOADKX"
  | loadFalse => "LOADFALSE"
  | loadFalseSkip => "LFALSESKIP"
  | loadTrue => "LOADTRUE"
  | loadNil => "LOADNIL"
  | getUpvalue => "GETUPVAL"
  | setUpvalue => "SETUPVAL"
  | getTabUp => "GETTABUP"
  | getTable => "GETTABLE"
  | getI => "GETI"
  | getField => "GETFIELD"
  | setTabUp => "SETTABUP"
  | setTable => "SETTABLE"
  | setI => "SETI"
  | setField => "SETFIELD"
  | newTable => "NEWTABLE"
  | selfIndex => "SELF"
  | addI => "ADDI"
  | addK => "ADDK"
  | subK => "SUBK"
  | mulK => "MULK"
  | modK => "MODK"
  | powK => "POWK"
  | divK => "DIVK"
  | floorDivK => "IDIVK"
  | bitAndK => "BANDK"
  | bitOrK => "BORK"
  | bitXorK => "BXORK"
  | shiftRightI => "SHRI"
  | shiftLeftI => "SHLI"
  | add => "ADD"
  | sub => "SUB"
  | mul => "MUL"
  | mod => "MOD"
  | pow => "POW"
  | div => "DIV"
  | floorDiv => "IDIV"
  | bitAnd => "BAND"
  | bitOr => "BOR"
  | bitXor => "BXOR"
  | shiftLeft => "SHL"
  | shiftRight => "SHR"
  | eventBin => "MMBIN"
  | eventBinI => "MMBINI"
  | eventBinK => "MMBINK"
  | negate => "UNM"
  | bitNot => "BNOT"
  | logicNot => "NOT"
  | length => "LEN"
  | concat => "CONCAT"
  | close => "CLOSE"
  | toBeClosed => "TBC"
  | jump => "JMP"
  | eq => "EQ"
  | lt => "LT"
  | le => "LE"
  | eqK => "EQK"
  | eqI => "EQI"
  | ltI => "LTI"
  | leI => "LEI"
  | gtI => "GTI"
  | geI => "GEI"
  | test => "TEST"
  | testSet => "TESTSET"
  | call => "CALL"
  | tailCall => "TAILCALL"
  | ret => "RETURN"
  | return0 => "RETURN0"
  | return1 => "RETURN1"
  | forLoop => "FORLOOP"
  | forPrep => "FORPREP"
  | genericPrep => "TFORPREP"
  | genericCall => "TFORCALL"
  | genericLoop => "TFORLOOP"
  | setList => "SETLIST"
  | closure => "CLOSURE"
  | vararg => "VARARG"
  | varargPrep => "VARARGPREP"
  | extraArg => "EXTRAARG"

/-- The opcode of a mnemonic. -/
def ofMnemonic? (s : String) : Option Opcode := all.find? fun op => op.mnemonic == s

/-! ## Static properties -/

/-- The layout of the operands. -/
def format : Opcode → Format
  | loadK | loadKX | forLoop | forPrep | genericPrep | genericLoop | closure => .iABx
  | loadI | loadF => .iAsBx
  | extraArg => .iAx
  | jump => .isJ
  | _ => .iABC

/-- Whether register A is written. -/
def writesA : Opcode → Bool
  | setUpvalue | setTabUp | setTable | setI | setField | eventBin | eventBinI | eventBinK
  | close | toBeClosed | jump | eq | lt | le | eqK | eqI | ltI | leI | gtI | geI | test | ret
  | return0 | return1 | genericPrep | genericCall | setList | extraArg => false
  | _ => true

/-- Whether the instruction is a test, so that a jump follows. -/
def isTest : Opcode → Bool
  | eq | lt | le | eqK | eqI | ltI | leI | gtI | geI | test | testSet => true
  | _ => false

/-- Whether the stack top left by the instruction before may be used. -/
def usesTop : Opcode → Bool
  | call | tailCall | ret | setList | varargPrep => true
  | _ => false

/-- Whether the stack top may be set for the next instruction. -/
def leavesTop : Opcode → Bool
  | call | tailCall | vararg => true
  | _ => false

/-- Whether the instruction runs a metamethod on behalf of the one before. -/
def isFollowUp : Opcode → Bool
  | eventBin | eventBinI | eventBinK => true
  | _ => false

end Opcode

end VmInspect
