import VmInspect.Bytecode.Event
import VmInspect.Naming.Name
import VmInspect.Naming.Setter

/-!
# Naming the value in a register

A value is named by the variable that its register holds or by the instruction that set the register:
a captured variable, a constant, or a field by its key.  A value that was moved from a lower register
is named by that register.  Where the setter is not certain there is no name.
-/

namespace VmInspect

/-- The outcome of looking for a name. -/
structure Finding where
  name : Option Name
  /-- the instruction that set the value, or the place itself for a variable -/
  setter : Option Nat
deriving DecidableEq, Repr, Inhabited

namespace Proto

/-! ## Names written in the prototype -/

/-- The name of a captured variable. -/
def upvalueName (p : Proto) (index : Nat) : String :=
  (p.upvalues[index]?.bind UpvalueInfo.name).getD Name.unknown

/-- The text of a string constant. -/
def constantName? (p : Proto) (index : Nat) : Option String := p.constants[index]?.bind Value.string?

/-- The key that a string constant spells. -/
def constantKey (p : Proto) (index : Nat) : String := (p.constantName? index).getD Name.unknown

/-! ## Variables and constants -/

/-- The name of what an instruction loads into its register, if that is a captured variable or a
string constant.  A constant with a long index has it in the next instruction. -/
def loadedName? (p : Proto) (pc : Nat) (i : Instruction) : Option Name :=
  match i.opcode with
  | .getUpvalue => some ⟨.upvalue, p.upvalueName i.b⟩
  | .loadK => (p.constantName? i.bx).map (Name.mk .constant)
  | .loadKX => (p.code[pc + 1]?.bind fun extra => p.constantName? extra.ax).map (Name.mk .constant)
  | _ => none

/-- The variable or constant in a register at a place, followed through moves from lower
registers. -/
def findObject (p : Proto) (pc register : Nat) : Finding :=
  match p.localName? (register + 1) pc with
  | some name => ⟨some ⟨.localVariable, name⟩, some pc⟩
  | none =>
    match p.findSetter? pc register with
    | none => ⟨none, none⟩
    | some setter =>
      match p.code[setter]? with
      | none => ⟨none, some setter⟩
      | some i =>
        if i.opcode = .move ∧ i.b < register then p.findObject setter i.b
        else ⟨p.loadedName? setter i, some setter⟩
termination_by register

/-! ## Fields -/

/-- The name of the captured variable that holds the globals. -/
def globalsName : String := "_ENV"

/-- The key in a register. Only a constant is a key that can be named. -/
def registerKey (p : Proto) (pc register : Nat) : String :=
  match (p.findObject pc register).name with
  | some ⟨.constant, name⟩ => name
  | _ => Name.unknown

/-- The variable that holds the table in a register. -/
def tableName? (p : Proto) (pc register : Nat) : Option String :=
  match (p.findObject pc register).name with
  | some ⟨.localVariable, name⟩ => some name
  | some ⟨.upvalue, name⟩ => some name
  | _ => none

/-- A field of the table with a name. -/
def fieldKind (table : Option String) : NameKind :=
  if table = some globalsName then .global else .field

/-- The name of the field that an instruction reads. -/
def fieldName? (p : Proto) (pc : Nat) (i : Instruction) : Option Name :=
  match i.opcode with
  | .getTabUp => some ⟨fieldKind (some (p.upvalueName i.b)), p.constantKey i.c⟩
  | .getTable => some ⟨fieldKind (p.tableName? pc i.b), p.registerKey pc i.c⟩
  | .getI => some ⟨.field, "integer index"⟩
  | .getField => some ⟨fieldKind (p.tableName? pc i.b), p.constantKey i.c⟩
  | .selfIndex =>
    some ⟨.method, if i.k then p.constantKey i.c else p.registerKey pc i.c⟩
  | _ => none

/-- The name of the value in a register just before the instruction at a place runs. -/
def describe? (p : Proto) (pc register : Nat) : Option Name :=
  let found := p.findObject pc register
  found.name <|> found.setter.bind fun setter => p.code[setter]?.bind (p.fieldName? setter)

/-! ## Called functions -/

/-- The event whose metamethod an instruction may call. -/
def eventOf? (i : Instruction) : Option Event :=
  match i.opcode with
  | .selfIndex | .getTabUp | .getTable | .getI | .getField => some .index
  | .setTabUp | .setTable | .setI | .setField => some .newIndex
  | .eventBin | .eventBinI | .eventBinK => Event.ofNumber? i.c
  | .negate => some .negate
  | .bitNot => some .bitNot
  | .length => some .len
  | .concat => some .concat
  | .eq => some .eq
  | .lt | .ltI | .gtI => some .lt
  | .le | .leI | .geI => some .le
  | .close | .ret => some .close
  | _ => none

/-- The name of the function that the instruction at a place calls. -/
def calledName? (p : Proto) (pc : Nat) : Option Name :=
  p.code[pc]?.bind fun i =>
    match i.opcode with
    | .call | .tailCall => p.describe? pc i.a
    | .genericCall => some ⟨.forIterator, "for iterator"⟩
    | _ => (eventOf? i).map fun e => ⟨.metamethod, e.name⟩

end Proto

end VmInspect
