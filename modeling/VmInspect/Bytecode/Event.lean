/-!
# Metamethod events

The operations that a metatable can take over, in the order of their numbers in instructions.
-/

namespace VmInspect

/-- An event that a metamethod handles. -/
inductive Event where
  | index | newIndex | gc | mode | len | eq | add | sub | mul | mod | pow | div | floorDiv | bitAnd
  | bitOr | bitXor | shiftLeft | shiftRight | negate | bitNot | lt | le | concat | call | close
deriving DecidableEq, Inhabited

namespace Event

/-- All events by number. -/
def all : Array Event := #[
  .index, .newIndex, .gc, .mode, .len, .eq, .add, .sub, .mul, .mod, .pow, .div, .floorDiv, .bitAnd,
  .bitOr, .bitXor, .shiftLeft, .shiftRight, .negate, .bitNot, .lt, .le, .concat, .call, .close]

/-- The number in instructions. -/
def number (e : Event) : Nat := e.ctorIdx

/-- The event of a number. -/
def ofNumber? (n : Nat) : Option Event := all[n]?

@[simp] theorem ofNumber?_number (e : Event) : ofNumber? e.number = some e := by
  cases e <;> rfl

/-- The name without the two underscores of its key. -/
def name : Event → String
  | index => "index"
  | newIndex => "newindex"
  | gc => "gc"
  | mode => "mode"
  | len => "len"
  | eq => "eq"
  | add => "add"
  | sub => "sub"
  | mul => "mul"
  | mod => "mod"
  | pow => "pow"
  | div => "div"
  | floorDiv => "idiv"
  | bitAnd => "band"
  | bitOr => "bor"
  | bitXor => "bxor"
  | shiftLeft => "shl"
  | shiftRight => "shr"
  | negate => "unm"
  | bitNot => "bnot"
  | lt => "lt"
  | le => "le"
  | concat => "concat"
  | call => "call"
  | close => "close"

/-- The key of the metamethod in a metatable. -/
def key (e : Event) : String := "__" ++ e.name

end Event

end VmInspect
