import VmInspect.Bytecode.Instruction

/-!
# Listings of instructions

An instruction is listed as its mnemonic and the operands of its format; a set flag k is marked
behind the last operand.
-/

namespace VmInspect

namespace Instruction

/-- The operands of the format. -/
def operandText (i : Instruction) : String :=
  match i.opcode.format with
  | .iABC =>
    " ".intercalate [toString i.a, toString i.b, toString i.c] ++ (if i.k then "k" else "")
  | .iABx => toString i.a ++ " " ++ toString i.bx
  | .iAsBx => toString i.a ++ " " ++ toString i.signedBx
  | .iAx => toString i.ax
  | .isJ => toString i.jumpDistance

/-- The mnemonic and the operands. -/
def text (i : Instruction) : String := i.opcode.mnemonic ++ " " ++ i.operandText

/-- The word in eight hexadecimal digits. -/
def wordText (i : Instruction) : String :=
  let digits := Nat.toDigits 16 i.word.toNat
  "0x" ++ String.ofList (List.replicate (8 - digits.length) '0' ++ digits)

/-- The word beside the listing. -/
def inspect (i : Instruction) : String := "Instruction(" ++ i.wordText ++ ": " ++ i.text ++ ")"

end Instruction

end VmInspect
