import VmInspect.Bytecode.Instruction

/-!
# Words and instructions are one to one

A format says which operands lie in a word beside the opcode, and in which range each of them is.
This file proves that nothing is lost on the way into a word and back:

* `Instruction.laidOut_word` — every operand is read off its own bits of the word.
* `Instruction.ofWord?_word`, `Instruction.word_of_ofWord?` — reading a word and writing one are
  inverse to each other.
* `Instruction.encoding_one_to_one` — the words that are accepted are the words of the opcodes with
  the operands of their formats, each of them in one way.
-/

namespace VmInspect

/-! ## Numbers of opcodes -/

namespace Opcode

theorem number_lt (op : Opcode) : op.number < all.size :=
  (Array.getElem?_eq_some_iff.1 (ofNumber?_number op)).1

theorem number_of_ofNumber? {n : Nat} {op : Opcode} (h : ofNumber? n = some op) :
    op.number = n := by
  have hall : ∀ i : Fin all.size, all[i].number = i := by decide
  obtain ⟨hn, rfl⟩ := Array.getElem?_eq_some_iff.1 h
  exact hall ⟨n, hn⟩

/-- A number belongs to no opcode when it is past the last one. -/
theorem ofNumber?_eq_none_iff {n : Nat} : ofNumber? n = none ↔ all.size ≤ n :=
  Array.getElem?_eq_none_iff

end Opcode

namespace Instruction

/-! ## Operands in their ranges -/

theorem a_lt (i : Instruction) : i.a < 256 := i.byteA.toNat_lt

theorem b_lt (i : Instruction) : i.b < 256 := i.byteB.toNat_lt

theorem c_lt (i : Instruction) : i.c < 256 := i.byteC.toNat_lt

theorem bx_lt (i : Instruction) : i.bx < bxRange := by
  have hb := i.b_lt
  have hc := i.c_lt
  have hk := i.k.toNat_lt
  rw [bx, bxRange]
  omega

theorem ax_lt (i : Instruction) : i.ax < axRange := by
  have ha := i.a_lt
  have hbx := i.bx_lt
  rw [bxRange] at hbx
  rw [ax, axRange]
  omega

/-- A wide operand is taken modulo its range. -/
theorem bx_abx (op : Opcode) (a : UInt8) (n : Nat) : (abx op a n).bx = n % bxRange := by
  have hk : (n % 2 == 1).toNat = n % 2 := by
    rcases Nat.mod_two_eq_zero_or_one n with h | h <;> rw [h] <;> rfl
  simp only [bx, abx, b, c, bxRange, hk, UInt8.toNat_ofNat']
  omega

theorem ax_ofAx (op : Opcode) (n : Nat) : (ofAx op n).ax = n % axRange := by
  rw [ax, ofAx, bx_abx]
  simp only [a, abx, axRange, bxRange, UInt8.toNat_ofNat']
  omega

/-- The opcode, A and Bx make up the instruction. -/
theorem abx_bx (i : Instruction) : abx i.opcode i.byteA i.bx = i := by
  have hb := i.b_lt
  have hc := i.c_lt
  have hk : (i.bx % 2 == 1) = i.k := by
    rw [bx]
    cases i.k with
    | false => simp only [Bool.toNat_false, beq_eq_false_iff_ne]; omega
    | true => simp only [Bool.toNat_true, beq_iff_eq]; omega
  have hbyteB : UInt8.ofNat (i.bx / 2) = i.byteB := by
    refine UInt8.toNat_inj.1 ?_
    have := i.k.toNat_lt
    rw [UInt8.toNat_ofNat', ← b, bx]
    omega
  have hbyteC : UInt8.ofNat (i.bx / 512) = i.byteC := by
    refine UInt8.toNat_inj.1 ?_
    have := i.k.toNat_lt
    rw [UInt8.toNat_ofNat', ← c, bx]
    omega
  rw [abx, hk, hbyteB, hbyteC]

/-- So do the opcode and Ax. -/
theorem ofAx_ax (i : Instruction) : ofAx i.opcode i.ax = i := by
  have ha := i.a_lt
  have hbyteA : UInt8.ofNat i.ax = i.byteA := by
    refine UInt8.toNat_inj.1 ?_
    rw [UInt8.toNat_ofNat', ← a, ax]
    omega
  have hbx : i.ax / 256 = i.bx := by
    rw [ax]
    omega
  rw [ofAx, hbyteA, hbx, abx_bx]

/-! ## The bits of a word -/

/-- The number in some bits of a word, from the lowest of them on. -/
def field (w : UInt32) (low width : Nat) : Nat := w.toNat >>> low &&& (1 <<< width - 1)

theorem field_eq (w : UInt32) (low width : Nat) :
    field w low width = w.toNat >>> low % 1 <<< width := by
  rw [field, Nat.one_shiftLeft, Nat.and_two_pow_sub_one_eq_mod]

/-- A word holds an instruction: the number of the opcode and every operand stand in bits of their
own, and those of the wide operands are the bits of the narrow ones that they are made of. -/
structure LaidOut (w : UInt32) (i : Instruction) : Prop where
  opcode : field w 0 7 = i.opcode.number
  a : field w 7 8 = i.a
  k : field w 15 1 = i.k.toNat
  b : field w 16 8 = i.b
  c : field w 24 8 = i.c
  bx : field w 15 17 = i.bx
  ax : field w 7 25 = i.ax

theorem toNat_word (i : Instruction) : i.word.toNat = i.opcode.number + 128 * i.ax := by
  have hop : i.opcode.number < 83 := i.opcode.number_lt
  have hax := i.ax_lt
  rw [axRange] at hax
  rw [word, UInt32.toNat_ofNat']
  omega

theorem laidOut_word (i : Instruction) : LaidOut i.word i := by
  have hop : i.opcode.number < 83 := i.opcode.number_lt
  have ha := i.a_lt
  have hb := i.b_lt
  have hc := i.c_lt
  have hk := i.k.toNat_lt
  constructor <;> rw [field_eq, toNat_word] <;>
    simp only [ax, bx, Nat.shiftRight_eq_div_pow, Nat.one_shiftLeft] <;> omega

/-- A word that was written is read back. -/
theorem ofWord?_word (i : Instruction) : ofWord? i.word = some i := by
  have hop : i.opcode.number < 83 := i.opcode.number_lt
  have hnumber : i.word.toNat % 128 = i.opcode.number := by
    rw [toNat_word]
    omega
  have hax : i.word.toNat / 128 = i.ax := by
    rw [toNat_word]
    omega
  rw [ofWord?, hnumber, hax, Opcode.ofNumber?_number, Option.map_some, ofAx_ax]

/-- A word that is read is the word of what is read. -/
theorem word_of_ofWord? {w : UInt32} {i : Instruction} (h : ofWord? w = some i) : i.word = w := by
  obtain ⟨op, hop, rfl⟩ := Option.map_eq_some_iff.1 h
  refine UInt32.toNat_inj.1 ?_
  have hw := w.toNat_lt
  have hnumber : (ofAx op (w.toNat / 128)).opcode.number = w.toNat % 128 :=
    Opcode.number_of_ofNumber? hop
  rw [toNat_word, hnumber, ax_ofAx, axRange]
  omega

/-- The words that are refused are those without the number of an opcode. -/
theorem ofWord?_eq_none_iff {w : UInt32} : ofWord? w = none ↔ Opcode.all.size ≤ field w 0 7 := by
  rw [ofWord?, Option.map_eq_none_iff, Opcode.ofNumber?_eq_none_iff, field_eq]
  simp

/-! ## Operands by format -/

/-- The operands of a format, each of them in its range. -/
inductive Operands : Format → Type where
  | abck (a b c : UInt8) (k : Bool) : Operands .iABC
  | abx (a : UInt8) (bx : Fin 131072) : Operands .iABx
  | asbx (a : UInt8) (sbx : { n : Int // -65535 ≤ n ∧ n ≤ 65536 }) : Operands .iAsBx
  | ax (ax : Fin 33554432) : Operands .iAx
  | jump (distance : { n : Int // -16777215 ≤ n ∧ n ≤ 16777216 }) : Operands .isJ

/-- The instruction of an opcode with some operands. -/
def Operands.instruction (op : Opcode) : {f : Format} → Operands f → Instruction
  | _, .abck a b c k => Instruction.abck op a b c k
  | _, .abx a n => Instruction.abx op a n
  | _, .asbx a n => Instruction.asbx op a n
  | _, .ax n => Instruction.ofAx op n
  | _, .jump n => Instruction.ofJumpDistance op n

/-- The word of an opcode with some operands. -/
def Operands.encode (op : Opcode) {f : Format} (o : Operands f) : UInt32 := (o.instruction op).word

theorem signedBx_mem (i : Instruction) : -65535 ≤ i.signedBx ∧ i.signedBx ≤ 65536 := by
  have := i.bx_lt
  rw [bxRange] at this
  rw [signedBx, bxBias]
  omega

theorem jumpDistance_mem (i : Instruction) :
    -16777215 ≤ i.jumpDistance ∧ i.jumpDistance ≤ 16777216 := by
  have := i.ax_lt
  rw [axRange] at this
  rw [jumpDistance, jumpBias]
  omega

/-- The operands that a format reads. -/
def operands (i : Instruction) : (f : Format) → Operands f
  | .iABC => .abck i.byteA i.byteB i.byteC i.k
  | .iABx => .abx i.byteA ⟨i.bx, i.bx_lt⟩
  | .iAsBx => .asbx i.byteA ⟨i.signedBx, i.signedBx_mem⟩
  | .iAx => .ax ⟨i.ax, i.ax_lt⟩
  | .isJ => .jump ⟨i.jumpDistance, i.jumpDistance_mem⟩

theorem opcode_instruction (op : Opcode) {f : Format} (o : Operands f) :
    (o.instruction op).opcode = op := by
  cases o <;> rfl

/-- What was put in is read out, also with an opcode of another format. -/
theorem operands_instruction (op : Opcode) {f : Format} (o : Operands f) :
    (o.instruction op).operands f = o := by
  cases o with
  | abck a b c k => rfl
  | abx a bx =>
    have hbx : (Instruction.abx op a bx).bx = bx := by
      rw [bx_abx]
      exact Nat.mod_eq_of_lt bx.isLt
    exact congrArg (Operands.abx a) (Fin.ext hbx)
  | asbx a sbx =>
    have hsbx : (Instruction.asbx op a sbx).signedBx = sbx := by
      have := sbx.property
      simp only [signedBx, asbx, bx_abx, bxBias, bxRange]
      omega
    exact congrArg (Operands.asbx a) (Subtype.ext hsbx)
  | ax ax =>
    have hax : (Instruction.ofAx op ax).ax = ax := by
      rw [ax_ofAx]
      exact Nat.mod_eq_of_lt ax.isLt
    exact congrArg Operands.ax (Fin.ext hax)
  | jump distance =>
    have hdistance : (Instruction.ofJumpDistance op distance).jumpDistance = distance := by
      have := distance.property
      simp only [jumpDistance, ofJumpDistance, ax_ofAx, jumpBias, axRange]
      omega
    exact congrArg Operands.jump (Subtype.ext hdistance)

/-- The operands of any one format, with the opcode, make up the instruction. -/
theorem instruction_operands (i : Instruction) (f : Format) :
    (i.operands f).instruction i.opcode = i := by
  cases f with
  | iABC => rfl
  | iABx => exact i.abx_bx
  | iAsBx =>
    have hbx : ((i.signedBx + bxBias) % bxRange).toNat = i.bx := by
      have := i.bx_lt
      rw [bxRange] at this
      simp only [signedBx, bxBias, bxRange]
      omega
    show asbx i.opcode i.byteA i.signedBx = i
    rw [asbx, hbx, abx_bx]
  | iAx => exact i.ofAx_ax
  | isJ =>
    have hax : ((i.jumpDistance + jumpBias) % axRange).toNat = i.ax := by
      have := i.ax_lt
      rw [axRange] at this
      simp only [jumpDistance, jumpBias, axRange]
      omega
    show ofJumpDistance i.opcode i.jumpDistance = i
    rw [ofJumpDistance, hax, ofAx_ax]

/-! ## Encoding -/

/-- **Words and instructions are one to one.**  The word of an opcode with any operands of its format
is accepted, and what is read from it is that opcode and those operands, each in its own bits.  A
word that is accepted is the word of its opcode with the operands that the format reads.  Every word
without the number of an opcode is refused. -/
theorem encoding_one_to_one :
    (∀ (op : Opcode) (o : Operands op.format), ∃ i, ofWord? (o.encode op) = some i ∧
      i.opcode = op ∧ i.operands op.format = o ∧ LaidOut (o.encode op) i) ∧
    (∀ w i, ofWord? w = some i → (i.operands i.opcode.format).encode i.opcode = w) ∧
    ∀ w, ofWord? w = none ↔ Opcode.all.size ≤ field w 0 7 := by
  refine ⟨fun op o => ?_, fun w i h => ?_, fun w => ofWord?_eq_none_iff⟩
  · exact ⟨o.instruction op, ofWord?_word _, opcode_instruction op o, operands_instruction op o,
      laidOut_word _⟩
  · rw [Operands.encode, instruction_operands]
    exact word_of_ofWord? h

/-- The ends of the signed ranges, in words that differ in the bits of Bx and of Ax only, and the first
number that belongs to no opcode. -/
theorem encoding_one_to_one_ends :
    (∃ i, ofWord? 0x00007f81 = some i ∧ i.opcode = .loadI ∧
      i.operands .iAsBx = .asbx 255 ⟨-65535, by decide⟩) ∧
    (∃ i, ofWord? 0xffffff81 = some i ∧ i.opcode = .loadI ∧
      i.operands .iAsBx = .asbx 255 ⟨65536, by decide⟩) ∧
    (∃ i, ofWord? 0x00000038 = some i ∧ i.opcode = .jump ∧
      i.operands .isJ = .jump ⟨-16777215, by decide⟩) ∧
    (((abck .test 255 255 255 true).operands .iABC).encode .test = 0xffffffc2) ∧
    ofWord? 0xffffffd3 = none := by
  obtain ⟨hencode, hdecode, hrefused⟩ := encoding_one_to_one
  obtain ⟨i, hi, hop, hoperands, -⟩ := hencode .loadI (.asbx 255 ⟨-65535, by decide⟩)
  obtain ⟨j, hj, hop', hoperands', -⟩ := hencode .loadI (.asbx 255 ⟨65536, by decide⟩)
  obtain ⟨k, hk, hop'', hoperands'', -⟩ := hencode .jump (.jump ⟨-16777215, by decide⟩)
  exact ⟨⟨i, hi, hop, hoperands⟩, ⟨j, hj, hop', hoperands'⟩, ⟨k, hk, hop'', hoperands''⟩,
    hdecode 0xffffffc2 (abck .test 255 255 255 true) rfl, (hrefused _).2 (by decide)⟩

end Instruction

end VmInspect
