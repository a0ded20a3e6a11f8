import VmInspect.Proofs.Naming.Paths

/-!
# Which instruction is found from a place

The setter of a register is the last instruction in front of a place that writes the register,
unless a jump that ends at the place or before it goes over the instruction.  The search reads the
place with a sign when it compares it with the ends of jumps, so that from the upper half of all
places no jump seems to end before it.  This file says what the search finds from every place:

* `isSetter_iff_notJumpedOver` — what the search looks for is the setter, as long as the sign does
  not change the place.
* `notJumpedOver_of_upper` — from the upper half the search takes no instruction for jumped over.
* `findSetter?_exact_iff` — so it finds the setter exactly when the place is in the lower half, or
  no jump goes over the last write anyway.
-/

namespace VmInspect

/-- The number of places in the lower half. -/
def Place.half : Nat := 9223372036854775808

namespace Proto

variable {p : Proto} {last register pc s : Nat} {target : Int}

/-! ## Setters -/

/-- The instruction at a place is a jump to a target. -/
def JumpsTo (p : Proto) (pc : Nat) (target : Int) : Prop :=
  ∃ i, p.code[pc]? = some i ∧ i.opcode = .jump ∧ target = (pc : Int) + 1 + i.jumpDistance

/-- The setter of a register, as seen from a place: the last instruction in front of the place that
writes the register, where no jump in front of the instruction lands behind it and still not behind
the place. -/
structure IsSetter (p : Proto) (last register s : Nat) : Prop where
  lastWrite : p.LastWrite register last s
  notPassed : ∀ k < s, ∀ target, p.JumpsTo k target → target ≤ last → target ≤ s

/-- Jumps are known by their opcode. -/
theorem jumpAt?_eq_some_iff : p.jumpAt? pc = some target ↔ p.JumpsTo pc target := by
  constructor
  · intro h
    cases hi : p.code[pc]? with
    | none => simp [jumpAt?, hi] at h
    | some i =>
      by_cases hop : i.opcode = .jump
      · rw [jumpAt?_of_opcode hi hop] at h
        exact ⟨i, hi, hop, (Option.some.inj h).symm⟩
      · rw [jumpAt?_of_getElem? hi] at h
        simp only [Effect.ofInstruction] at h
        split at h
        case h_5 hjump => exact absurd hjump hop
        case h_6 => split at h <;> cases h
        all_goals cases h
  · rintro ⟨i, hi, hop, rfl⟩
    exact jumpAt?_of_opcode hi hop

/-! ## Places with a sign -/

/-- The search looks for the setter, as long as the place is its own number with a sign. -/
theorem isSetter_iff_notJumpedOver (hlast : Place.signed last = last) :
    p.IsSetter last register s ↔ p.LastWrite register last s ∧ p.NotJumpedOver last s := by
  rw [NotJumpedOver, hlast]
  constructor
  · rintro ⟨hwrite, hno⟩
    refine ⟨hwrite, fun k hk target hjump hle => ?_⟩
    exact hno k hk target (jumpAt?_eq_some_iff.1 hjump) hle
  · rintro ⟨hwrite, hno⟩
    refine ⟨hwrite, fun k hk target hjump hle => ?_⟩
    exact hno k hk target (jumpAt?_eq_some_iff.2 hjump) hle

/-- From the upper half no jump seems to end in front of the place, and none goes over anything. -/
theorem notJumpedOver_of_upper (hlow : Place.half ≤ last) (hlast : last < Place.count) (s : Nat) :
    p.NotJumpedOver last s := by
  intro k hk target hjump hle
  have hneg := Place.signed_neg hlow hlast
  omega

/-- The place that is about to run is not behind the place it is seen from. -/
theorem pendingPc_le (p : Proto) (q : Nat) : p.pendingPc q ≤ q := by
  rw [pendingPc]
  split
  · exact Nat.sub_le q 1
  · exact Nat.le_refl q

/-- From the lower half the search finds the setter, and nothing if there is none. -/
theorem findSetter?_of_lower {q : Nat} (hq : p.pendingPc q < Place.half) (register s : Nat) :
    p.findSetter? q register = some s ↔ p.IsSetter (p.pendingPc q) register s := by
  rw [findSetter?_eq_some_iff, isSetter_iff_notJumpedOver (Place.signed_of_lt hq)]

/-- From the upper half it finds the last write, whatever goes over it. -/
theorem findSetter?_of_upper {q : Nat} (hlow : Place.half ≤ p.pendingPc q) (hq : q < Place.count)
    (register s : Nat) :
    p.findSetter? q register = some s ↔ p.LastWrite register (p.pendingPc q) s := by
  rw [findSetter?_eq_some_iff]
  have hno := p.notJumpedOver_of_upper hlow (Nat.lt_of_le_of_lt (p.pendingPc_le q) hq) s
  exact and_iff_left hno

/-- **The setter is found, except from far places.**  The search from a place finds the setter of a
register, and nothing where there is none, exactly when the place whose instruction is about to run
is in the lower half of all places, or the last instruction that writes the register is its setter
anyway.  From the upper half the search also finds instructions that a jump goes over. -/
theorem findSetter?_exact_iff (p : Proto) {q : Nat} (hq : q < Place.count) (register : Nat) :
    (∀ s, p.findSetter? q register = some s ↔ p.IsSetter (p.pendingPc q) register s) ↔
      p.pendingPc q < Place.half ∨
        ∀ s, p.LastWrite register (p.pendingPc q) s → p.IsSetter (p.pendingPc q) register s := by
  rcases Nat.lt_or_ge (p.pendingPc q) Place.half with hlow | hup
  · exact iff_of_true (findSetter?_of_lower hlow register) (Or.inl hlow)
  · constructor
    · intro hexact
      refine Or.inr fun s hwrite => ?_
      exact (hexact s).1 ((findSetter?_of_upper hup hq register s).2 hwrite)
    · rintro (hlow | hset)
      · omega
      · intro s
        rw [findSetter?_of_upper hup hq]
        exact ⟨hset s, IsSetter.lastWrite⟩

/-- A register is set, and set again by an instruction that a jump goes over. -/
def bypassProto : Proto where
  maxStack := 2
  code := #[
    .asbx .loadI 0 1, .ofJumpDistance .jump 1, .asbx .loadI 0 2, .abc .return0 0 0 0]

/-- The second write is behind the jump's target for every place in front of it, and jumped over for
the places from the target on, up to the middle of all places. -/
theorem findSetter?_exact_iff_bypass :
    bypassProto.findSetter? 2 0 = some 0 ∧ bypassProto.findSetter? 3 0 = none ∧
      bypassProto.findSetter? 9223372036854775807 0 = none ∧ bypassProto.IsSetter 2 0 0 ∧
      ¬ ∃ s, bypassProto.IsSetter 9223372036854775807 0 s := by
  have hnear : bypassProto.findSetter? 2 0 = some 0 := by decide
  have hfar : bypassProto.findSetter? 9223372036854775807 0 = none := by decide
  have hlast : 9223372036854775807 < Place.count := by decide
  refine ⟨hnear, by decide, hfar, ?_, ?_⟩
  · exact ((findSetter?_exact_iff bypassProto (by decide) 0).2 (Or.inl (by decide)) 0).1 hnear
  · rintro ⟨s, hset⟩
    have hfound := ((findSetter?_exact_iff bypassProto hlast 0).2 (Or.inl (by decide)) s).2 hset
    rw [hfar] at hfound
    cases hfound

/-- From the middle of all places on the second write is found, although the jump goes over it. -/
theorem bypassed_write_found :
    bypassProto.findSetter? Place.half 0 = some 2 ∧ bypassProto.JumpsTo 1 3 ∧
      ¬ bypassProto.IsSetter (bypassProto.pendingPc Place.half) 0 2 := by
  have hjump : bypassProto.JumpsTo 1 3 := ⟨_, rfl, rfl, rfl⟩
  refine ⟨by decide, hjump, fun hset => ?_⟩
  have hle := hset.notPassed 1 (by decide) 3 hjump (by decide)
  omega

end Proto

end VmInspect
