import VmInspect.Proofs.Thread.Leftovers
import VmInspect.Proofs.Thread.Temporaries

/-!
# Writing and reading variables

To write a variable takes the new value from the top of the stack, and to read one puts its value
there, so both move the end of the current call's temporary values.  A debugger writes variables of any
call in progress, and the slot that is written may be anything from an extra argument below the function
to a register above the top.  It is never one that the lookup itself depends on:

* `Machine.Stacked.func_le_current` — no function in progress stands above the current one.
* `Machine.Stacked.slot_ne_func` — a variable is not in the slot of its function.
* `Machine.local?_of_same` — a variable is found again if its function is, and the end of the variables
  has not been lowered past it.
* `Machine.readLocal_writeLocal` — so a variable that is written reads as what was written, and nothing
  but its slot and the slot of the value has changed.

The slots of other functions may be written.  What is found of a call depends on its own function and on
where the next one stands, not on whether that one is still there.
-/

namespace VmInspect

namespace Machine

variable {m m' : Machine} {entries : List Nat} {id slot : Nat} {n : Int} {name : String} {f : Frame}

/-! ## Where functions stand -/

/-- The frames stand one above the other: each function above the one that called it, with its extra
arguments below it. -/
structure Stacked (m : Machine) : Prop where
  base_le : ∀ id f g, m.frame? id = some f → m.frame? (id + 1) = some g → f.base ≤ g.func
  extra_le : ∀ id f, m.frame? id = some f → f.extraArgs ≤ f.func

/-- Functions that were called from above their callers are stacked. -/
theorem Placed.stacked (h : m.Placed entries) (hup : m.CallsUpwards entries) : m.Stacked := by
  have hentry : ∀ id f, m.frame? id = some f →
      ∃ entry, entries[id]? = some entry ∧ f.StandsOn entry := by
    intro id f hf
    have hlt : id < entries.length := by
      rw [h.length]
      exact (Array.getElem?_eq_some_iff.1 hf).1
    have hat := List.getElem?_eq_getElem hlt
    exact ⟨_, hat, h.stands id f _ hf hat⟩
  refine ⟨?_, ?_⟩
  · intro id f g hf hg
    obtain ⟨entry, hat, hstands⟩ := hentry (id + 1) g hg
    have hless := hup id f entry hf hat
    have hle := hstands.le
    rw [Frame.base]
    omega
  · intro id f hf
    obtain ⟨entry, -, hstands⟩ := hentry id f hf
    have hextra := hstands.extra
    omega

/-- The frame after a frame is there, up to the current one. -/
theorem exists_frame_of_le_currentId (hf : m.frame? id = some f) {other : Nat} (hle : other ≤ m.currentId) :
    ∃ g, m.frame? other = some g := by
  have hlt : id < m.frames.size := (Array.getElem?_eq_some_iff.1 hf).1
  have hother : other < m.frames.size := by
    rw [currentId] at hle
    omega
  exact ⟨_, Array.getElem?_eq_getElem hother⟩

theorem le_currentId (hf : m.frame? id = some f) : id ≤ m.currentId := by
  have hlt : id < m.frames.size := (Array.getElem?_eq_some_iff.1 hf).1
  rw [currentId]
  omega

/-- No function in progress stands above the current one. -/
theorem Stacked.func_le_current (h : m.Stacked) (hf : m.frame? id = some f) :
    f.func ≤ m.current.func := by
  have hchain : ∀ other, id ≤ other → other ≤ m.currentId → ∀ g, m.frame? other = some g →
      f.func ≤ g.func := by
    intro other hle
    induction hle with
    | refl =>
      intro _ g hg
      obtain rfl := Option.some.inj (hf.symm.trans hg)
      exact Nat.le_refl _
    | @step other hle ih =>
      intro hlast g hg
      obtain ⟨e, he⟩ := exists_frame_of_le_currentId hf (Nat.le_of_succ_le hlast)
      have hbelow := ih (Nat.le_of_succ_le hlast) e he
      have habove := h.base_le other e g he hg
      rw [Frame.base] at habove
      omega
  obtain ⟨g, hg⟩ := exists_frame_of_le_currentId hf (Nat.le_refl m.currentId)
  rw [current_eq hg]
  exact hchain m.currentId (le_currentId hf) (Nat.le_refl _) g hg

/-- A variable is not in the slot of its function. -/
theorem Stacked.slot_ne_func (h : m.Stacked) (hf : m.frame? id = some f)
    (hlocal : m.local? id n = some (name, slot)) : slot ≠ f.func := by
  rcases slot_cases hf hlocal with ⟨hn, hin, rfl⟩ | ⟨hn, rfl⟩
  · have hbelow := h.extra_le id f hf
    omega
  · rw [Frame.base]
    omega

/-! ## Finding a variable again -/

/-- A variable is found again if its function is, and the end of the variables has not been lowered
past it. -/
theorem local?_of_same (hframes : m'.frames = m.frames) (hproto : m'.frameProto? id = m.frameProto? id)
    (hend : slot < m.localsEnd id → slot < m'.localsEnd id)
    (hlocal : m.local? id n = some (name, slot)) : m'.local? id n = some (name, slot) := by
  obtain ⟨f, hf, -⟩ := Option.bind_eq_some_iff.1 hlocal
  have hf' : m'.frame? id = some f := by
    rw [frame?, hframes]
    exact hf
  by_cases hn : n < 0
  · have hslot : m'.varargSlot? id n = m.varargSlot? id n := by
      rw [varargSlot?, varargSlot?, hproto, frameAt, frameAt, hframes]
    rw [local?, hf', hproto, hslot]
    rw [local?, hf] at hlocal
    simp only [Option.bind_some, hn, decide_true, if_true] at hlocal ⊢
    exact hlocal
  · have hnonneg := Int.not_lt.1 hn
    rw [local?_of_nonneg hf hnonneg] at hlocal
    rw [local?_of_nonneg hf' hnonneg, hproto]
    split at hlocal
    · rename_i hknown
      have hdeclared : m'.declaredName? f id n.toNat = m.declaredName? f id n.toNat := by
        rw [declaredName?, declaredName?, hproto]
      rw [if_pos hknown]
      rw [registerName?] at hlocal ⊢
      rw [hdeclared]
      cases hname : m.declaredName? f id n.toNat with
      | some declared =>
        rw [hname] at hlocal
        exact hlocal
      | none =>
        rw [hname] at hlocal
        simp only at hlocal ⊢
        split at hlocal
        · rename_i hin
          obtain ⟨-, rfl⟩ := Prod.mk.inj (Option.some.inj hlocal)
          have hless := hend (by omega)
          rw [if_pos ⟨hin.1, by omega⟩]
          exact hlocal
        · cases hlocal
    · cases hlocal

/-! ## Writing -/

@[simp] theorem functions_drop (m : Machine) : m.drop.functions = m.functions := by
  unfold drop
  split
  · rfl
  · rfl

/-- Taking the value on top away changes nothing but the stack. -/
theorem drop_eq (m : Machine) : m.drop = { m with stack := m.drop.stack, top := m.drop.top } := by
  unfold drop
  split
  · rfl
  · rfl

/-- The value that is written comes from the top, and every other slot is left alone. -/
theorem slot_setSlot_drop (m : Machine) (slot i : Nat) (v : Value) :
    (m.drop.setSlot slot v).slot i =
      if slot = i then v else if i + 1 = m.top then .nil else m.slot i := by
  rw [slot_setSlot, slot_drop]

/-- A variable that has been written is found where it was. -/
theorem Stacked.local?_setSlot_drop (h : m.Stacked) (hlocal : m.local? id n = some (name, slot))
    (habove : m.current.func + 1 < m.top) (hne : slot + 1 ≠ m.top) (v : Value) :
    (m.drop.setSlot slot v).local? id n = some (name, slot) := by
  obtain ⟨f, hf, -⟩ := Option.bind_eq_some_iff.1 hlocal
  have hframes : (m.drop.setSlot slot v).frames = m.frames := m.frames_drop
  have hframe : (m.drop.setSlot slot v).frame? id = m.frame? id := by
    rw [frame?, hframes, frame?]
  have hfunc : (m.drop.setSlot slot v).slot f.func = m.slot f.func := by
    have hle := h.func_le_current hf
    rw [slot_setSlot_drop, if_neg (h.slot_ne_func hf hlocal), if_neg (by omega)]
  have hfunctions : (m.drop.setSlot slot v).functions = m.functions := m.functions_drop
  refine local?_of_same hframes ?_ ?_ hlocal
  · rw [frameProto?, frameProto?, frameFunction?_eq, frameFunction?_eq, hframe, hf, Option.bind_some,
      Option.bind_some, hfunc, function?_congr hfunctions]
  · intro hin
    have htop : (m.drop.setSlot slot v).top = m.top - 1 := m.top_drop
    rw [localsEnd] at hin ⊢
    rw [currentId, hframes, ← currentId, frame?, hframes, ← frame?, htop]
    by_cases hid : id = m.currentId
    · rw [if_pos hid] at hin ⊢
      omega
    · -- the variables of a suspended call end at a frame, which is left alone
      have hlt : id + 1 ≤ m.currentId := by
        have hle := le_currentId hf
        omega
      obtain ⟨g, hg⟩ := exists_frame_of_le_currentId hf hlt
      rw [if_neg hid, hg] at hin ⊢
      exact hin

/-- **Writing then reading a variable.**  The frames of a machine stand one above the other, and a value
lies on top of the stack, above the function of the current call.

* Where the lookup gives a name and a slot, other than that of the value, writing the variable gives the
  name and takes the value off the stack.  The variable's slot has the value then, the one it came from is
  cleared, and no other slot has changed, nor anything but the stack.  Reading the variable right after
  gives the same name and puts the value on top.
* Where the lookup gives nothing, neither does anything. -/
theorem readLocal_writeLocal (hstacked : m.Stacked) (id : Nat) (n : Int) :
    (∀ name slot, m.local? id n = some (name, slot) → m.current.func + 1 < m.top →
      slot + 1 ≠ m.top →
        ∃ m', m.writeLocal id n = (some name, m') ∧ m'.top + 1 = m.top ∧
          m'.slot slot = m.topValue ∧ m'.slot m'.top = .nil ∧
          (∀ i, i ≠ slot → i + 1 ≠ m.top → m'.slot i = m.slot i) ∧
          m' = { m with stack := m'.stack, top := m'.top } ∧
          m'.readLocal id n = (some name, m'.push m.topValue)) ∧
      (m.local? id n = none → m.writeLocal id n = (none, m) ∧ m.readLocal id n = (none, m)) := by
  refine ⟨?_, ?_⟩
  · intro name slot hlocal habove hne
    have htop : (m.drop.setSlot slot m.topValue).top = m.top - 1 := m.top_drop
    have hwritten : (m.drop.setSlot slot m.topValue).slot slot = m.topValue := by
      rw [slot_setSlot_drop, if_pos rfl]
    refine ⟨m.drop.setSlot slot m.topValue, ?_, ?_, hwritten, ?_, ?_, ?_, ?_⟩
    · rw [writeLocal, hlocal]
    · rw [htop]
      omega
    · rw [slot_setSlot_drop, htop, if_neg (by omega), if_pos (by omega)]
    · intro i hother hlast
      rw [slot_setSlot_drop, if_neg (Ne.symm hother), if_neg hlast]
    · rw [setSlot, drop_eq]
      rfl
    · rw [readLocal, hstacked.local?_setSlot_drop hlocal habove hne]
      simp only [hwritten]
  · intro hnone
    rw [writeLocal, readLocal, hnone]
    exact ⟨rfl, rfl⟩

end Machine

namespace Thread

/-- A thread in which functions are called upwards has its frames one above the other. -/
theorem Calling.stacked {H W : Type} {run : Callback H W} {t : Thread H W} {entries : List Nat}
    (hrun : KeepsPlaces run) (h : Calling run t entries) (hup : t.CallsUpwards entries) : t.Stacked :=
  (h.placed hrun).stacked hup

/-- A function that keeps its extra arguments runs, with a value on top. -/
def writingCall : Thread Unit (List HookRecord) := gatheringCall.onMachine (·.push (.integer 10))

theorem stacked_writingCall : writingCall.Stacked := by
  have hcalling : Calling calm writingCall [0, 1, 2] := calling_gatheringCall.work (.of_frames_eq rfl)
  refine hcalling.stacked keepsPlaces_calm ?_
  have hup : ∀ id < 2, (writingCall.frameAt id).func < [0, 1, 2].getD (id + 1) 0 := by
    decide +kernel
  intro id f entry hf hentry
  have hid : id + 1 < 3 := (List.getElem?_eq_some_iff.1 hentry).1
  have hless := hup id (by omega)
  rw [Machine.frameAt_eq hf, List.getD_eq_getElem?_getD, hentry, Option.getD_some] at hless
  exact hless

/-- The extra argument is written by its own number, and by that of its caller's last temporary value.
Another number is that of nothing. -/
theorem readLocal_writeLocal_gathered :
    writingCall.Stacked ∧ writingCall.local? 2 (-1) = some ("(vararg)", 5) ∧
      writingCall.local? 1 4 = some ("(temporary)", 5) ∧ writingCall.local? 2 (-2) = none ∧
      writingCall.slot 5 = .integer 9 ∧
      (∃ m', writingCall.writeLocal 2 (-1) = (some "(vararg)", m') ∧ m'.slot 5 = .integer 10 ∧
        m'.readLocal 2 (-1) = (some "(vararg)", m'.push (.integer 10))) ∧
      (∃ m', writingCall.writeLocal 1 4 = (some "(temporary)", m') ∧ m'.slot 5 = .integer 10 ∧
        m'.readLocal 1 4 = (some "(temporary)", m'.push (.integer 10))) ∧
      writingCall.readLocal 2 (-2) = (none, writingCall.toMachine) := by
  have hextra : writingCall.local? 2 (-1) = some ("(vararg)", 5) := by decide +kernel
  have htemporary : writingCall.local? 1 4 = some ("(temporary)", 5) := by decide +kernel
  have hnothing : writingCall.local? 2 (-2) = none := by decide +kernel
  have hvalue : writingCall.topValue = .integer 10 := by decide +kernel
  have habove : writingCall.current.func + 1 < writingCall.top := by decide +kernel
  have hne : 5 + 1 ≠ writingCall.top := by decide +kernel
  refine ⟨stacked_writingCall, hextra, htemporary, hnothing, by decide +kernel, ?_, ?_, ?_⟩
  · obtain ⟨m', hwritten, -, hslot, -, -, -, hread⟩ :=
      (Machine.readLocal_writeLocal stacked_writingCall 2 (-1)).1 _ 5 hextra habove hne
    rw [hvalue] at hslot hread
    exact ⟨m', hwritten, hslot, hread⟩
  · obtain ⟨m', hwritten, -, hslot, -, -, -, hread⟩ :=
      (Machine.readLocal_writeLocal stacked_writingCall 1 4).1 _ 5 htemporary habove hne
    rw [hvalue] at hslot hread
    exact ⟨m', hwritten, hslot, hread⟩
  · exact ((Machine.readLocal_writeLocal stacked_writingCall 2 (-2)).2 hnothing).2

end Thread

end VmInspect
