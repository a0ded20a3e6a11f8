import VmInspect.Machine.Calls

/-!
# Frames and what is seen of them

This file has the laws of frame changes, and says when two machines are the same for a program:

* `Machine.frame?_modifyFrame` — a change of a frame is seen in that frame only.
* `Machine.enterScript_frame` — a function that is called runs from its first instruction on.
* `Machine.Undisturbed` — two machines have the same values and frames, apart from what is noted in
  a frame while an event is reported.
* `Machine.Undisturbed.frameProto?` — the frames of such machines run the same functions.
* `Machine.frameProto?_adjustVarargs` — a frame whose extra arguments are set apart runs the
  function that it ran before, or no function when there are too few arguments.
-/

namespace VmInspect

namespace Machine

/-! ## Changes of frames -/

@[simp] theorem frames_growTo (m : Machine) (size : Nat) : (m.growTo size).frames = m.frames := rfl

@[simp] theorem functions_growTo (m : Machine) (size : Nat) :
    (m.growTo size).functions = m.functions := rfl

@[simp] theorem frames_push (m : Machine) (v : Value) : (m.push v).frames = m.frames := rfl

@[simp] theorem functions_push (m : Machine) (v : Value) :
    (m.push v).functions = m.functions := rfl

@[simp] theorem slot_modifyFrame (m : Machine) (id : Nat) (change : Frame → Frame) (i : Nat) :
    (m.modifyFrame id change).slot i = m.slot i := rfl

@[simp] theorem functions_modifyFrame (m : Machine) (id : Nat) (change : Frame → Frame) :
    (m.modifyFrame id change).functions = m.functions := rfl

/-- A change of a frame is seen in that frame only. -/
theorem frame?_modifyFrame (m : Machine) (id j : Nat) (change : Frame → Frame) :
    (m.modifyFrame id change).frame? j = if id = j then (m.frame? j).map change else m.frame? j := by
  rw [frame?, modifyFrame, Array.getElem?_modify, frame?]

@[simp] theorem frame?_modifyFrame_self (m : Machine) (id : Nat) (change : Frame → Frame) :
    (m.modifyFrame id change).frame? id = (m.frame? id).map change := by
  rw [frame?_modifyFrame, if_pos rfl]

/-- A change leaves alone what it does not change of a frame. -/
theorem map_frames_modifyFrame {α : Type} (m : Machine) (id : Nat) {change : Frame → Frame}
    {view : Frame → α} (hchange : ∀ f, view (change f) = view f) :
    (m.modifyFrame id change).frames.map view = m.frames.map view := by
  refine Array.ext_getElem? fun other => ?_
  have hframe := m.frame?_modifyFrame id other change
  rw [frame?, frame?] at hframe
  rw [Array.getElem?_map, Array.getElem?_map, hframe]
  split
  · rw [Option.map_map]
    exact congrArg (Option.map · _) (funext hchange)
  · rfl

@[simp] theorem currentId_modifyFrame (m : Machine) (id : Nat) (change : Frame → Frame) :
    (m.modifyFrame id change).currentId = m.currentId := by
  rw [currentId, modifyFrame, Array.size_modify, currentId]

/-- Two machines with the same frames, and the same of everything else, are the same. -/
theorem eq_of_frame? {m m' : Machine} (hsize : m.frames.size = m'.frames.size)
    (hframe : ∀ id, m.frame? id = m'.frame? id) (hrest : { m with frames := m'.frames } = m') :
    m = m' := by
  have hframes : m.frames = m'.frames := by
    refine Array.ext hsize fun id h h' => ?_
    have hid := hframe id
    rw [frame?, frame?, Array.getElem?_eq_getElem h, Array.getElem?_eq_getElem h'] at hid
    exact Option.some.inj hid
  rw [← hrest, ← hframes]

/-- Two changes of a frame are one change. -/
theorem modifyFrame_modifyFrame (m : Machine) (id : Nat) (f g : Frame → Frame) :
    (m.modifyFrame id f).modifyFrame id g = m.modifyFrame id fun frame => g (f frame) := by
  refine eq_of_frame? ?_ (fun j => ?_) rfl
  · simp only [modifyFrame, Array.size_modify]
  · rw [frame?_modifyFrame, frame?_modifyFrame, frame?_modifyFrame]
    split
    · rw [Option.map_map]
      rfl
    · rfl

/-- Changes that come to the same for the frame as it is come to the same. -/
theorem modifyFrame_congr {m : Machine} {id : Nat} {f g : Frame → Frame}
    (h : ∀ frame, m.frame? id = some frame → f frame = g frame) :
    m.modifyFrame id f = m.modifyFrame id g := by
  refine eq_of_frame? ?_ (fun j => ?_) rfl
  · simp only [modifyFrame, Array.size_modify]
  · rw [frame?_modifyFrame, frame?_modifyFrame]
    split
    · rename_i hid
      subst hid
      cases hf : m.frame? id with
      | none => rfl
      | some frame => rw [Option.map_some, Option.map_some, h frame hf]
    · rfl

/-- A change that leaves the frame as it is changes nothing. -/
theorem modifyFrame_eq_self {m : Machine} {id : Nat} {change : Frame → Frame}
    (h : ∀ f, m.frame? id = some f → change f = f) : m.modifyFrame id change = m := by
  rw [modifyFrame_congr h]
  refine eq_of_frame? ?_ (fun j => ?_) rfl
  · rw [modifyFrame, Array.size_modify]
  · rw [frame?_modifyFrame]
    split
    · exact Option.map_id'
    · rfl

/-- The current frame is the frame of its number. -/
theorem frameAt_eq {m : Machine} {id : Nat} {f : Frame} (h : m.frame? id = some f) :
    m.frameAt id = f := by
  rw [frameAt, ← frame?, h, Option.getD_some]

theorem current_eq {m : Machine} {f : Frame} (h : m.frame? m.currentId = some f) :
    m.current = f := frameAt_eq h

theorem function?_congr {m m' : Machine} (h : m'.functions = m.functions) (v : Value) :
    m'.function? v = m.function? v := by
  cases v with
  | function id => rw [function?, function?, h]
  | _ => rfl

/-- The function of a frame is looked up in its slot. -/
theorem frameFunction?_eq (m : Machine) (id : Nat) :
    m.frameFunction? id = (m.frame? id).bind fun f => m.function? (m.slot f.func) := by
  rw [frameFunction?]
  cases m.frame? id with
  | none => rfl
  | some f =>
    simp only [bind, Option.bind_some, slot]
    cases m.stack[f.func]? with
    | none => rfl
    | some v => rfl

/-- A change that leaves a frame in its slot leaves it its function. -/
theorem frameProto?_modifyFrame (m : Machine) (id j : Nat) {change : Frame → Frame}
    (hfunc : ∀ f, (change f).func = f.func) :
    (m.modifyFrame id change).frameProto? j = m.frameProto? j := by
  rw [frameProto?, frameProto?, frameFunction?_eq, frameFunction?_eq, frame?_modifyFrame]
  split
  · cases m.frame? j with
    | none => rfl
    | some f =>
      rw [Option.map_some, Option.bind_some, hfunc]
      rfl
  · rfl

/-! ## Entering functions -/

/-- Frames that are marked stay in their slots and at their places, and keep their flags. -/
theorem exists_frame_armTraps (ids : List Nat) {m : Machine} {j : Nat} {f : Frame}
    (hf : m.frame? j = some f) :
    (∃ f', (m.armTraps ids).frame? j = some f' ∧ f'.func = f.func ∧ f'.savedPc? = f.savedPc? ∧
        f'.flags = f.flags) ∧
      (m.armTraps ids).frameProto? j = m.frameProto? j ∧
      (m.armTraps ids).currentId = m.currentId := by
  induction ids generalizing m f with
  | nil => exact ⟨⟨f, hf, rfl, rfl, rfl⟩, rfl, rfl⟩
  | cons id ids ih =>
    have hfunc : ∀ f : Frame, (f.setTrap true).func = f.func := fun _ => rfl
    have hmarked : ∃ f', (m.modifyFrame id (·.setTrap true)).frame? j = some f' ∧
        f'.func = f.func ∧ f'.savedPc? = f.savedPc? ∧ f'.flags = f.flags := by
      rw [frame?_modifyFrame]
      split
      · exact ⟨f.setTrap true, by rw [hf, Option.map_some], rfl, f.savedPc?_setTrap true, rfl⟩
      · exact ⟨f, hf, rfl, rfl, rfl⟩
    obtain ⟨f₁, hf₁, hfunc₁, hsaved₁, hflags₁⟩ := hmarked
    obtain ⟨⟨f₂, hf₂, hfunc₂, hsaved₂, hflags₂⟩, hproto, hid⟩ := ih hf₁
    refine ⟨⟨f₂, hf₂, hfunc₂.trans hfunc₁, hsaved₂.trans hsaved₁, hflags₂.trans hflags₁⟩, ?_, ?_⟩
    · exact hproto.trans (m.frameProto?_modifyFrame id j hfunc)
    · exact hid.trans (m.currentId_modifyFrame id _)

/-- Pushing values leaves the slots below the top alone, and the top does not sink. -/
theorem slot_pushAll (vs : List Value) (m : Machine) {i : Nat} (hi : i < m.top) :
    (m.pushAll vs).slot i = m.slot i ∧ i < (m.pushAll vs).top ∧
      (m.pushAll vs).frames = m.frames ∧ (m.pushAll vs).functions = m.functions := by
  induction vs generalizing m with
  | nil => exact ⟨rfl, hi, rfl, rfl⟩
  | cons v vs ih =>
    obtain ⟨hslot, htop, hframes, hfunctions⟩ := ih (m.push v) (Nat.lt_succ_of_lt hi)
    exact ⟨hslot.trans (m.slot_push_of_ne (Nat.ne_of_gt hi) v), htop, hframes, hfunctions⟩

/-- Entering a function leaves the slots below the top alone. -/
theorem slot_enterScript_of_lt (m : Machine) (proto : Proto) (func : Nat) (flags : CallFlags) {i : Nat}
    (hi : i < m.top) : (m.enterScript proto func flags).slot i = m.slot i := by
  have hpush := slot_pushAll (List.replicate (proto.paramCount - m.above func) .nil)
    (m.ensureStack (max proto.maxStack proto.paramCount)) hi
  unfold enterScript
  exact (slot_growTo _ _ i).trans (hpush.1.trans (slot_growTo m _ i))

/-- The frame of an interpreted function that was entered runs it from the first instruction on. -/
theorem enterScript_frame {m : Machine} {func : Nat} {proto : Proto} {upvalues : Array Nat}
    (hslot : m.stack[func]?.bind m.function? = some (.script proto upvalues)) (hfunc : func < m.top)
    (flags : CallFlags) :
    (∃ f, (m.enterScript proto func flags).frame? (m.enterScript proto func flags).currentId =
        some f ∧ f.func = func ∧ f.savedPc? = some 0 ∧ f.flags = flags) ∧
      (m.enterScript proto func flags).frameProto? (m.enterScript proto func flags).currentId =
        some proto ∧
      func < (m.enterScript proto func flags).top := by
  obtain ⟨v, hv, hscript⟩ := Option.bind_eq_some_iff.1 hslot
  have hslotFunc : m.slot func = v := by
    rw [slot, hv, Option.getD_some]
  have hpush := slot_pushAll (List.replicate (proto.paramCount - m.above func) .nil)
    (m.ensureStack (max proto.maxStack proto.paramCount)) hfunc
  obtain ⟨-, htop, hframes, hfunctions⟩ := hpush
  have hpushed : (m.enterScript proto func flags).frames = m.frames.push
      { Frame.script func (func + 1 + proto.maxStack) (some m.currentId) with flags } := by
    simp only [enterScript, growTo, currentId, hframes]
    rfl
  have hframe : ∃ f, (m.enterScript proto func flags).frame?
      (m.enterScript proto func flags).currentId = some f ∧ f.func = func ∧
        f.savedPc? = some 0 ∧ f.flags = flags := by
    refine ⟨{ Frame.script func (func + 1 + proto.maxStack) (some m.currentId) with flags }, ?_,
      rfl, rfl, rfl⟩
    rw [frame?, currentId, hpushed, Array.size_push, Nat.add_sub_cancel, Array.getElem?_push_size]
  refine ⟨hframe, ?_, htop⟩
  obtain ⟨f, hf, hfuncEq, -⟩ := hframe
  have hlookup : (m.enterScript proto func flags).function?
      ((m.enterScript proto func flags).slot func) = some (.script proto upvalues) := by
    rw [m.slot_enterScript_of_lt proto func flags hfunc, hslotFunc, ← hscript]
    exact function?_congr hfunctions v
  rw [frameProto?, frameFunction?_eq, hf, Option.bind_some, hfuncEq, hlookup]
  rfl

end Machine

/-- A place that was moved is put back. -/
theorem Frame.setSavedPc_setSavedPc_savedPc? (f : Frame) (pc : Nat) :
    (f.setSavedPc pc).setSavedPc (f.savedPc?.getD 0) = f := by
  obtain ⟨func, top, previous, flags, code, transfer⟩ := f
  cases code with
  | script progress => rfl
  | native => rfl

/-! ## Machines that look the same -/

/-- The flags that are set while an event is reported. -/
def CallFlags.reporting : CallFlags where
  hooked := true
  transfer := true

/-- A frame without what is noted in it while an event is reported. -/
def Frame.unreported (f : Frame) : Frame :=
  { f with flags := f.flags.remove .reporting, transfer := {} }

/-- What does not depend on reports can be read off. -/
theorem Frame.eq_of_unreported_eq {f f' : Frame} (h : f'.unreported = f.unreported) :
    f'.func = f.func ∧ f'.code = f.code ∧ f'.flags.hookYield = f.flags.hookYield := by
  simp only [Frame.unreported, Frame.mk.injEq, CallFlags.remove, CallFlags.mk.injEq,
    CallFlags.reporting, Bool.not_false, Bool.and_true] at h
  exact ⟨h.1, h.2.2.2.2.1, h.2.2.2.1.2.2.1⟩

namespace Machine

/-- The second machine is the first one after something that leaves its values and frames alone,
apart from what is noted in a frame while an event is reported. -/
structure Undisturbed (m m' : Machine) : Prop where
  size : m'.frames.size = m.frames.size
  frame : ∀ id, (m'.frame? id).map Frame.unreported = (m.frame? id).map Frame.unreported
  slot : ∀ i, m'.slot i = m.slot i
  top : m'.top = m.top
  functions : m'.functions = m.functions

namespace Undisturbed

variable {m m' m'' : Machine}

theorem refl (m : Machine) : m.Undisturbed m := ⟨rfl, fun _ => rfl, fun _ => rfl, rfl, rfl⟩

theorem trans (h : m.Undisturbed m') (h' : m'.Undisturbed m'') : m.Undisturbed m'' where
  size := h'.size.trans h.size
  frame id := (h'.frame id).trans (h.frame id)
  slot i := (h'.slot i).trans (h.slot i)
  top := h'.top.trans h.top
  functions := h'.functions.trans h.functions

theorem currentId (h : m.Undisturbed m') : m'.currentId = m.currentId := by
  rw [Machine.currentId, h.size, Machine.currentId]

/-- A frame that is there is still there. -/
theorem exists_frame (h : m.Undisturbed m') {id : Nat} {f : Frame} (hf : m.frame? id = some f) :
    ∃ f', m'.frame? id = some f' ∧ f'.unreported = f.unreported := by
  have hframe := h.frame id
  rw [hf, Option.map_some, Option.map_eq_some_iff] at hframe
  exact hframe

/-- The frames of such machines run the same functions. -/
theorem frameProto? (h : m.Undisturbed m') (id : Nat) : m'.frameProto? id = m.frameProto? id := by
  have hfunction : m'.frameFunction? id = m.frameFunction? id := by
    rw [frameFunction?_eq, frameFunction?_eq]
    have hframe := h.frame id
    cases hf : m.frame? id with
    | none =>
      rw [hf, Option.map_none, Option.map_eq_none_iff] at hframe
      rw [hframe, Option.bind_none, Option.bind_none]
    | some f =>
      obtain ⟨f', hf', heq⟩ := h.exists_frame hf
      rw [hf', Option.bind_some, Option.bind_some, (Frame.eq_of_unreported_eq heq).1, h.slot,
        function?_congr h.functions]
  rw [Machine.frameProto?, hfunction, Machine.frameProto?]

/-- A change that does not look at what is noted in a frame keeps the likeness. -/
theorem modifyFrame (h : m.Undisturbed m') (id : Nat) {change : Frame → Frame}
    (hchange : ∀ f, (change f).unreported = change f.unreported) :
    (m.modifyFrame id change).Undisturbed (m'.modifyFrame id change) where
  size := by simpa only [Machine.modifyFrame, Array.size_modify] using h.size
  frame j := by
    have hmap : ∀ o : Option Frame, (o.map change).map Frame.unreported =
        (o.map Frame.unreported).map change := by
      intro o
      rw [Option.map_map, Option.map_map]
      exact congrArg (fun g => o.map g) (funext hchange)
    rw [frame?_modifyFrame, frame?_modifyFrame]
    split
    · rw [hmap, hmap, h.frame j]
    · exact h.frame j
  slot := h.slot
  top := h.top
  functions := h.functions

end Undisturbed

/-! ## Extra arguments -/

/-- Lifting a value empties its slot and leaves the other slots below the top alone. -/
theorem slot_liftValue (m : Machine) (i : Nat) {j : Nat} (hj : j < m.top) :
    (m.liftValue i).slot j = if i = j then .nil else m.slot j := by
  rw [liftValue, slot_push_of_ne (m.put i .nil) (Nat.ne_of_gt hj)]
  split
  · rename_i hi
    subst hi
    by_cases hsize : i < m.stack.size
    · exact slot_put_self m hsize _
    · rw [slot, Array.getElem?_eq_none (by rw [size_put]; exact Nat.le_of_not_lt hsize)]
      rfl
  · rename_i hi
    exact slot_put_of_ne m hi _

/-- So does lifting any number of values. -/
theorem slot_foldl_liftValue (slots : List Nat) (m : Machine) {j : Nat} (hj : j < m.top) :
    (slots.foldl liftValue m).slot j = if j ∈ slots then .nil else m.slot j := by
  induction slots generalizing m with
  | nil => rw [if_neg List.not_mem_nil, List.foldl_nil]
  | cons i slots ih =>
    rw [List.foldl_cons, ih (m.liftValue i) (Nat.lt_succ_of_lt hj), slot_liftValue m i hj]
    by_cases hmem : j ∈ slots
    · rw [if_pos hmem, if_pos (List.mem_cons_of_mem i hmem)]
    · by_cases hi : i = j
      · rw [if_neg hmem, if_pos hi, if_pos (List.mem_cons.2 (Or.inl hi.symm))]
      · have hnot : j ∉ i :: slots := fun h => (List.mem_cons.1 h).elim (fun h => hi h.symm) hmem
        rw [if_neg hmem, if_neg hi, if_neg hnot]

@[simp] theorem frames_liftValue (m : Machine) (i : Nat) :
    (m.liftValue i).frames = m.frames := by
  rw [liftValue, frames_push]
  rfl

@[simp] theorem functions_liftValue (m : Machine) (i : Nat) :
    (m.liftValue i).functions = m.functions := by
  rw [liftValue, functions_push]
  rfl

theorem frames_foldl_liftValue (slots : List Nat) (m : Machine) :
    (slots.foldl liftValue m).frames = m.frames := by
  induction slots generalizing m with
  | nil => rfl
  | cons i slots ih => rw [List.foldl_cons, ih, frames_liftValue]

theorem functions_foldl_liftValue (slots : List Nat) (m : Machine) :
    (slots.foldl liftValue m).functions = m.functions := by
  induction slots generalizing m with
  | nil => rfl
  | cons i slots ih => rw [List.foldl_cons, ih, functions_liftValue]

/-- The frame whose extra arguments are set apart. -/
def adjustedFrame (actual fixed : Nat) (f : Frame) : Frame :=
  { f with func := f.func + (actual + 1), top := f.top + (actual + 1) }.setVarargs (actual - fixed)
    (actual + 1)

theorem progress?_adjustedFrame {f : Frame} {p : Progress} (hp : f.progress? = some p)
    (actual fixed : Nat) :
    (adjustedFrame actual fixed f).progress? =
      some { p with extraArgs := actual - fixed, shift := actual + 1 } := by
  rw [adjustedFrame, Frame.setVarargs, Frame.progress?_modifyProgress]
  rw [Frame.progress?] at hp ⊢
  rw [hp]
  rfl

theorem isScript_adjustedFrame (actual fixed : Nat) (f : Frame) :
    (adjustedFrame actual fixed f).isScript = f.isScript := by
  obtain ⟨func, top, previous, flags, code, transfer⟩ := f
  cases code with
  | script progress => rfl
  | native => rfl

/-- The stack after the function of the current frame and its fixed parameters were moved above all
arguments. -/
def gathered (m : Machine) (fixed : Nat) : Machine :=
  (List.range' (m.current.func + 1) fixed).foldl liftValue
    ((m.ensureStack (((m.frameProto? m.currentId).map Proto.maxStack).getD 0 + 1)).push
      (m.slot m.current.func))

/-- Setting the extra arguments apart moves values, then the frame, and then makes room above it. -/
theorem adjustVarargs_eq (m : Machine) (fixed : Nat) :
    m.adjustVarargs fixed =
      ((m.gathered fixed).modifyFrame m.currentId
          (adjustedFrame (m.above m.current.func) fixed)).growTo
        ((((m.gathered fixed).modifyFrame m.currentId
          (adjustedFrame (m.above m.current.func) fixed)).frameAt m.currentId).top + extraStack) :=
  rfl

theorem frames_adjustVarargs (m : Machine) (fixed : Nat) :
    (m.adjustVarargs fixed).frames =
      m.frames.modify m.currentId (adjustedFrame (m.above m.current.func) fixed) := by
  unfold adjustVarargs
  simp only [frames_growTo, modifyFrame, frames_foldl_liftValue, frames_push, ensureStack]
  rfl

@[simp] theorem currentId_adjustVarargs (m : Machine) (fixed : Nat) :
    (m.adjustVarargs fixed).currentId = m.currentId := by
  rw [currentId, frames_adjustVarargs, Array.size_modify, currentId]

/-- The frame moves with its function. -/
theorem frame?_adjustVarargs {m : Machine} {f : Frame} (hf : m.frame? m.currentId = some f)
    (fixed : Nat) :
    (m.adjustVarargs fixed).frame? m.currentId = some (adjustedFrame (m.above f.func) fixed f) := by
  rw [frame?, frames_adjustVarargs, Array.getElem?_modify, if_pos rfl, current_eq hf]
  rw [frame?] at hf
  rw [hf, Option.map_some]

theorem functions_adjustVarargs (m : Machine) (fixed : Nat) :
    (m.adjustVarargs fixed).functions = m.functions := by
  unfold adjustVarargs
  simp only [functions_growTo, functions_modifyFrame, functions_foldl_liftValue, functions_push,
    ensureStack]

/-- The function moves to the top.  With more fixed parameters than there are arguments it is lifted
away from there again. -/
theorem slot_adjustVarargs (m : Machine) (hfunc : m.current.func < m.top) (fixed : Nat) :
    (m.adjustVarargs fixed).slot m.top =
      if m.above m.current.func < fixed then .nil else m.slot m.current.func := by
  have hmem : m.top ∈ List.range' (m.current.func + 1) fixed ↔ m.above m.current.func < fixed := by
    rw [List.mem_range'_1, above]
    omega
  unfold adjustVarargs
  simp only [slot_growTo, slot_modifyFrame]
  have hpush := slot_push_top
    (m.ensureStack (((m.frameProto? m.currentId).map Proto.maxStack).getD 0 + 1))
    (m.slot m.current.func)
  have hlift := slot_foldl_liftValue (List.range' (m.current.func + 1) fixed)
    ((m.ensureStack (((m.frameProto? m.currentId).map Proto.maxStack).getD 0 + 1)).push
      (m.slot m.current.func)) (j := m.top) (Nat.lt_succ_self _)
  simp only [hmem] at hlift
  refine hlift.trans ?_
  split
  · rfl
  · exact hpush

/-- A frame whose extra arguments are set apart runs the function that it ran before, unless that
was lifted away. -/
theorem frameProto?_adjustVarargs {m : Machine} {f : Frame} (hf : m.frame? m.currentId = some f)
    (hfunc : f.func < m.top) (fixed : Nat) :
    (m.adjustVarargs fixed).frameProto? m.currentId =
      if m.above f.func < fixed then none else m.frameProto? m.currentId := by
  have hframe := frame?_adjustVarargs hf fixed
  have hmoved : (adjustedFrame (m.above f.func) fixed f).func = m.top := by
    simp only [adjustedFrame, Frame.setVarargs, Frame.modifyProgress, above]
    omega
  have hslot := slot_adjustVarargs m (by rw [current_eq hf]; exact hfunc) fixed
  rw [current_eq hf] at hslot
  rw [frameProto?, frameFunction?_eq, hframe, Option.bind_some, hmoved,
    function?_congr (functions_adjustVarargs m fixed), hslot]
  split
  · rfl
  · rw [frameProto?, frameFunction?_eq, hf, Option.bind_some]

end Machine

end VmInspect
