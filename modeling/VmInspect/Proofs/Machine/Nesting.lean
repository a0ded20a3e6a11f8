import VmInspect.Proofs.Machine.Calls

/-!
# Inside a call

A caller does not care what a function does that it has called, as long as that stays above the slot of
the function.  This file says what stays as it is while a call is going on, whatever happens in it, and
once it is over:

* `Machine.Inside` — the invariant of a call: the callers are still there, the slots below the function
  are those of the machine that made the call, and the frame of the call stays above them.
* `Machine.inside_enterScript`, `Machine.inside_enterNative` — entering a function begins a call.
* `Machine.Inside.adjustVarargs`, `Machine.Inside.work` — setting extra arguments apart, any number of
  times, and work above the function stay inside.
* `Machine.Inside.leave` — leaving the frame ends the call.
* `Machine.Inside.of_back` — a call that was made inside and is over leaves the machine inside.
-/

namespace VmInspect

/-- What is noted in a frame while an event is reported leaves its place alone. -/
theorem Frame.place_of_unreported_eq {f f' : Frame} (h : f'.unreported = f.unreported) :
    f'.func = f.func ∧ f'.top = f.top ∧ f'.previous = f.previous ∧ f'.shift = f.shift := by
  have hcode : f'.code = f.code := (Frame.eq_of_unreported_eq h).2.1
  refine ⟨(Frame.eq_of_unreported_eq h).1, ?_, ?_, ?_⟩
  · show f'.unreported.top = f.unreported.top
    rw [h]
  · show f'.unreported.previous = f.unreported.previous
    rw [h]
  · rw [Frame.shift, Frame.shift, Frame.progress?, Frame.progress?, hcode]

namespace Machine

/-- Values below the place that values are copied to are left alone. -/
theorem slot_copyDown_of_lt (m : Machine) (source count : Nat) {target j : Nat} (hj : j < target) :
    (m.copyDown source target count).slot j = m.slot j := by
  induction count with
  | zero => rfl
  | succ count ih =>
    rw [copyDown_succ, slot_put_of_ne _ (by omega), ih]

/-- Leaving a frame leaves the slots below the place of its results alone. -/
theorem slot_leave_of_lt (m : Machine) (id results : Nat) {j : Nat}
    (hj : j < (m.frameAt id).func - (m.frameAt id).shift) : (m.leave id results).slot j = m.slot j := by
  have htop := slot_setTop_of_lt (m.copyDown (m.top - results)
    ((m.frameAt id).func - (m.frameAt id).shift) results) (Nat.lt_add_right results hj)
  exact htop.trans (slot_copyDown_of_lt m _ _ hj)

/-! ## The invariant of a call -/

/-- The frames, functions and values that a machine has below a slot are also there in another one, as
far as anyone can tell. -/
structure SameBelow (m : Machine) (slot : Nat) (m' : Machine) : Prop where
  callers : ∀ id < m.frames.size, (m'.frame? id).map Frame.unreported =
    (m.frame? id).map Frame.unreported
  below : ∀ i < slot, m'.slot i = m.slot i
  functions : m'.functions = m.functions

/-- The second machine is inside a call that the first one made, of the function in a slot. -/
structure Inside (m : Machine) (slot : Nat) (m' : Machine) : Prop extends m.SameBelow slot m' where
  size : m'.frames.size = m.frames.size + 1
  previous : m'.current.previous = some m.currentId
  /-- the results go to the slot or above it -/
  place : slot + m'.current.shift ≤ m'.current.func
  top : slot < m'.top
  limit : slot < m'.current.top

/-- The second machine is the first one after such a call. -/
structure Back (m : Machine) (slot : Nat) (m' : Machine) : Prop extends m.SameBelow slot m' where
  size : m'.frames.size = m.frames.size
  top : slot ≤ m'.top

/-- Work above the function of the current frame. -/
structure WorksAbove (m m' : Machine) : Prop where
  frames : m'.frames = m.frames
  functions : m'.functions = m.functions
  below : ∀ i ≤ m.current.func, m'.slot i = m.slot i
  top : m.current.func < m'.top

namespace WorksAbove

variable {m m' : Machine}

theorem frame? (h : m.WorksAbove m') (id : Nat) : m'.frame? id = m.frame? id := by
  rw [Machine.frame?, h.frames, Machine.frame?]

theorem currentId (h : m.WorksAbove m') : m'.currentId = m.currentId := by
  rw [Machine.currentId, h.frames, Machine.currentId]

/-- The current frame runs the same function. -/
theorem frameProto? (h : m.WorksAbove m') : m'.frameProto? m.currentId = m.frameProto? m.currentId := by
  rw [Machine.frameProto?, Machine.frameProto?, frameFunction?_eq, frameFunction?_eq, h.frame?]
  cases hf : m.frame? m.currentId with
  | none => rfl
  | some f =>
    have hbelow := h.below f.func (Nat.le_of_eq (by rw [current_eq hf]))
    rw [Option.bind_some, Option.bind_some, hbelow, function?_congr h.functions]

end WorksAbove

namespace Back

variable {m m' : Machine} {slot : Nat}

theorem currentId (h : m.Back slot m') : m'.currentId = m.currentId := by
  rw [Machine.currentId, h.size, Machine.currentId]

/-- The frame that made the call is there again. -/
theorem exists_frame (h : m.Back slot m') {id : Nat} {f : Frame} (hf : m.frame? id = some f) :
    ∃ f', m'.frame? id = some f' ∧ f'.unreported = f.unreported := by
  have hid : id < m.frames.size := (Array.getElem?_eq_some_iff.1 hf).1
  have hframe := h.callers id hid
  rw [hf, Option.map_some, Option.map_eq_some_iff] at hframe
  exact hframe

/-- A frame whose function lies below the slot runs the same function. -/
theorem frameProto? (h : m.Back slot m') {id : Nat} {f : Frame} (hf : m.frame? id = some f)
    (hfunc : f.func < slot) : m'.frameProto? id = m.frameProto? id := by
  obtain ⟨f', hf', heq⟩ := h.exists_frame hf
  rw [Machine.frameProto?, Machine.frameProto?, frameFunction?_eq, frameFunction?_eq, hf, hf',
    Option.bind_some, Option.bind_some, (Frame.eq_of_unreported_eq heq).1, h.below _ hfunc,
    function?_congr h.functions]

end Back

namespace Inside

variable {m m' m'' : Machine} {slot : Nat}

theorem currentId (h : m.Inside slot m') : m'.currentId = m.frames.size := by
  rw [Machine.currentId, h.size, Nat.add_sub_cancel]

/-- The frame of the call. -/
theorem frame?_current (h : m.Inside slot m') : m'.frame? m'.currentId = some m'.current := by
  have hlt : m'.currentId < m'.frames.size := by
    rw [h.currentId, h.size]
    exact Nat.lt_succ_self _
  rw [Machine.current, frameAt, frame?, Array.getElem?_eq_getElem hlt, Option.getD_some]

theorem slot_le (h : m.Inside slot m') : slot ≤ m'.current.func :=
  Nat.le_trans (Nat.le_add_right slot _) h.place

/-- What leaves the frames alone, apart from what is noted in them, and the slots below stays inside. -/
theorem of_frames (h : m.Inside slot m') (hsize : m''.frames.size = m'.frames.size)
    (hframes : ∀ id, (m''.frame? id).map Frame.unreported = (m'.frame? id).map Frame.unreported)
    (hbelow : ∀ i < slot, m''.slot i = m'.slot i) (hfunctions : m''.functions = m'.functions)
    (htop : slot < m''.top) : m.Inside slot m'' := by
  have hid : m''.currentId = m'.currentId := by
    rw [Machine.currentId, hsize, Machine.currentId]
  obtain ⟨f, hf, heq⟩ : ∃ f, m''.frame? m''.currentId = some f ∧
      f.unreported = m'.current.unreported := by
    have hframe := hframes m''.currentId
    rw [hid, h.frame?_current, Option.map_some, Option.map_eq_some_iff] at hframe
    rw [hid]
    exact hframe
  obtain ⟨hfunc, hlimit, hprevious, hshift⟩ := Frame.place_of_unreported_eq heq
  have hcurrent := current_eq hf
  refine ⟨⟨fun id hid => ?_, fun i hi => ?_, ?_⟩, ?_, ?_, ?_, htop, ?_⟩
  · rw [hframes, h.callers id hid]
  · rw [hbelow i hi, h.below i hi]
  · rw [hfunctions, h.functions]
  · rw [hsize, h.size]
  · rw [hcurrent, hprevious, h.previous]
  · rw [hcurrent, hfunc, hshift]
    exact h.place
  · rw [hcurrent, hlimit]
    exact h.limit

/-- A report stays inside. -/
theorem of_undisturbed (h : m.Inside slot m') (hu : m'.Undisturbed m'') : m.Inside slot m'' :=
  h.of_frames hu.size hu.frame (fun i _ => hu.slot i) hu.functions (by rw [hu.top]; exact h.top)

/-- So does a change of the frame of the call that leaves it at its place. -/
theorem modifyFrame (h : m.Inside slot m') {change : Frame → Frame}
    (hfunc : ∀ f, (change f).func = f.func) (htop : ∀ f, (change f).top = f.top)
    (hprevious : ∀ f, (change f).previous = f.previous) (hshift : ∀ f, (change f).shift = f.shift) :
    m.Inside slot (m'.modifyFrame m'.currentId change) := by
  have hcurrent : (m'.modifyFrame m'.currentId change).current = change m'.current := by
    refine current_eq ?_
    rw [currentId_modifyFrame, frame?_modifyFrame_self, h.frame?_current, Option.map_some]
  refine ⟨⟨fun id hid => ?_, h.below, h.functions⟩, ?_, ?_, ?_, h.top, ?_⟩
  · rw [frame?_modifyFrame, if_neg, h.callers id hid]
    rw [h.currentId]
    exact Nat.ne_of_gt hid
  · rw [Machine.modifyFrame, Array.size_modify, h.size]
  · rw [hcurrent, hprevious, h.previous]
  · rw [hcurrent, hfunc, hshift]
    exact h.place
  · rw [hcurrent, htop]
    exact h.limit

/-- So does another top above the slot. -/
theorem setTop (h : m.Inside slot m') {top : Nat} (htop : slot < top) :
    m.Inside slot { m' with top } :=
  h.of_frames rfl (fun _ => rfl) (fun _ _ => rfl) rfl htop

/-- So does work above the function of the call. -/
theorem work (h : m.Inside slot m') (hw : m'.WorksAbove m'') : m.Inside slot m'' := by
  refine h.of_frames (by rw [hw.frames]) (fun id => ?_) (fun i hi => ?_) hw.functions ?_
  · rw [hw.frame?]
  · exact hw.below i (Nat.le_of_lt (Nat.lt_of_lt_of_le hi h.slot_le))
  · exact Nat.lt_of_le_of_lt h.slot_le hw.top

/-- Extra arguments are set apart inside the call, however often. -/
theorem adjustVarargs (h : m.Inside slot m') (fixed : Nat) :
    m.Inside slot (m'.adjustVarargs fixed) := by
  have hslot := h.slot_le
  have hcurrent : (m'.adjustVarargs fixed).current =
      adjustedFrame (m'.above m'.current.func) fixed m'.current := by
    refine current_eq ?_
    rw [currentId_adjustVarargs]
    exact frame?_adjustVarargs h.frame?_current fixed
  have hshift : (adjustedFrame (m'.above m'.current.func) fixed m'.current).shift ≤
      m'.above m'.current.func + 1 := by
    rw [Frame.shift]
    cases hp : m'.current.progress? with
    | none =>
      rw [adjustedFrame, Frame.setVarargs, Frame.progress?_modifyProgress]
      rw [Frame.progress?] at hp ⊢
      rw [hp]
      exact Nat.zero_le _
    | some p =>
      rw [progress?_adjustedFrame hp]
      exact Nat.le_refl _
  refine ⟨⟨fun id hid => ?_, fun i hi => ?_, ?_⟩, ?_, ?_, ?_, ?_, ?_⟩
  · rw [frame?, frames_adjustVarargs, Array.getElem?_modify, if_neg, ← frame?, h.callers id hid]
    rw [h.currentId]
    exact Nat.ne_of_gt hid
  · rw [slot_adjustVarargs_of_le m' (Nat.le_of_lt (Nat.lt_of_lt_of_le hi hslot))
      (Nat.lt_trans hi h.top), h.below i hi]
  · rw [functions_adjustVarargs, h.functions]
  · rw [frames_adjustVarargs, Array.size_modify, h.size]
  · rw [hcurrent]
    exact h.previous
  · rw [hcurrent]
    show slot + _ ≤ m'.current.func + (m'.above m'.current.func + 1)
    exact Nat.add_le_add hslot hshift
  · rw [top_adjustVarargs]
    exact Nat.lt_of_lt_of_le h.top (by omega)
  · rw [hcurrent]
    exact Nat.lt_of_lt_of_le h.limit (Nat.le_add_right _ _)

/-- A call that was made inside and is over leaves the machine inside. -/
theorem of_back (h : m.Inside slot m') {inner : Nat} (hinner : m'.current.func < inner)
    (hb : m'.Back inner m'') : m.Inside slot m'' := by
  have hslot := Nat.lt_of_le_of_lt h.slot_le hinner
  refine h.of_frames hb.size (fun id => ?_) (fun i hi => hb.below i (Nat.lt_trans hi hslot))
    hb.functions (Nat.lt_of_lt_of_le hslot hb.top)
  by_cases hid : id < m'.frames.size
  · exact hb.callers id hid
  · rw [frame?, frame?, Array.getElem?_eq_none (Nat.le_of_not_lt hid),
      Array.getElem?_eq_none (by rw [hb.size]; exact Nat.le_of_not_lt hid)]

/-- Leaving the frame ends the call. -/
theorem leave (h : m.Inside slot m') (results : Nat) :
    m.Back slot (m'.leave m'.currentId results) := by
  have htarget : slot ≤ m'.current.func - m'.current.shift := Nat.le_sub_of_add_le h.place
  have hpop : (m'.leave m'.currentId results).frames = m'.frames.pop := rfl
  refine ⟨⟨fun id hid => ?_, fun i hi => ?_, h.functions⟩, ?_, ?_⟩
  · have hlt : id < m'.frames.size - 1 := by
      rw [h.size, Nat.add_sub_cancel]
      exact hid
    rw [frame?, hpop, Array.getElem?_pop, if_pos hlt, ← frame?, h.callers id hid]
  · rw [slot_leave_of_lt m' m'.currentId results (Nat.lt_of_lt_of_le hi htarget), h.below i hi]
  · rw [hpop, Array.size_pop, h.size, Nat.add_sub_cancel]
  · exact Nat.le_trans htarget (Nat.le_add_right _ _)

end Inside

/-! ## Entering -/

variable {m : Machine} {slot : Nat}

theorem functions_pushAll (vs : List Value) (m : Machine) :
    (m.pushAll vs).functions = m.functions := by
  induction vs generalizing m with
  | nil => rfl
  | cons v vs ih => rw [pushAll_cons, ih, functions_push]

/-- Pushing values is work above the function. -/
theorem worksAbove_pushAll (hfunc : m.current.func < m.top) (vs : List Value) :
    m.WorksAbove (m.pushAll vs) := by
  refine ⟨frames_pushAll m vs, functions_pushAll vs m, ?_, ?_⟩
  · intro i hi
    exact (slot_pushAll vs m (Nat.lt_of_le_of_lt hi hfunc)).1
  · rw [top_pushAll]
    exact Nat.lt_of_lt_of_le hfunc (Nat.le_add_right _ _)

/-- A new frame above a slot begins a call. -/
theorem inside_push {m m' : Machine} {f : Frame} (hframes : m'.frames = m.frames.push f)
    (hbelow : ∀ i < slot, m'.slot i = m.slot i) (hfunctions : m'.functions = m.functions)
    (hprevious : f.previous = some m.currentId) (hfunc : f.func = slot) (hshift : f.shift = 0)
    (htop : slot < m'.top) (hlimit : slot < f.top) : m.Inside slot m' := by
  have hcurrent : m'.current = f := by
    refine current_eq ?_
    rw [frame?, Machine.currentId, hframes, Array.size_push, Nat.add_sub_cancel,
      Array.getElem?_push_size]
  refine ⟨⟨fun id hid => ?_, hbelow, hfunctions⟩, ?_, ?_, ?_, htop, ?_⟩
  · rw [frame?, hframes, Array.getElem?_push_lt hid, frame?, Array.getElem?_eq_getElem hid]
  · rw [hframes, Array.size_push]
  · rw [hcurrent, hprevious]
  · rw [hcurrent, hfunc, hshift]
    exact Nat.le_refl _
  · rw [hcurrent]
    exact hlimit

theorem inside_enterScript (m : Machine) (proto : Proto) (hslot : slot < m.top)
    (flags : CallFlags) : m.Inside slot (m.enterScript proto slot flags) := by
  refine inside_push (m.frames_enterScript proto slot flags)
    (fun i hi => m.slot_enterScript_of_lt proto slot flags (Nat.lt_trans hi hslot)) ?_ rfl rfl rfl ?_ ?_
  · unfold enterScript
    exact functions_pushAll _ _
  · rw [top_enterScript]
    exact Nat.lt_of_lt_of_le hslot (Nat.le_add_right _ _)
  · show slot < slot + 1 + proto.maxStack
    omega

theorem inside_enterNative (m : Machine) (hslot : slot < m.top) :
    m.Inside slot (m.enterNative slot) := by
  refine inside_push (f := Frame.native slot (m.top + minStack) (some m.currentId)) rfl
    (fun i _ => slot_growTo m _ i) rfl rfl rfl rfl hslot ?_
  exact Nat.lt_of_lt_of_le hslot (Nat.le_add_right _ _)

end Machine

end VmInspect
