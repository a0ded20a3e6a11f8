import VmInspect.Proofs.Machine.Frames

/-!
# Calls and returns

A function that is called works above the slot that it was found in, and its results go there.  This
file follows the machine through a call:

* `Machine.slot_copyDown` — values that are copied down arrive in order, also where the slots that
  they come from and those that they go to overlap.
* `Machine.InCall` — the invariant of a call: the frames of the callers and the slots below the
  function are those of the machine that made the call.
* `Machine.inCall_enterScript`, `Machine.InCall.adjustVarargs`, `Machine.InCall.performAll` — entering
  a function, setting its extra arguments apart, and pushes and pops above its base keep it up.
* `Machine.InCall.leave` — leaving the frame gives back the machine that made the call, with the
  results in place of the function and its arguments.
-/

namespace VmInspect

namespace Machine

/-! ## Values that are moved and cleared -/

theorem copyDown_succ (m : Machine) (source target count : Nat) :
    m.copyDown source target (count + 1) =
      (m.copyDown source target count).put (target + count)
        ((m.copyDown source target count).slot (source + count)) := by
  rw [copyDown, copyDown, List.range_succ, List.foldl_append]
  rfl

@[simp] theorem size_copyDown (m : Machine) (source target count : Nat) :
    (m.copyDown source target count).stack.size = m.stack.size := by
  induction count with
  | zero => rfl
  | succ count ih => rw [copyDown_succ, size_put, ih]

/-- The copied values arrive in order: a slot was not written yet when it is read. -/
theorem slot_copyDown (m : Machine) {source target count : Nat} (hdown : target ≤ source)
    (hroom : target + count ≤ m.stack.size) (j : Nat) :
    (m.copyDown source target count).slot j =
      if target ≤ j ∧ j < target + count then m.slot (source + (j - target)) else m.slot j := by
  induction count generalizing j with
  | zero =>
    rw [if_neg (by omega)]
    rfl
  | succ count ih =>
    rw [copyDown_succ]
    by_cases hj : target + count = j
    · subst hj
      rw [slot_put_self _ (by rw [size_copyDown]; omega), ih (by omega), if_neg (by omega),
        if_pos (by omega), Nat.add_sub_cancel_left]
    · rw [slot_put_of_ne _ hj, ih (by omega)]
      split
      · rw [if_pos (by omega)]
      · rw [if_neg (by omega)]

/-- Clearing slots leaves those below the first one alone. -/
theorem slot_clear_of_lt (m : Machine) {first j : Nat} (hj : j < first) (last : Nat) :
    (m.clear first last).slot j = m.slot j := by
  have hclear : ∀ (slots : List Nat) (stack : Array Value), (∀ i ∈ slots, j < i) →
      (slots.foldl (·.setIfInBounds · .nil) stack)[j]? = stack[j]? := by
    intro slots
    induction slots with
    | nil => exact fun _ _ => rfl
    | cons i slots ih =>
      intro stack hslots
      have hi : j < i := hslots i List.mem_cons_self
      rw [List.foldl_cons, ih _ fun k hk => hslots k (List.mem_cons_of_mem i hk),
        Array.getElem?_setIfInBounds_ne (Nat.ne_of_gt hi)]
  refine congrArg (·.getD .nil) (hclear _ m.stack fun i hi => ?_)
  rw [List.mem_range'_1] at hi
  omega

theorem slot_setTop_of_lt (m : Machine) {top j : Nat} (hj : j < top) :
    (m.setTop top).slot j = m.slot j :=
  (slot_clear_of_lt _ hj m.top).trans (slot_growTo m _ j)

theorem pushAll_cons (m : Machine) (v : Value) (vs : List Value) :
    m.pushAll (v :: vs) = (m.push v).pushAll vs := rfl

@[simp] theorem frames_pushAll (m : Machine) (vs : List Value) :
    (m.pushAll vs).frames = m.frames := by
  induction vs generalizing m with
  | nil => rfl
  | cons v vs ih => rw [pushAll_cons, ih, frames_push]

@[simp] theorem top_growTo (m : Machine) (size : Nat) : (m.growTo size).top = m.top := rfl

@[simp] theorem top_modifyFrame (m : Machine) (id : Nat) (change : Frame → Frame) :
    (m.modifyFrame id change).top = m.top := rfl

@[simp] theorem top_push (m : Machine) (v : Value) : (m.push v).top = m.top + 1 := rfl

@[simp] theorem top_pushAll (m : Machine) (vs : List Value) :
    (m.pushAll vs).top = m.top + vs.length := by
  induction vs generalizing m with
  | nil => rfl
  | cons v vs ih =>
    rw [pushAll_cons, ih, top_push, List.length_cons]
    omega

/-! ## Room for the stack -/

/-- A pushed value has a slot. -/
theorem room_push (m : Machine) (v : Value) : (m.push v).top ≤ (m.push v).stack.size := by
  change m.top + 1 ≤ ((m.growTo (m.top + 1 + extraStack)).put m.top v).stack.size
  rw [size_put, size_growTo]
  omega

/-- Whether every value on the stack has a slot. -/
def HasRoom (m : Machine) : Prop := m.top ≤ m.stack.size

theorem hasRoom_ensureStack (m : Machine) (n : Nat) : (m.ensureStack n).HasRoom := by
  change m.top ≤ (m.growTo (m.top + n + extraStack)).stack.size
  rw [size_growTo]
  omega

theorem HasRoom.growTo {m : Machine} (h : m.HasRoom) (size : Nat) : (m.growTo size).HasRoom := by
  change m.top ≤ (m.growTo size).stack.size
  rw [size_growTo]
  exact Nat.le_trans h (Nat.le_max_left _ _)

theorem HasRoom.pushAll {m : Machine} (h : m.HasRoom) (vs : List Value) :
    (m.pushAll vs).HasRoom := by
  induction vs generalizing m with
  | nil => exact h
  | cons v vs ih =>
    rw [pushAll_cons]
    exact ih (m.room_push v)

theorem HasRoom.liftValues {m : Machine} (h : m.HasRoom) (slots : List Nat) :
    (slots.foldl liftValue m).HasRoom := by
  induction slots generalizing m with
  | nil => exact h
  | cons i slots ih =>
    rw [List.foldl_cons]
    exact ih (room_push _ _)

theorem HasRoom.drop {m : Machine} (h : m.HasRoom) : m.drop.HasRoom := by
  unfold Machine.drop
  split
  · exact h
  · change m.top - 1 ≤ (m.put (m.top - 1) .nil).stack.size
    rw [size_put]
    exact Nat.le_trans (Nat.sub_le _ _) h

/-! ## The invariant of a call -/

/-- The second machine is in the middle of a call that the first one made, of the function in a
slot. -/
structure InCall (m : Machine) (func : Nat) (m' : Machine) : Prop where
  size : m'.frames.size = m.frames.size + 1
  callers : ∀ id < m.frames.size, m'.frame? id = m.frame? id
  below : ∀ i < func, m'.slot i = m.slot i
  /-- the function may have been moved up for its extra arguments -/
  moved : m'.current.func = func + m'.current.shift
  above : m'.current.func < m'.top
  room : m'.HasRoom

namespace InCall

variable {m m' m'' : Machine} {func : Nat}

theorem currentId (h : m.InCall func m') : m'.currentId = m.frames.size := by
  rw [Machine.currentId, h.size, Nat.add_sub_cancel]

/-- The frame of the call. -/
theorem frame?_current (h : m.InCall func m') :
    m'.frame? m'.currentId = some m'.current := by
  have hlt : m'.currentId < m'.frames.size := by
    rw [h.currentId, h.size]
    exact Nat.lt_succ_self _
  rw [Machine.current, frameAt, frame?, Array.getElem?_eq_getElem hlt, Option.getD_some]

theorem func_le (h : m.InCall func m') : func ≤ m'.current.func := by
  rw [h.moved]
  exact Nat.le_add_right func _

/-- What leaves the frames and the slots below the call alone keeps the call going. -/
theorem of_frames_eq (h : m.InCall func m') (hframes : m''.frames = m'.frames)
    (hbelow : ∀ i < func, m''.slot i = m'.slot i) (habove : m'.current.func < m''.top)
    (hroom : m''.HasRoom) : m.InCall func m'' ∧ m''.current = m'.current := by
  have hframe : ∀ id, m''.frame? id = m'.frame? id := by
    intro id
    rw [frame?, hframes, frame?]
  have hcurrent : m''.current = m'.current := by
    rw [Machine.current, Machine.currentId, frameAt, hframes]
    rfl
  refine ⟨⟨?_, fun id hid => ?_, fun i hi => ?_, ?_, ?_, hroom⟩, hcurrent⟩
  · rw [hframes]
    exact h.size
  · rw [hframe]
    exact h.callers id hid
  · rw [hbelow i hi]
    exact h.below i hi
  · rw [hcurrent]
    exact h.moved
  · rw [hcurrent]
    exact habove

end InCall

/-! ## Entering -/

theorem frames_enterScript (m : Machine) (proto : Proto) (func : Nat) (flags : CallFlags) :
    (m.enterScript proto func flags).frames = m.frames.push
      { Frame.script func (func + 1 + proto.maxStack) (some m.currentId) with flags } := by
  simp only [enterScript, frames_growTo, Machine.currentId, frames_pushAll, ensureStack]

theorem top_enterScript (m : Machine) (proto : Proto) (func : Nat) (flags : CallFlags) :
    (m.enterScript proto func flags).top = m.top + (proto.paramCount - m.above func) := by
  simp only [enterScript, top_growTo, top_pushAll, List.length_replicate, ensureStack]

/-- The frame of a function that was entered. -/
theorem current_enterScript (m : Machine) (proto : Proto) (func : Nat) (flags : CallFlags) :
    (m.enterScript proto func flags).current =
      { Frame.script func (func + 1 + proto.maxStack) (some m.currentId) with flags } := by
  refine current_eq ?_
  rw [frame?, Machine.currentId, frames_enterScript, Array.size_push, Nat.add_sub_cancel,
    Array.getElem?_push_size]

/-- A function is entered in its slot. -/
theorem inCall_enterScript (m : Machine) (proto : Proto) {func : Nat} (hfunc : func < m.top)
    (flags : CallFlags) : m.InCall func (m.enterScript proto func flags) where
  size := by rw [frames_enterScript, Array.size_push]
  callers id hid := by
    rw [frame?, frames_enterScript, Array.getElem?_push_lt hid, frame?,
      Array.getElem?_eq_getElem hid]
  below i hi := m.slot_enterScript_of_lt proto func flags (Nat.lt_trans hi hfunc)
  moved := by
    rw [current_enterScript]
    rfl
  above := by
    rw [current_enterScript, top_enterScript]
    exact Nat.lt_of_lt_of_le hfunc (Nat.le_add_right _ _)
  room := by
    simp only [HasRoom, enterScript]
    exact ((hasRoom_ensureStack m _).pushAll _).growTo _

/-! ## Setting extra arguments apart -/

theorem top_liftValue (m : Machine) (i : Nat) : (m.liftValue i).top = m.top + 1 := rfl

theorem top_liftValues (slots : List Nat) (m : Machine) :
    (slots.foldl liftValue m).top = m.top + slots.length := by
  induction slots generalizing m with
  | nil => rfl
  | cons i slots ih =>
    rw [List.foldl_cons, ih, top_liftValue, List.length_cons]
    omega

theorem top_adjustVarargs (m : Machine) (fixed : Nat) :
    (m.adjustVarargs fixed).top = m.top + 1 + fixed := by
  simp only [adjustVarargs, top_growTo, top_modifyFrame, top_liftValues, List.length_range',
    top_push, ensureStack]

theorem hasRoom_adjustVarargs (m : Machine) (fixed : Nat) : (m.adjustVarargs fixed).HasRoom :=
  ((HasRoom.liftValues (room_push _ _) _ : HasRoom _)).growTo _

/-- The slots up to that of the function are left alone, as far as the stack goes. -/
theorem slot_adjustVarargs_of_le (m : Machine) {i : Nat} (hi : i ≤ m.current.func)
    (htop : i < m.top) (fixed : Nat) : (m.adjustVarargs fixed).slot i = m.slot i := by
  have hmem : i ∉ List.range' (m.current.func + 1) fixed := by
    rw [List.mem_range'_1]
    omega
  have hlift := slot_foldl_liftValue (List.range' (m.current.func + 1) fixed)
    ((m.ensureStack (((m.frameProto? m.currentId).map Proto.maxStack).getD 0 + 1)).push
      (m.slot m.current.func)) (j := i) (Nat.lt_succ_of_lt htop)
  rw [if_neg hmem] at hlift
  have hpush := slot_push_of_ne
    (m.ensureStack (((m.frameProto? m.currentId).map Proto.maxStack).getD 0 + 1)) (i := i)
    (Nat.ne_of_gt htop) (m.slot m.current.func)
  unfold adjustVarargs
  simp only [slot_growTo, slot_modifyFrame]
  exact (hlift.trans hpush).trans (slot_growTo m _ i)

/-- A function that was not moved yet is moved above its arguments. -/
theorem InCall.adjustVarargs {m m' : Machine} {func : Nat} (h : m.InCall func m') {p : Progress}
    (hscript : m'.current.progress? = some p) (hshift : p.shift = 0) (fixed : Nat) :
    m.InCall func (m'.adjustVarargs fixed) := by
  have hplace : m'.current.func = func := by
    rw [h.moved, Frame.shift, hscript, Option.map_some, Option.getD_some, hshift, Nat.add_zero]
  have hcurrent : (m'.adjustVarargs fixed).current =
      adjustedFrame (m'.above m'.current.func) fixed m'.current := by
    refine current_eq ?_
    rw [currentId_adjustVarargs]
    exact frame?_adjustVarargs h.frame?_current fixed
  have hmoved : (adjustedFrame (m'.above m'.current.func) fixed m'.current).shift =
      m'.above m'.current.func + 1 := by
    rw [Frame.shift, progress?_adjustedFrame hscript, Option.map_some, Option.getD_some]
  have habove := h.above
  refine ⟨?_, fun id hid => ?_, fun i hi => ?_, ?_, ?_, ?_⟩
  · rw [frames_adjustVarargs, Array.size_modify]
    exact h.size
  · rw [frame?, frames_adjustVarargs, Array.getElem?_modify, if_neg, ← frame?]
    · exact h.callers id hid
    · rw [h.currentId]
      exact Nat.ne_of_gt hid
  · have hle : i < m'.current.func := Nat.lt_of_lt_of_le hi h.func_le
    rw [slot_adjustVarargs_of_le m' (Nat.le_of_lt hle) (Nat.lt_trans hle habove)]
    exact h.below i hi
  · rw [hcurrent, hmoved, ← hplace]
    rfl
  · rw [hcurrent, top_adjustVarargs]
    change m'.current.func + (m'.above m'.current.func + 1) < m'.top + 1 + fixed
    rw [Machine.above]
    omega
  · exact hasRoom_adjustVarargs m' fixed

/-! ## Working above the base -/

/-- What a function does to the stack. -/
inductive StackOp where
  | push (v : Value)
  | pop

def perform (m : Machine) : StackOp → Machine
  | .push v => m.push v
  | .pop => m.drop

def performAll (m : Machine) (ops : List StackOp) : Machine := ops.foldl perform m

/-- The top never sinks below a slot. -/
def StaysAbove (base : Nat) : Machine → List StackOp → Prop
  | m, [] => base ≤ m.top
  | m, op :: ops => base ≤ m.top ∧ StaysAbove base (m.perform op) ops

instance decidableStaysAbove (base : Nat) :
    (m : Machine) → (ops : List StackOp) → Decidable (StaysAbove base m ops)
  | m, [] => inferInstanceAs (Decidable (base ≤ m.top))
  | m, op :: ops =>
    have := decidableStaysAbove base (m.perform op) ops
    inferInstanceAs (Decidable (base ≤ m.top ∧ StaysAbove base (m.perform op) ops))

theorem StaysAbove.base_le {base : Nat} {m : Machine} {ops : List StackOp}
    (h : StaysAbove base m ops) : base ≤ m.top := by
  cases ops with
  | nil => exact h
  | cons op ops => exact h.1

namespace InCall

variable {m m' m'' : Machine} {func : Nat}

/-- The step lemma: an operation above the base. -/
theorem perform (h : m.InCall func m') {op : StackOp}
    (hbase : m'.current.base ≤ (m'.perform op).top) :
    m.InCall func (m'.perform op) ∧ (m'.perform op).current = m'.current := by
  have hfunc := h.func_le
  have habove := h.above
  cases op with
  | push v =>
    refine h.of_frames_eq rfl (fun i hi => ?_) (Nat.lt_succ_of_lt habove) (room_push m' v)
    exact slot_push_of_ne m' (by omega) v
  | pop =>
    have hpos : m'.top ≠ 0 := Nat.ne_of_gt (Nat.zero_lt_of_lt habove)
    have hdrop : m'.drop = { m'.put (m'.top - 1) .nil with top := m'.top - 1 } := if_neg hpos
    change m'.current.func + 1 ≤ m'.drop.top at hbase
    show m.InCall func m'.drop ∧ m'.drop.current = m'.current
    refine h.of_frames_eq ?_ (fun i hi => ?_) hbase h.room.drop
    · rw [hdrop]
      rfl
    · rw [hdrop] at hbase ⊢
      change m'.current.func + 1 ≤ m'.top - 1 at hbase
      exact slot_put_of_ne m' (by omega) .nil

/-- The run lemma: any number of operations above the base. -/
theorem performAll {ops : List StackOp} (h : m.InCall func m')
    (hstays : StaysAbove m'.current.base m' ops) :
    m.InCall func (m'.performAll ops) ∧ (m'.performAll ops).current = m'.current := by
  induction ops generalizing m' with
  | nil => exact ⟨h, rfl⟩
  | cons op ops ih =>
    obtain ⟨hnext, hcurrent⟩ := h.perform hstays.2.base_le
    have hrest := hstays.2
    rw [← hcurrent] at hrest
    obtain ⟨hdone, hsame⟩ := ih hnext hrest
    exact ⟨hdone, hsame.trans hcurrent⟩

end InCall

/-! ## Leaving -/

/-- The second machine is the first one after an event was reported in the current frame. -/
structure Reported (m m' : Machine) : Prop extends m.Undisturbed m' where
  others : ∀ id, id ≠ m.currentId → m'.frame? id = m.frame? id
  room : m.stack.size ≤ m'.stack.size

theorem Reported.refl (m : Machine) : m.Reported m := ⟨.refl m, fun _ _ => rfl, Nat.le_refl _⟩

namespace InCall

variable {m m' m'' : Machine} {func : Nat}

/-- A report keeps the call going. -/
theorem of_reported (h : m.InCall func m') (hr : m'.Reported m'') :
    m.InCall func m'' ∧ m''.current.func = m'.current.func := by
  obtain ⟨f, hf, heq⟩ := hr.exists_frame h.frame?_current
  obtain ⟨hfunc, hcode, -⟩ := Frame.eq_of_unreported_eq heq
  have hcurrent : m''.current = f := by
    refine current_eq ?_
    rw [hr.toUndisturbed.currentId]
    exact hf
  have hshift : f.shift = m'.current.shift := by
    rw [Frame.shift, Frame.shift, Frame.progress?, Frame.progress?, hcode]
  refine ⟨⟨?_, fun id hid => ?_, fun i hi => ?_, ?_, ?_, ?_⟩, ?_⟩
  · rw [hr.size]
    exact h.size
  · rw [hr.others id (by rw [h.currentId]; exact Nat.ne_of_lt hid)]
    exact h.callers id hid
  · rw [hr.slot]
    exact h.below i hi
  · rw [hcurrent, hfunc, hshift]
    exact h.moved
  · rw [hcurrent, hfunc, hr.top]
    exact h.above
  · rw [HasRoom, hr.top]
    exact Nat.le_trans h.room hr.room
  · rw [hcurrent, hfunc]

/-- Leaving the frame gives back the machine that made the call, with the results in place of the
function and its arguments. -/
theorem leave (h : m.InCall func m') {results : Nat}
    (hresults : m'.current.base + results ≤ m'.top) :
    (m'.leave m'.currentId results).frames = m.frames ∧
      (m'.leave m'.currentId results).top = func + results ∧
      (∀ i < results, (m'.leave m'.currentId results).slot (func + i) =
        m'.slot (m'.top - results + i)) ∧
      ∀ i < func, (m'.leave m'.currentId results).slot i = m.slot i := by
  have hfunc := h.func_le
  have hroom := h.room
  change m'.current.func + 1 + results ≤ m'.top at hresults
  have htarget : (m'.frameAt m'.currentId).func - (m'.frameAt m'.currentId).shift = func := by
    change m'.current.func - m'.current.shift = func
    rw [h.moved, Nat.add_sub_cancel]
  have hslot : ∀ j < func + results, (m'.leave m'.currentId results).slot j =
      if func ≤ j ∧ j < func + results then m'.slot (m'.top - results + (j - func))
      else m'.slot j := by
    intro j hj
    have hdown : func ≤ m'.top - results := by omega
    have hfits : func + results ≤ m'.stack.size := by
      rw [HasRoom] at hroom
      omega
    have hcopy := slot_copyDown m' hdown hfits j
    have htop := slot_setTop_of_lt (m'.copyDown (m'.top - results) func results) hj
    rw [Machine.leave, htarget]
    exact htop.trans hcopy
  refine ⟨?_, ?_, fun i hi => ?_, fun i hi => ?_⟩
  · have hpop : (m'.leave m'.currentId results).frames = m'.frames.pop := rfl
    rw [hpop]
    refine Array.ext (by rw [Array.size_pop, h.size, Nat.add_sub_cancel]) fun id hid hid' => ?_
    have hsame := h.callers id hid'
    rw [frame?, frame?, Array.getElem?_eq_getElem hid', Array.getElem?_eq_getElem
      (by rw [h.size]; exact Nat.lt_succ_of_lt hid')] at hsame
    rw [Array.getElem_pop]
    exact Option.some.inj hsame
  · rw [Machine.leave, htarget]
    rfl
  · rw [hslot _ (by omega), if_pos (by omega), Nat.add_sub_cancel_left]
  · rw [hslot _ (by omega), if_neg (by omega)]
    exact h.below i hi

end InCall

end Machine

end VmInspect
