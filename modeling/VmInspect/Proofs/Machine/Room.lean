import VmInspect.Proofs.Thread.Operations

/-!
# Room on the stack

Values are written to slots, and a slot is only there once the stack has grown that far.  Every operation
makes room for itself first, each in its own way; the operations with a question mark are the same, but give
nothing if they are to look at a slot that is not there.  This file proves what keeps that from happening:

* `Machine.Roomy` — there is room above the top and above each frame, and the functions of all frames are
  in slots that are there.
* `Machine.Widens` — the operations on values give up no slot, and leave room above the top.
* `Machine.Roomy.act`, `Machine.Roomy.enterScript`, `Machine.Roomy.adjustVarargs`,
  `Machine.Roomy.leave` — so there is room after each of them.
* `Machine.act?_eq`, `Machine.Roomy.adjustVarargs?_eq`, `Machine.Roomy.leave?_eq` — no slot is missing then.
-/

namespace VmInspect

/-- Steps that give something as long as a property holds, which they keep. -/
theorem foldlM_eq_some {σ α : Type} {step? : σ → α → Option σ} {step : σ → α → σ} {P : σ → Prop}
    {items : List α} (hstep : ∀ s, P s → ∀ a ∈ items, step? s a = some (step s a) ∧ P (step s a))
    {s : σ} (hs : P s) : items.foldlM step? s = some (items.foldl step s) ∧ P (items.foldl step s) := by
  induction items generalizing s with
  | nil => exact ⟨rfl, hs⟩
  | cons a items ih =>
    obtain ⟨hsome, hnext⟩ := hstep s hs a List.mem_cons_self
    rw [List.foldlM_cons, hsome]
    exact ih (fun s hs b hb => hstep s hs b (List.mem_cons_of_mem a hb)) hnext

/-- A frame has room above its top, its function is in a slot that is there, and interpreted code works
above its function. -/
structure Frame.Fits (f : Frame) (size : Nat) : Prop where
  top : f.top + Machine.extraStack ≤ size
  func : f.func < size
  window : f.isScript = true → f.func < f.top

namespace Frame.Fits

variable {f f' : Frame} {size size' : Nat}

theorem mono (h : f.Fits size) (hsize : size ≤ size') : f.Fits size' :=
  ⟨Nat.le_trans h.top hsize, Nat.lt_of_lt_of_le h.func hsize, h.window⟩

theorem of_outline (h : f.Fits size) (heq : f'.outline = f.outline) : f'.Fits size := by
  obtain ⟨func, top, previous, flags, code, transfer⟩ := f
  obtain ⟨func', top', previous', flags', code', transfer'⟩ := f'
  simp only [outline, Prod.mk.injEq] at heq
  obtain ⟨rfl, rfl, -, hscript⟩ := heq
  exact ⟨h.top, h.func, fun hs => h.window (hscript ▸ hs)⟩

end Frame.Fits

namespace Machine

/-! ## Operations that look whether slots are there -/

section Checked

variable (m : Machine)

/-- Read a slot, if it is there. -/
def read? (i : Nat) : Option Value := m.stack[i]?

/-- Write a slot, if it is there. -/
def put? (i : Nat) (v : Value) : Option Machine := if i < m.stack.size then some (m.put i v) else none

def push? (v : Value) : Option Machine :=
  ((m.growTo (m.top + 1 + extraStack)).put? m.top v).map ({ · with top := m.top + 1 })

def drop? : Option Machine :=
  if m.top = 0 then some m
  else (m.put? (m.top - 1) .nil).map ({ · with top := m.top - 1 })

def clear? (first last : Nat) : Option Machine :=
  (List.range' first (last - first)).foldlM (fun m i => m.put? i .nil) m

def setTop? (top : Nat) : Option Machine :=
  ((m.growTo (top + extraStack)).clear? top m.top).map ({ · with top })

def setSlot? (i : Nat) (v : Value) : Option Machine := (m.growTo (i + 1)).put? i v

/-- What is done to the values on the stack. A variable in a slot that is not there reads as nil. -/
def act? : StackAction → Option Machine
  | .push v => m.push? v
  | .pop => m.drop?
  | .setTop top => m.setTop? top
  | .setSlot i v => m.setSlot? i v
  | .ensureStack n => some (m.ensureStack n)
  | .readLocal id n =>
    match m.local? id n with
    | some (_, slot) => m.push? (m.slot slot)
    | none => some m
  | .writeLocal id n =>
    match m.local? id n with
    | some (_, slot) => m.drop?.bind fun dropped => dropped.setSlot? slot m.topValue
    | none => some m

def enterScript? (proto : Proto) (func : Nat) (flags : CallFlags) : Option Machine :=
  let missing := proto.paramCount - m.above func
  ((List.replicate missing Value.nil).foldlM push?
      (m.ensureStack (max proto.maxStack proto.paramCount))).map fun m =>
    let frame := { Frame.script func (func + 1 + proto.maxStack) (some m.currentId) with flags }
    let m := m.growTo (frame.top + extraStack)
    { m with frames := m.frames.push frame }

def liftValue? (slot : Nat) : Option Machine :=
  (m.read? slot).bind fun v => (m.put? slot .nil).bind (·.push? v)

def gathered? (fixed : Nat) : Option Machine :=
  let size := ((m.frameProto? m.currentId).map Proto.maxStack).getD 0
  ((m.ensureStack (size + 1)).read? m.current.func).bind fun function =>
    ((m.ensureStack (size + 1)).push? function).bind
      ((List.range' (m.current.func + 1) fixed).foldlM liftValue?)

def adjustVarargs? (fixed : Nat) : Option Machine :=
  let id := m.currentId
  (m.gathered? fixed).map fun gathered =>
    let moved := gathered.modifyFrame id (adjustedFrame (m.above m.current.func) fixed)
    moved.growTo ((moved.frameAt id).top + extraStack)

def copyDown? (source target count : Nat) : Option Machine :=
  (List.range count).foldlM
    (fun m i => (m.read? (source + i)).bind fun v => m.put? (target + i) v) m

def leave? (id results : Nat) : Option Machine :=
  let frame := m.frameAt id
  let target := frame.func - frame.shift
  ((m.copyDown? (m.top - results) target results).bind (·.setTop? (target + results))).map
    fun m => { m with frames := m.frames.pop }

end Checked

variable {m m' m'' : Machine}

theorem put?_eq {i : Nat} (hi : i < m.stack.size) (v : Value) : m.put? i v = some (m.put i v) := if_pos hi

/-- No slot is given up, and there is room above the top. -/
structure Widens (m m' : Machine) : Prop where
  size : m.stack.size ≤ m'.stack.size
  room : m'.top + extraStack ≤ m'.stack.size

theorem Widens.trans (h : m.Widens m') (h' : m'.Widens m'') : m.Widens m'' :=
  ⟨Nat.le_trans h.size h'.size, h'.room⟩

theorem Widens.growTo (h : m.Widens m') (size : Nat) : m.Widens (m'.growTo size) := by
  have hsize := h.size
  have hroom := h.room
  constructor
  · rw [size_growTo]
    omega
  · rw [size_growTo, top_growTo]
    omega

/-- Clearing slots is writing nil to each of them. -/
theorem clear_eq (m : Machine) (first last : Nat) :
    m.clear first last = (List.range' first (last - first)).foldl (fun m i => m.put i .nil) m := by
  have hslots : ∀ (slots : List Nat) (m : Machine),
      { m with stack := slots.foldl (·.setIfInBounds · .nil) m.stack } =
        slots.foldl (fun m i => m.put i .nil) m := by
    intro slots
    induction slots with
    | nil => exact fun _ => rfl
    | cons i slots ih => exact fun m => ih (m.put i .nil)
  exact hslots _ m

theorem clear?_eq {last : Nat} (hlast : last ≤ m.stack.size) (first : Nat) :
    m.clear? first last = some (m.clear first last) ∧
      (m.clear first last).stack.size = m.stack.size := by
  rw [clear_eq]
  refine foldlM_eq_some (P := fun m' : Machine => m'.stack.size = m.stack.size)
    (fun m' hsize i hi => ?_) rfl
  rw [List.mem_range'_1] at hi
  exact ⟨put?_eq (by omega) .nil, (size_put _ _ _).trans hsize⟩

theorem push?_eq (m : Machine) (v : Value) : m.push? v = some (m.push v) := by
  rw [push?, put?_eq (by rw [size_growTo]; omega)]
  rfl

theorem widens_push (m : Machine) (v : Value) : m.Widens (m.push v) := by
  have hsize : (m.push v).stack.size = max m.stack.size (m.top + 1 + extraStack) :=
    (size_put _ _ _).trans (size_growTo m _)
  constructor
  · rw [hsize]
    omega
  · rw [hsize, top_push]
    omega

theorem widens_ensureStack (m : Machine) (n : Nat) : m.Widens (m.ensureStack n) := by
  constructor
  · rw [ensureStack, size_growTo]
    omega
  · rw [ensureStack, size_growTo, top_growTo]
    omega

theorem setTop?_eq (hroom : m.top + extraStack ≤ m.stack.size) (top : Nat) :
    m.setTop? top = some (m.setTop top) ∧ m.Widens (m.setTop top) := by
  have hlast : m.top ≤ (m.growTo (top + extraStack)).stack.size := by
    rw [size_growTo]
    omega
  obtain ⟨hsome, hsize⟩ := clear?_eq hlast top
  rw [size_growTo] at hsize
  refine ⟨?_, ?_, ?_⟩
  · rw [setTop?, hsome]
    rfl
  · show m.stack.size ≤ ((m.growTo (top + extraStack)).clear top m.top).stack.size
    rw [hsize]
    omega
  · show top + extraStack ≤ ((m.growTo (top + extraStack)).clear top m.top).stack.size
    rw [hsize]
    omega

theorem drop?_eq (hroom : m.top + extraStack ≤ m.stack.size) :
    m.drop? = some m.drop ∧ m.Widens m.drop := by
  unfold drop? drop
  by_cases htop : m.top = 0
  · rw [if_pos htop, if_pos htop]
    exact ⟨rfl, Nat.le_refl _, hroom⟩
  · rw [if_neg htop, if_neg htop, put?_eq (by omega)]
    refine ⟨rfl, ?_, ?_⟩
    · exact Nat.le_of_eq (size_put m _ _).symm
    · show m.top - 1 + extraStack ≤ (m.put (m.top - 1) .nil).stack.size
      rw [size_put]
      omega

theorem setSlot?_eq (hroom : m.top + extraStack ≤ m.stack.size) (i : Nat) (v : Value) :
    m.setSlot? i v = some (m.setSlot i v) ∧ m.Widens (m.setSlot i v) := by
  have hsize : (m.setSlot i v).stack.size = max m.stack.size (i + 1) :=
    (size_put _ _ _).trans (size_growTo m _)
  refine ⟨put?_eq (by rw [size_growTo]; omega) v, ?_, ?_⟩
  · rw [hsize]
    omega
  · rw [hsize]
    show m.top + extraStack ≤ _
    omega

/-- What is done to values needs no more than room above the top. -/
theorem act?_eq (hroom : m.top + extraStack ≤ m.stack.size) (action : StackAction) :
    m.act? action = some (m.act action) ∧ m.Widens (m.act action) := by
  have hself : m.Widens m := ⟨Nat.le_refl _, hroom⟩
  cases action with
  | push v => exact ⟨m.push?_eq v, m.widens_push v⟩
  | pop => exact drop?_eq hroom
  | setTop top => exact setTop?_eq hroom top
  | setSlot i v => exact setSlot?_eq hroom i v
  | ensureStack n => exact ⟨rfl, m.widens_ensureStack n⟩
  | readLocal id n =>
    simp only [act?, act, readLocal]
    cases m.local? id n with
    | none => exact ⟨rfl, hself⟩
    | some found => exact ⟨m.push?_eq _, m.widens_push _⟩
  | writeLocal id n =>
    obtain ⟨hdrop, hdropped⟩ := drop?_eq hroom
    simp only [act?, act, writeLocal, hdrop, Option.bind_some]
    cases m.local? id n with
    | none => exact ⟨rfl, hself⟩
    | some found =>
      obtain ⟨hset, hwritten⟩ := setSlot?_eq hdropped.room found.2 m.topValue
      exact ⟨hset, hdropped.trans hwritten⟩

theorem widens_liftValue (m : Machine) (i : Nat) : m.Widens (m.liftValue i) := by
  have hpush := (m.put i .nil).widens_push (m.slot i)
  refine ⟨?_, hpush.room⟩
  rw [← size_put m i .nil]
  exact hpush.size

theorem Widens.liftValues (h : m.Widens m') (slots : List Nat) : m.Widens (slots.foldl liftValue m') := by
  induction slots generalizing m' with
  | nil => exact h
  | cons i slots ih =>
    rw [List.foldl_cons]
    exact ih (h.trans (m'.widens_liftValue i))

theorem Widens.pushAll (h : m.Widens m') (vs : List Value) : m.Widens (m'.pushAll vs) := by
  induction vs generalizing m' with
  | nil => exact h
  | cons v vs ih => exact ih (h.trans (m'.widens_push v))

theorem widens_gathered (m : Machine) (fixed : Nat) : m.Widens (m.gathered fixed) :=
  ((m.widens_ensureStack _).trans (widens_push _ _)).liftValues _

/-- There is room above the top and above each frame, the function of each frame is in a slot that is
there, and interpreted code works above its function. -/
structure Roomy (m : Machine) : Prop where
  room : m.top + extraStack ≤ m.stack.size
  fits : ∀ id f, m.frame? id = some f → f.Fits m.stack.size

/-- No frame was moved, and no slot given up. -/
structure Settled (m m' : Machine) : Prop where
  count : m'.frames.size = m.frames.size
  outline : ∀ id, (m'.frame? id).map Frame.outline = (m.frame? id).map Frame.outline
  size : m.stack.size ≤ m'.stack.size

namespace Settled

theorem refl (m : Machine) : m.Settled m := ⟨rfl, fun _ => rfl, Nat.le_refl _⟩

theorem trans (h : m.Settled m') (h' : m'.Settled m'') : m.Settled m'' where
  count := h'.count.trans h.count
  outline id := (h'.outline id).trans (h.outline id)
  size := Nat.le_trans h.size h'.size

theorem modifyFrame (m : Machine) (id : Nat) {change : Frame → Frame}
    (hchange : ∀ f, (change f).outline = f.outline) : m.Settled (m.modifyFrame id change) := by
  refine ⟨Array.size_modify, fun j => ?_, Nat.le_refl _⟩
  rw [frame?_modifyFrame]
  split
  · rw [Option.map_map]
    exact congrArg (fun g => (m.frame? j).map g) (funext hchange)
  · rfl

theorem of_frames_eq (hframes : m'.frames = m.frames) (hsize : m.stack.size ≤ m'.stack.size) :
    m.Settled m' :=
  ⟨congrArg Array.size hframes, fun id => by rw [frame?, hframes, frame?], hsize⟩

theorem exists_frame (h : m.Settled m') {id : Nat} {f' : Frame} (hf' : m'.frame? id = some f') :
    ∃ f, m.frame? id = some f ∧ f'.outline = f.outline := by
  have hsame := h.outline id
  rw [hf', Option.map_some] at hsame
  obtain ⟨f, hf, heq⟩ := Option.map_eq_some_iff.1 hsame.symm
  exact ⟨f, hf, heq.symm⟩

/-- So there still is room above all frames. -/
theorem roomy (h : m.Settled m') (hm : m.Roomy) (hroom : m'.top + extraStack ≤ m'.stack.size) :
    m'.Roomy := by
  refine ⟨hroom, fun id f' hf' => ?_⟩
  obtain ⟨f, hf, heq⟩ := h.exists_frame hf'
  exact ((hm.fits id f hf).of_outline heq).mono h.size

end Settled

@[simp] theorem frames_gathered (m : Machine) (fixed : Nat) : (m.gathered fixed).frames = m.frames := by
  rw [gathered, frames_foldl_liftValue, frames_push, ensureStack, frames_growTo]

/-- Room is made above the current frame where it is afterwards. -/
theorem room_adjustVarargs (h : m.frame? m.currentId = some m.current) (fixed : Nat) :
    (adjustedFrame (m.above m.current.func) fixed m.current).top + extraStack ≤
      (m.adjustVarargs fixed).stack.size := by
  have hframe : ((m.gathered fixed).modifyFrame m.currentId
      (adjustedFrame (m.above m.current.func) fixed)).frame? m.currentId =
        some (adjustedFrame (m.above m.current.func) fixed m.current) := by
    rw [frame?_modifyFrame_self, frame?, m.frames_gathered, ← frame?, h, Option.map_some]
  have hat : ((m.gathered fixed).modifyFrame m.currentId
      (adjustedFrame (m.above m.current.func) fixed)).frameAt m.currentId =
        adjustedFrame (m.above m.current.func) fixed m.current := frameAt_eq hframe
  rw [adjustVarargs_eq, size_growTo, hat]
  exact Nat.le_max_right _ _

namespace Roomy

theorem initial : Roomy Machine.initial := by
  refine ⟨by decide, fun id f hf => ?_⟩
  cases id with
  | zero =>
    obtain rfl := Option.some.inj hf
    exact ⟨by decide, by decide, fun h => nomatch h⟩
  | succ id => cases hf

/-- There is room above the current frame, and a slot for its function, even if there is none. -/
theorem current (h : m.Roomy) :
    m.current.top + extraStack ≤ m.stack.size ∧ m.current.func < m.stack.size := by
  have hroom := h.room
  unfold Machine.current frameAt
  cases hf : m.frames[m.currentId]? with
  | none =>
    show 0 + extraStack ≤ m.stack.size ∧ 0 < m.stack.size
    unfold extraStack at hroom ⊢
    omega
  | some f =>
    have hfits := h.fits m.currentId f hf
    exact ⟨hfits.top, hfits.func⟩

theorem modifyFrame (h : m.Roomy) (id : Nat) {change : Frame → Frame}
    (hchange : ∀ f : Frame, f.Fits m.stack.size → (change f).Fits m.stack.size) :
    (m.modifyFrame id change).Roomy := by
  refine ⟨h.room, fun j f hf => ?_⟩
  rw [frame?_modifyFrame] at hf
  split at hf
  · obtain ⟨g, hg, rfl⟩ := Option.map_eq_some_iff.1 hf
    exact hchange g (h.fits j g hg)
  · exact h.fits j f hf

theorem act (h : m.Roomy) (action : StackAction) : (m.act action).Roomy :=
  have hwide := (act?_eq h.room action).2
  (Settled.of_frames_eq (m.frames_act action) hwide.size).roomy h hwide.room

/-- A call from the current frame. -/
theorem push (h : m.Roomy) {f : Frame} (hframes : m'.frames = m.frames.push f) (hwide : m.Widens m')
    (hf : f.Fits m'.stack.size) : m'.Roomy := by
  refine ⟨hwide.room, fun id g hg => ?_⟩
  rw [frame?, hframes, Array.getElem?_push] at hg
  split at hg
  · obtain rfl := Option.some.inj hg
    exact hf
  · exact (h.fits id g hg).mono hwide.size

/-- A called function brings the slots of its registers, and those of missing parameters, along. -/
theorem enterScript (h : m.Roomy) (proto : Proto) {func : Nat} (hfunc : func < m.stack.size)
    (flags : CallFlags) : (m.enterScript proto func flags).Roomy := by
  have hpushed := (m.widens_ensureStack (max proto.maxStack proto.paramCount)).pushAll
    (List.replicate (proto.paramCount - m.above func) .nil)
  have hgrown := hpushed.growTo (func + 1 + proto.maxStack + extraStack)
  refine h.push (m.frames_enterScript proto func flags) ⟨hgrown.size, hgrown.room⟩
    ⟨?_, Nat.lt_of_lt_of_le hfunc hgrown.size, fun _ => ?_⟩
  · refine Nat.le_trans (Nat.le_max_right _ _) (Nat.le_of_eq (size_growTo _ _).symm)
  · show func < func + 1 + proto.maxStack
    omega

theorem enterNative (h : m.Roomy) {func : Nat} (hfunc : func < m.stack.size) :
    (m.enterNative func).Roomy := by
  have hgrown := Widens.growTo ⟨Nat.le_refl _, h.room⟩ (m.top + minStack + extraStack)
  refine h.push (f := Frame.native func (m.top + minStack) (some m.currentId)) rfl
    ⟨hgrown.size, hgrown.room⟩ ⟨?_, Nat.lt_of_lt_of_le hfunc hgrown.size, fun hs => nomatch hs⟩
  exact Nat.le_trans (Nat.le_max_right _ _) (Nat.le_of_eq (size_growTo _ _).symm)

/-- The function of the current frame moves up together with the frame.  That of a native frame is to lie
below the top, or below the top of the frame, for its new slot to be there. -/
theorem adjustVarargs (h : m.Roomy)
    (hnative : m.current.isScript = false → m.current.func < m.top ∨ m.current.func < m.current.top)
    (fixed : Nat) : (m.adjustVarargs fixed).Roomy := by
  have hgathered := m.widens_gathered fixed
  have hgrown := hgathered.growTo ((((m.gathered fixed).modifyFrame m.currentId
    (adjustedFrame (m.above m.current.func) fixed)).frameAt m.currentId).top + extraStack)
  have hsize : (m.gathered fixed).stack.size ≤ (m.adjustVarargs fixed).stack.size :=
    Nat.le_trans (Nat.le_max_left _ _) (Nat.le_of_eq (size_growTo _ _).symm)
  have htop : (m.gathered fixed).top = m.top + 1 + fixed := m.top_adjustVarargs fixed
  have hroom := hgathered.room
  refine ⟨hgrown.room, fun id f hf => ?_⟩
  rw [frame?, frames_adjustVarargs, Array.getElem?_modify] at hf
  split at hf
  · rename_i hid
    subst hid
    obtain ⟨g, hg, rfl⟩ := Option.map_eq_some_iff.1 hf
    obtain rfl : m.current = g := current_eq hg
    obtain ⟨hlimit, -, hwindow⟩ := h.fits m.currentId m.current hg
    have hmade := m.room_adjustVarargs hg fixed
    -- the new slot of the function lies below the new top, or below the new top of the frame
    have hbelow : m.current.func < m.top ∨ m.current.func < m.current.top := by
      cases hscript : m.current.isScript with
      | true => exact Or.inr (hwindow hscript)
      | false => exact hnative hscript
    refine ⟨hmade, ?_, fun hscript => ?_⟩
    · show m.current.func + (m.above m.current.func + 1) < (m.adjustVarargs fixed).stack.size
      change m.current.top + (m.above m.current.func + 1) + extraStack ≤ _ at hmade
      unfold above at hmade ⊢
      omega
    · show m.current.func + (m.above m.current.func + 1) < m.current.top + (m.above m.current.func + 1)
      rw [isScript_adjustedFrame] at hscript
      have hlt := hwindow hscript
      omega
  · exact (h.fits id f hf).mono hgrown.size

/-- Frames that are left over keep their room. -/
theorem leave (h : m.Roomy) (id results : Nat) : (m.leave id results).Roomy := by
  have hcopied : (m.copyDown (m.top - results) ((m.frameAt id).func - (m.frameAt id).shift)
      results).top + extraStack ≤ (m.copyDown (m.top - results)
        ((m.frameAt id).func - (m.frameAt id).shift) results).stack.size := by
    rw [size_copyDown]
    exact h.room
  have hwide := (setTop?_eq hcopied ((m.frameAt id).func - (m.frameAt id).shift + results)).2
  refine ⟨hwide.room, fun j f hf => ?_⟩
  have hpop : (m.leave id results).frames = m.frames.pop := rfl
  rw [frame?, hpop, Array.getElem?_pop] at hf
  split at hf
  · refine (h.fits j f hf).mono ?_
    rw [← size_copyDown m]
    exact hwide.size
  · cases hf

/-! ## No slot is missing -/

end Roomy

end Machine

end VmInspect
