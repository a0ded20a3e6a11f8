import VmInspect.Proofs.Machine.Nesting
import VmInspect.Proofs.Thread.Entry

/-!
# Watching a run does not change it

A hook that logs sees a frame run, and the run is the same as without it.  This file proves it in two
parts: where a run goes is a matter of the code alone, and what it leaves behind is a matter of where the
function was called.

* `Proto.walk` — the way through the code from a place.
* `Machine.LeavesAlike` — leaving the current frame comes to the same in both machines.
* `Thread.leavesAlike_watch`, `Thread.Runs.leavesAlike_execute` — looks at instructions, with all that
  they report, and the instructions themselves make no difference to that.
* `Thread.Proceeds.runFrom_walks` — so a run goes its way and, when it returns, leaves the frame that it
  found.
* `Thread.runFrame_unperturbed` — so threads that differ only in their hooks run alike.
-/

namespace VmInspect

/-- The way through the code from a place for a number of steps, and how it ends. -/
def Proto.walk (p : Proto) : Nat → Nat → List Nat × RunEnd
  | 0, _ => ([], .outOfSteps)
  | steps + 1, pc =>
    match p.code[pc]? with
    | none => ([], .outOfCode)
    | some i =>
      if Thread.isReturn i then ([pc], .returned)
      else
        let rest := p.walk steps (Thread.nextPlace pc i)
        (pc :: rest.1, rest.2)

namespace Machine

/-! ## What leaving a frame comes to -/

/-- The slot where the function of the current frame was called, and where its results go. -/
def home (m : Machine) : Nat := m.current.func - m.current.shift

/-- Leaving the current frame comes to the same in both machines: they have as many frames, and the same
values below the slot where the results go. -/
structure LeavesAlike (m m' : Machine) : Prop where
  size : m'.frames.size = m.frames.size
  home : m'.home = m.home
  below : ∀ i < m.home, m'.slot i = m.slot i

namespace LeavesAlike

variable {m m' m'' : Machine}

theorem refl (m : Machine) : m.LeavesAlike m := ⟨rfl, rfl, fun _ _ => rfl⟩

theorem trans (h : m.LeavesAlike m') (h' : m'.LeavesAlike m'') : m.LeavesAlike m'' where
  size := h'.size.trans h.size
  home := h'.home.trans h.home
  below i hi := (h'.below i (by rwa [h.home])).trans (h.below i hi)

theorem currentId (h : m.LeavesAlike m') : m'.currentId = m.currentId := by
  rw [Machine.currentId, h.size, Machine.currentId]

/-- Frames that have their functions in the same places, and the same values. -/
theorem of_frames (hsize : m'.frames.size = m.frames.size)
    (hframe : ∀ f, m.frame? m.currentId = some f →
      ∃ f', m'.frame? m.currentId = some f' ∧ f'.func = f.func ∧ f'.shift = f.shift)
    (hslot : ∀ i, m'.slot i = m.slot i) : m.LeavesAlike m' := by
  have hid : m'.currentId = m.currentId := by rw [Machine.currentId, hsize, Machine.currentId]
  refine ⟨hsize, ?_, fun i _ => hslot i⟩
  cases hf : m.frame? m.currentId with
  | none =>
    have hf' : m'.frame? m'.currentId = none := by
      have hout := Array.getElem?_eq_none_iff.1 hf
      rw [hid]
      exact Array.getElem?_eq_none (by rw [hsize]; exact hout)
    rw [frame?] at hf hf'
    simp only [Machine.home, current, frameAt, hf, hf']
  | some f =>
    obtain ⟨f', hf', hfunc, hshift⟩ := hframe f hf
    rw [Machine.home, Machine.home, current_eq hf, current_eq (hid ▸ hf'), hfunc, hshift]

end LeavesAlike

variable {m m' : Machine}

/-- What is noted in the frames makes no difference. -/
theorem Undisturbed.leavesAlike (h : m.Undisturbed m') : m.LeavesAlike m' := by
  refine .of_frames h.size (fun f hf => ?_) h.slot
  obtain ⟨f', hf', heq⟩ := h.exists_frame hf
  obtain ⟨hfunc, -, -, hshift⟩ := Frame.place_of_unreported_eq heq
  exact ⟨f', hf', hfunc, hshift⟩

/-- Nor does a change of a frame that leaves it in its place. -/
theorem leavesAlike_modifyFrame (m : Machine) (id : Nat) {change : Frame → Frame}
    (hfunc : ∀ f, (change f).func = f.func) (hshift : ∀ f, (change f).shift = f.shift) :
    m.LeavesAlike (m.modifyFrame id change) := by
  refine .of_frames (by rw [modifyFrame, Array.size_modify]) (fun f hf => ?_) fun _ => rfl
  rw [frame?_modifyFrame]
  split
  · exact ⟨change f, by rw [hf, Option.map_some], hfunc f, hshift f⟩
  · exact ⟨f, hf, rfl, rfl⟩

/-- A function that was not moved yet has the results go where it stands, also when its extra arguments
are set apart. -/
theorem leavesAlike_adjustVarargs {f : Frame} {p : Progress} (hf : m.frame? m.currentId = some f)
    (hp : f.progress? = some p) (hshift : p.shift = 0) (hfunc : f.func < m.top) (fixed : Nat) :
    m.LeavesAlike (m.adjustVarargs fixed) := by
  have hhome : m.home = f.func := by
    rw [home, current_eq hf, Frame.shift, hp, Option.map_some, Option.getD_some, hshift, Nat.sub_zero]
  have hafter : (m.adjustVarargs fixed).current = adjustedFrame (m.above f.func) fixed f := by
    refine current_eq ?_
    rw [currentId_adjustVarargs]
    exact frame?_adjustVarargs hf fixed
  refine ⟨by rw [frames_adjustVarargs, Array.size_modify], ?_, fun i hi => ?_⟩
  · rw [hhome, home, hafter, Frame.shift, progress?_adjustedFrame hp]
    show f.func + (m.above f.func + 1) - (m.above f.func + 1) = f.func
    exact Nat.add_sub_cancel ..
  · rw [hhome] at hi
    refine slot_adjustVarargs_of_le m ?_ (Nat.lt_trans hi hfunc) fixed
    rw [current_eq hf]
    exact Nat.le_of_lt hi

/-- The second machine is the first one after its current frame was left without results. -/
structure Left (m m' : Machine) : Prop where
  size : m'.frames.size = m.frames.size - 1
  top : m'.top = m.home
  below : ∀ i < m.home, m'.slot i = m.slot i

theorem left_leave (m : Machine) : m.Left (m.leave m.currentId 0) := by
  refine ⟨Array.size_pop, rfl, fun i hi => ?_⟩
  exact slot_leave_of_lt m m.currentId 0 hi

theorem LeavesAlike.left {m'' : Machine} (h : m.LeavesAlike m') (hleft : m'.Left m'') : m.Left m'' where
  size := by rw [hleft.size, h.size]
  top := hleft.top.trans h.home
  below i hi := (hleft.below i (by rwa [h.home])).trans (h.below i hi)

end Machine

namespace Thread

variable {H : Type} {t t' : Thread H (List HookRecord)} {proto : Proto} {id : Nat} {trap : Bool}

/-! ## Looks, instructions and returns -/

theorem shift_setSavedPc (f : Frame) (pc : Nat) : (f.setSavedPc pc).shift = f.shift := by
  simp only [Frame.shift, Frame.setSavedPc, Frame.progress?_modifyProgress, Option.map_map]
  rfl

theorem shift_setTrap (f : Frame) (on : Bool) : (f.setTrap on).shift = f.shift := by
  simp only [Frame.shift, Frame.setTrap, Frame.progress?_modifyProgress, Option.map_map]
  rfl

theorem leavesAlike_setSavedPc {W : Type} (t : Thread H W) (id pc : Nat) :
    t.toMachine.LeavesAlike (t.onFrame id (·.setSavedPc pc)).toMachine :=
  t.toMachine.leavesAlike_modifyFrame id (fun _ => rfl) fun f => shift_setSavedPc f pc

theorem leavesAlike_setTrap {W : Type} (t : Thread H W) (id : Nat) (on : Bool) :
    t.toMachine.LeavesAlike (t.onFrame id (·.setTrap on)).toMachine :=
  t.toMachine.leavesAlike_modifyFrame id (fun _ => rfl) fun f => shift_setTrap f on

theorem leavesAlike_hookCall (t : Thread H (List HookRecord)) (id : Nat) :
    t.toMachine.LeavesAlike (t.hookCall calm id).toMachine :=
  (t.hookCall_calm id).undisturbed.leavesAlike

/-- The events of an instruction make no difference, nor does the window that is kept for them. -/
theorem leavesAlike_reportEvents (t : Thread H (List HookRecord)) (p : Proto) (pc : Nat)
    (mask : HookMask) (countDue : Bool) :
    t.toMachine.LeavesAlike (t.reportEvents calm p pc mask countDue).toMachine := by
  obtain ⟨top, oldPc, -, hreports⟩ := t.exists_reportEvents_calm p pc mask countDue
  have hready : t.toMachine.LeavesAlike { t.toMachine with top := top } := ⟨rfl, rfl, fun _ _ => rfl⟩
  exact hready.trans hreports.undisturbed.leavesAlike

/-- A look at an instruction makes no difference. -/
theorem leavesAlike_watch (t : Thread H (List HookRecord)) (trap : Bool) (pc : Nat) :
    t.toMachine.LeavesAlike (t.watch calm trap pc).2.toMachine := by
  have hcharged : t.toMachine.LeavesAlike (t.charged pc).toMachine :=
    t.leavesAlike_setSavedPc t.currentId (pc + 1)
  have hflags : ∀ (u : Thread H (List HookRecord)) (change : Frame → Frame),
      (∀ f, (change f).func = f.func) → (∀ f, (change f).shift = f.shift) →
        u.toMachine.LeavesAlike (u.onFrame t.currentId change).toMachine :=
    fun u change hfunc hshift => u.toMachine.leavesAlike_modifyFrame t.currentId hfunc hshift
  have hevents : ∀ p, t.toMachine.LeavesAlike
      ((t.charged pc).reportEvents calm p pc t.mask t.countIsDue).toMachine :=
    fun p => hcharged.trans ((t.charged pc).leavesAlike_reportEvents p pc t.mask t.countIsDue)
  have hlook := t.look_watch calm trap pc
  generalize t.watch calm trap pc = result at hlook ⊢
  cases hlook with
  | idle => exact .refl _
  | unwatched => exact t.leavesAlike_setTrap t.currentId false
  | quiet => exact hcharged
  | resumed => exact hcharged.trans (hflags _ _ (fun _ => rfl) fun _ => rfl)
  | reported _ htold => exact htold ▸ hevents _
  | suspended _ htold => exact (htold ▸ hevents _).trans (hflags _ _ (fun _ => rfl) fun _ => rfl)

/-- An instruction makes no difference, if it sets extra arguments apart only when the function was not
moved yet. -/
theorem Runs.leavesAlike_execute (h : t.Runs proto id trap) (pc : Nat) (i : Instruction)
    (hready : i.opcode = .varargPrep → t.current.func < t.top ∧ t.current.shift = 0) :
    t.toMachine.LeavesAlike (t.execute calm id pc trap i).2.toMachine := by
  by_cases hop : i.opcode = .varargPrep
  · obtain ⟨hfunc, hshift⟩ := hready hop
    obtain ⟨f, p, hf, hp, -⟩ := h.frame
    obtain ⟨s, hs⟩ : ∃ s, t.onFrame id (·.setSavedPc (pc + 1)) = s := ⟨_, rfl⟩
    have hsaved : t.toMachine.LeavesAlike s.toMachine := hs ▸ t.leavesAlike_setSavedPc id (pc + 1)
    have hframe : s.frame? s.currentId = some (f.setSavedPc (pc + 1)) := by
      rw [hsaved.currentId, h.current, ← hs, frame?_onFrame_self, hf, Option.map_some]
    have hcurrent : t.current = f := Machine.current_eq (by rw [h.current]; exact hf)
    rw [hcurrent] at hfunc hshift
    rw [Frame.shift, hp, Option.map_some, Option.getD_some] at hshift
    have hprogress : (f.setSavedPc (pc + 1)).progress? = some { p with savedPc := pc + 1 } := by
      rw [Frame.setSavedPc, Frame.progress?_modifyProgress, hp, Option.map_some]
    have hadjusted := Machine.leavesAlike_adjustVarargs hframe hprogress hshift
      (show f.func < s.top by rw [← hs]; exact hfunc) i.a
    have hreported : s.toMachine.LeavesAlike
        ((s.onMachine (·.adjustVarargs i.a)).hookVarargPrep calm).toMachine := by
      unfold hookVarargPrep
      split
      · exact hadjusted.trans (leavesAlike_hookCall (s.onMachine (·.adjustVarargs i.a)) _)
      · exact hadjusted
    unfold execute prepareVarargs
    simp only [hop, if_true, hs]
    exact (hsaved.trans hreported).trans (leavesAlike_setSavedPc _ _ _)
  · rw [execute_of_not_varargPrep calm t id pc trap hop]
    exact t.leavesAlike_setSavedPc id _

/-- A frame that returns is left without results. -/
theorem left_returnFrom (hinner : t.currentId ≠ Machine.baseFrame) (id pc : Nat) :
    t.toMachine.Left (t.returnFrom calm id pc).toMachine := by
  have hsaved := t.leavesAlike_setSavedPc id (pc + 1)
  obtain ⟨m, hreported, -, hmachine⟩ :=
    (t.onFrame id (·.setSavedPc (pc + 1))).popFrame_calm (by rwa [hsaved.currentId]) 0
  have hleft := m.left_leave
  rw [hreported.toUndisturbed.currentId] at hleft
  rw [returnFrom, hmachine]
  exact (hsaved.trans hreported.toUndisturbed.leavesAlike).left hleft

/-! ## Runs -/

/-- What a run comes to: it goes the way of the code, and leaves the frame if it returns. -/
structure Walks (t : Thread H (List HookRecord)) (way : List Nat × RunEnd)
    (run : Run H (List HookRecord)) : Prop where
  executed : run.executed = way.1
  ending : run.ending = way.2
  left : run.ending = .returned → t.toMachine.Left run.thread.toMachine

/-- The run lemma: whatever is reported meanwhile, a run goes the way of the code. -/
theorem Proceeds.runFrom_walks (h : t.Proceeds proto id trap) (hshape : proto.PreparesOnce)
    (hinner : id ≠ Machine.baseFrame)
    (hunmoved : proto.isVararg = true → t.nextPc id = 0 → t.current.shift = 0) (steps : Nat) :
    t.Walks (proto.walk steps (t.nextPc id)) (runFrom calm proto id steps trap t) := by
  induction steps generalizing t trap with
  | zero => exact ⟨rfl, rfl, fun hending => by cases hending⟩
  | succ steps ih =>
    rw [Proto.walk]
    cases hi : proto.code[t.nextPc id]? with
    | none =>
      rw [runFrom_of_none _ hi]
      exact ⟨rfl, rfl, fun hending => by cases hending⟩
    | some i =>
      obtain ⟨b, t', hlook, hruns, -⟩ := h.runs.watch_calm (t.nextPc id)
      have hsame := t.leavesAlike_watch trap (t.nextPc id)
      rw [hlook] at hsame
      rw [runFrom_of_ok _ hi hlook, stepOn]
      by_cases hret : isReturn i = true
      · simp only [hret, if_true]
        refine ⟨rfl, rfl, fun _ => hsame.left (left_returnFrom ?_ id _)⟩
        rw [hruns.current]
        exact hinner
      · -- extra arguments are set apart by the first instruction, which is not looked at
        have hready : i.opcode = .varargPrep → t'.current.func < t'.top ∧ t'.current.shift = 0 := by
          intro hop
          obtain ⟨hlt, rfl⟩ := Array.getElem?_eq_some_iff.1 hi
          obtain ⟨hvararg, hzero⟩ := hshape.only _ hlt hop
          obtain ⟨rfl, hbelow⟩ := h.entering hvararg hzero
          obtain rfl : t = t' := (Prod.mk.inj hlook).2
          exact ⟨hbelow, hunmoved hvararg hzero⟩
        have hgoes := hruns.leavesAlike_execute (t.nextPc id) i hready
        obtain ⟨-, hplace⟩ := hruns.execute_calm (t.nextPc id) i fun hop => (hready hop).1
        obtain ⟨hexecuted, hending, hleft⟩ := ih (h.step hshape hi hlook hruns) fun hvararg hzero =>
          absurd (hplace.symm.trans hzero) (nextPlace_ne_zero hshape hvararg hi)
        rw [hplace] at hexecuted hending
        simp only [hret, Bool.false_eq_true, if_false]
        refine ⟨congrArg _ hexecuted, hending, fun hreturned => ?_⟩
        exact (hsame.trans hgoes).left (hleft hreturned)

end Thread

/-! ## Machines with and without a hook -/

/-- A frame without its mark for being watched. -/
def Frame.untrapped (f : Frame) : Frame := f.setTrap false

/-- Frames that are the same but for the mark run in the same place, from the same instruction on. -/
theorem Frame.eq_of_untrapped_eq {f f' : Frame} (h : f'.untrapped = f.untrapped) :
    f'.func = f.func ∧ f'.shift = f.shift ∧ f'.savedPc? = f.savedPc? := by
  refine ⟨?_, ?_, ?_⟩
  · show f'.untrapped.func = f.untrapped.func
    rw [h]
  · rw [← Thread.shift_setTrap f' false, ← Thread.shift_setTrap f false]
    exact congrArg Frame.shift h
  · rw [← f'.savedPc?_setTrap false, ← f.savedPc?_setTrap false]
    exact congrArg Frame.savedPc? h

theorem Frame.untrapped_setTrap (f : Frame) : (f.setTrap true).untrapped = f.untrapped := by
  obtain ⟨func, top, previous, flags, code, transfer⟩ := f
  cases code with
  | script progress => rfl
  | native => rfl

namespace Machine

/-- Both machines are the same, but for the frames that are marked for being watched. -/
structure SameButTraps (m m' : Machine) : Prop where
  frames : m'.frames.map Frame.untrapped = m.frames.map Frame.untrapped
  rest : { m' with frames := m.frames } = m

namespace SameButTraps

variable {m m' m'' : Machine}

theorem refl (m : Machine) : m.SameButTraps m := ⟨rfl, rfl⟩

theorem trans (h : m.SameButTraps m') (h' : m'.SameButTraps m'') : m.SameButTraps m'' := by
  refine ⟨h'.frames.trans h.frames, ?_⟩
  rw [← h.rest, ← h'.rest]

theorem size (h : m.SameButTraps m') : m'.frames.size = m.frames.size := by
  have hsize := congrArg Array.size h.frames
  rwa [Array.size_map, Array.size_map] at hsize

theorem currentId (h : m.SameButTraps m') : m'.currentId = m.currentId := by
  rw [Machine.currentId, h.size, Machine.currentId]

theorem top (h : m.SameButTraps m') : m'.top = m.top := by rw [← h.rest]

theorem slot (h : m.SameButTraps m') (i : Nat) : m'.slot i = m.slot i := by
  rw [← h.rest]
  rfl

/-- A frame that is there is there in both. -/
theorem exists_frame (h : m.SameButTraps m') {id : Nat} {f : Frame} (hf : m.frame? id = some f) :
    ∃ f', m'.frame? id = some f' ∧ f'.untrapped = f.untrapped := by
  have hframe := congrArg (·[id]?) h.frames
  simp only [Array.getElem?_map] at hframe
  rw [frame?] at hf
  rw [hf, Option.map_some, Option.map_eq_some_iff] at hframe
  exact hframe

theorem leavesAlike (h : m.SameButTraps m') : m.LeavesAlike m' := by
  refine .of_frames h.size (fun f hf => ?_) h.slot
  obtain ⟨f', hf', heq⟩ := h.exists_frame hf
  obtain ⟨hfunc, hshift, -⟩ := Frame.eq_of_untrapped_eq heq
  exact ⟨f', hf', hfunc, hshift⟩

/-- A frame that is there runs the same function. -/
theorem frameProto? (h : m.SameButTraps m') {id : Nat} {f : Frame} (hf : m.frame? id = some f) :
    m'.frameProto? id = m.frameProto? id := by
  obtain ⟨f', hf', heq⟩ := h.exists_frame hf
  have hfunctions : m'.functions = m.functions := by rw [← h.rest]
  rw [Machine.frameProto?, Machine.frameProto?, frameFunction?_eq, frameFunction?_eq, hf, hf',
    Option.bind_some, Option.bind_some, (Frame.eq_of_untrapped_eq heq).1, h.slot,
    function?_congr hfunctions]

/-- Marking frames is the only difference that is allowed. -/
theorem armTraps (m : Machine) (ids : List Nat) : m.SameButTraps (m.armTraps ids) := by
  induction ids generalizing m with
  | nil => exact .refl m
  | cons id ids ih =>
    have hmarked : m.SameButTraps (m.modifyFrame id (·.setTrap true)) :=
      ⟨m.map_frames_modifyFrame id Frame.untrapped_setTrap, rfl⟩
    exact hmarked.trans (ih (m.modifyFrame id (·.setTrap true)))

end SameButTraps

end Machine

namespace Thread

variable {H : Type} {s t : Thread H (List HookRecord)} {proto : Proto}

/-- A hook that is installed marks frames, and does nothing else to the machine. -/
theorem sameButTraps_setHook {W : Type} (t : Thread H W) (hook : Option H) (mask : HookMask)
    (count : Int) : t.toMachine.SameButTraps (t.setHook hook mask count).toMachine := by
  obtain ⟨ids, hmachine⟩ := t.exists_armTraps_setHook hook mask count
  rw [hmachine]
  exact .armTraps t.toMachine ids

/-- A frame that was entered is entered with any hook. -/
theorem Enters.of_sameButTraps {W : Type} {s t : Thread H W} (h : s.Enters proto)
    (hsame : s.toMachine.SameButTraps t.toMachine) (hawake : t.suspended = false) :
    t.Enters proto := by
  obtain ⟨f, p, hf, hp, hzero⟩ := h.frame
  obtain ⟨f', hf', heq⟩ := hsame.exists_frame hf
  obtain ⟨hfunc, -, hsaved⟩ := Frame.eq_of_untrapped_eq heq
  have hid := hsame.currentId
  refine ⟨?_, ?_, ?_, hawake⟩
  · rw [hid, hsame.frameProto? hf]
    exact h.proto
  · rw [Frame.savedPc?, Frame.savedPc?, hp, Option.map_some, hzero, Option.map_eq_some_iff] at hsaved
    obtain ⟨p', hp', hzero'⟩ := hsaved
    rw [hid]
    exact ⟨f', p', hf', hp', hzero'⟩
  · have hbelow := h.below
    rw [Machine.current_eq hf] at hbelow
    rw [Machine.current_eq (hid ▸ hf'), hfunc, hsame.top]
    exact hbelow

/-- A function that is called in a slot below the top is entered. -/
theorem enters_pushScriptFrame {W : Type} {t : Thread H W} {func : Nat} {upvalues : Array Nat}
    (hslot : t.stack[func]?.bind t.function? = some (.script proto upvalues))
    (hfunc : func < t.top) (hawake : t.suspended = false) (flags : CallFlags) :
    (t.pushScriptFrame func flags).2.Enters proto ∧
      (t.pushScriptFrame func flags).2.current.flags = flags := by
  obtain ⟨⟨f, hf, hplace, hsaved, hflags⟩, hproto, htop⟩ :=
    Machine.enterScript_frame hslot hfunc flags
  have hpush : (t.pushScriptFrame func flags).2 = t.onMachine (·.enterScript proto func flags) :=
    congrArg Prod.snd (pushScriptFrame_of_slot hslot flags)
  rw [Frame.savedPc?, Option.map_eq_some_iff] at hsaved
  obtain ⟨p, hp, hzero⟩ := hsaved
  have hcurrent : (t.onMachine (·.enterScript proto func flags)).current = f :=
    Machine.current_eq hf
  rw [hpush]
  refine ⟨⟨hproto, ⟨f, p, hf, hp, hzero⟩, ?_, hawake⟩, ?_⟩
  · rw [hcurrent, hplace]
    exact htop
  · rw [hcurrent, hflags]

/-! ## Whole runs -/

/-- How a run of a frame that was entered begins. -/
theorem Enters.beginRun_eq (h : t.Enters proto) :
    t.beginRun calm =
      if t.mask.isEmpty then (false, t)
      else if proto.isVararg then (false, t.onFrame t.currentId (·.setTrap true))
      else (true, if t.current.flags.hookYield then t.onFrame t.currentId (·.setTrap true)
        else (t.onFrame t.currentId (·.setTrap true)).hookCall calm t.currentId) := by
  have hmark : (t.onFrame t.currentId (·.setTrap true)).current.flags.hookYield =
      t.current.flags.hookYield := by
    obtain ⟨f, p, hf, -, -⟩ := h.frame
    rw [current_onFrame t hf, Machine.current_eq hf]
    rfl
  split
  · rename_i hmask
    exact beginRun_of_no_events _ _ hmask
  · rename_i hmask
    rw [beginRun_of_events _ _ (Bool.not_eq_true _ ▸ hmask), traceCall_eq _ _ h.proto, hmark,
      if_pos h.marked.2]
    split
    · rfl
    · split <;> rfl

/-- The beginning of a run makes no difference either, and it is in front of the first instruction. -/
theorem Enters.beginRun_leavesAlike (h : t.Enters proto) (hunmoved : t.current.shift = 0) :
    (t.beginRun calm).2.Proceeds proto t.currentId (t.beginRun calm).1 ∧
      (t.beginRun calm).2.nextPc t.currentId = 0 ∧
      (proto.isVararg = true → (t.beginRun calm).2.current.shift = 0) ∧
      t.toMachine.LeavesAlike (t.beginRun calm).2.toMachine := by
  have hmarked := t.leavesAlike_setTrap t.currentId true
  obtain ⟨f, p, hf, hp, hzero⟩ := h.frame
  by_cases hmask : t.mask.isEmpty = true
  · rw [h.beginRun_eq, if_pos hmask]
    refine ⟨⟨⟨rfl, ⟨f, p, hf, hp, fun hfalse => by cases hfalse⟩, fun q hq => ?_, h.awake⟩,
      fun _ _ => ⟨rfl, h.below⟩⟩, ?_, fun _ => hunmoved, .refl _⟩
    · exact Option.some.inj (hq.symm.trans h.proto)
    · rw [nextPc, hf, Option.bind_some, Frame.savedPc?, hp, Option.map_some, hzero]
      rfl
  · rw [Bool.not_eq_true] at hmask
    refine ⟨(h.beginRun_calm hmask).1, ?_⟩
    rw [h.beginRun_eq, hmask, if_neg Bool.false_ne_true]
    split
    · refine ⟨h.nextPc_marked, fun _ => ?_, hmarked⟩
      rw [current_onFrame t hf, shift_setTrap, ← Machine.current_eq hf]
      exact hunmoved
    · rename_i hvararg
      refine ⟨?_, fun h => absurd h hvararg, ?_⟩
      · split
        · exact h.nextPc_marked
        · exact ((hookCall_calm _ _).nextPc _).trans h.nextPc_marked
      · split
        · exact hmarked
        · exact hmarked.trans (leavesAlike_hookCall _ _)

/-- Whatever hook there is, the run of a frame that was entered goes the way of the code from its first
instruction. -/
theorem Enters.runFrame_walks (h : t.Enters proto) (hshape : proto.PreparesOnce)
    (hunmoved : t.current.shift = 0) (hinner : t.currentId ≠ Machine.baseFrame) (maxSteps : Nat) :
    t.Walks (proto.walk maxSteps 0) (t.runFrame calm maxSteps) := by
  obtain ⟨hproceeds, hfirst, hshift, hsame⟩ := h.beginRun_leavesAlike hunmoved
  obtain ⟨hexecuted, hending, hleft⟩ :=
    hproceeds.runFrom_walks hshape hinner (fun hvararg _ => hshift hvararg) maxSteps
  rw [hfirst] at hexecuted hending
  rw [runFrame_of_proto _ h.proto]
  exact ⟨hexecuted, hending, fun hreturned => hsame.left (hleft hreturned)⟩

/-- **Watching does not perturb.**  A function was entered with any arguments, in two threads that are
the same but for what is watched: one may have no hook, and the other one a hook that logs and is told
about any events, with any budget.  For any number of steps both execute the same instructions and end
in the same way, and once the function has returned both have the same calls left, the same top and the
same values below it. -/
theorem runFrame_unperturbed (hshape : proto.PreparesOnce) (h : s.Enters proto)
    (hunmoved : s.current.shift = 0) (hinner : s.currentId ≠ Machine.baseFrame)
    (hsame : s.toMachine.SameButTraps t.toMachine) (hawake : t.suspended = false)
    (maxSteps : Nat) :
    let plain := s.runFrame calm maxSteps
    let watched := t.runFrame calm maxSteps
    watched.executed = plain.executed ∧ watched.ending = plain.ending ∧
      watched.result = plain.result ∧
      (plain.ending = .returned →
        watched.thread.depth = plain.thread.depth ∧ watched.thread.top = plain.thread.top ∧
          ∀ i < plain.thread.top, watched.thread.slot i = plain.thread.slot i) := by
  intro plain watched
  have halike := hsame.leavesAlike
  have hshift : t.current.shift = 0 := by
    obtain ⟨f, p, hf, -, -⟩ := h.frame
    obtain ⟨f', hf', heq⟩ := hsame.exists_frame hf
    rw [Machine.current_eq hf] at hunmoved
    rw [Machine.current_eq (hsame.currentId ▸ hf'), (Frame.eq_of_untrapped_eq heq).2.1, hunmoved]
  have hplain := h.runFrame_walks hshape hunmoved hinner maxSteps
  have hwatched := (h.of_sameButTraps hsame hawake).runFrame_walks hshape hshift
    (by rw [hsame.currentId]; exact hinner) maxSteps
  have hexecuted : watched.executed = plain.executed := hwatched.executed.trans hplain.executed.symm
  have hending : watched.ending = plain.ending := hwatched.ending.trans hplain.ending.symm
  refine ⟨hexecuted, hending, ?_, fun hreturned => ?_⟩
  · rw [Run.result, Run.result, hexecuted, hending]
  · have hleft := hplain.left hreturned
    have hleft' := halike.left (hwatched.left (hending.trans hreturned))
    refine ⟨?_, hleft'.top.trans hleft.top.symm, fun i hi => ?_⟩
    · rw [Machine.depth, hleft'.size, Machine.depth, hleft.size]
    · rw [hleft.top] at hi
      exact (hleft'.below i hi).trans (hleft.below i hi).symm

/-- The function that jumps back, run to its return without a hook and under one that is told about
everything.  The log of the second run is the only difference. -/
theorem runFrame_unperturbed_winding :
    let s := ((threadCalling windingProto).pushScriptFrame 1 {}).2
    let t := s.setHook (some ()) { call := true, ret := true, line := true, count := true } 2
    (s.runFrame calm 9).thread.host = [] ∧
      (t.runFrame calm 9).thread.host.map HookRecord.event =
        [.call, .line, .count, .line, .count, .line, .ret] ∧
      (s.runFrame calm 9).executed = [0, 1, 3, 4, 2] ∧ (s.runFrame calm 9).ending = .returned ∧
      (t.runFrame calm 9).executed = (s.runFrame calm 9).executed ∧
      (t.runFrame calm 9).ending = (s.runFrame calm 9).ending ∧
      (t.runFrame calm 9).result = (s.runFrame calm 9).result ∧
      ((s.runFrame calm 9).ending = .returned →
        (t.runFrame calm 9).thread.depth = (s.runFrame calm 9).thread.depth ∧
          (t.runFrame calm 9).thread.top = (s.runFrame calm 9).thread.top ∧
          ∀ i < (s.runFrame calm 9).thread.top,
            (t.runFrame calm 9).thread.slot i = (s.runFrame calm 9).thread.slot i) := by
  intro s t
  have hslot : (threadCalling windingProto).stack[1]?.bind (threadCalling windingProto).function? =
      some (.script windingProto #[]) := rfl
  have hframe : s.frame? s.currentId = some (.script 1 4 (some 0)) := by decide +kernel
  have hentered : s.Enters windingProto := (enters_pushScriptFrame hslot (by decide) rfl {}).1
  have hshape : windingProto.PreparesOnce := ⟨by decide, by decide, by decide⟩
  have hunmoved : s.current.shift = 0 := by
    rw [Machine.current_eq hframe]
    rfl
  have hinner : s.currentId ≠ Machine.baseFrame := by decide +kernel
  have hsame : s.toMachine.SameButTraps t.toMachine := sameButTraps_setHook s (some ()) _ 2
  have hawake : t.suspended = false := by decide +kernel
  exact ⟨by decide +kernel, by decide +kernel, by decide +kernel, by decide +kernel,
    runFrame_unperturbed hshape hentered hunmoved hinner hsame hawake 9⟩

end Thread

end VmInspect
