import VmInspect.Proofs.Thread.Calls
import VmInspect.Proofs.Thread.Watching

/-!
# Threads in the middle of a run

While a frame runs, its thread has it as the current one, the frame runs the same function as at the
start, or none, and it is marked as watched if its instructions are looked at.  This file proves that
every step of a run under a calm hook keeps this up:

* `Thread.Runs` — the invariant of a run.
* `Thread.Runs.watch_calm` — a look at an instruction never fails, and keeps the invariant.
* `Thread.Runs.execute_calm` — an instruction keeps the invariant and goes on at the next place.
* `Thread.Enters.beginRun_calm` — the invariant holds once a frame was entered.
-/

namespace VmInspect

/-- Extra arguments are set apart by the first instruction of a function that keeps them, which is
executed once, and by no other. -/
structure Proto.PreparesOnce (p : Proto) : Prop where
  first : p.isVararg = true → p.code[0]?.map Instruction.opcode = some .varargPrep
  only : ∀ pc (h : pc < p.code.size), p.code[pc].opcode = .varargPrep → p.isVararg = true ∧ pc = 0
  onward : p.isVararg = true → ∀ pc (h : pc < p.code.size), p.code[pc].opcode = .jump →
    Thread.jumpTarget pc p.code[pc] ≠ 0

namespace Thread

variable {H : Type}

/-- The place of a frame's next instruction. -/
def nextPc {W : Type} (t : Thread H W) (id : Nat) : Nat :=
  ((t.frame? id).bind Frame.savedPc?).getD 0

/-- A thread in the middle of a run of a frame. -/
structure Runs {W : Type} (t : Thread H W) (proto : Proto) (id : Nat) (trap : Bool) : Prop where
  current : t.currentId = id
  /-- the frame runs interpreted code, and is marked if its instructions are looked at -/
  frame : ∃ f p, t.frame? id = some f ∧ f.progress? = some p ∧ (trap = true → p.trap = true)
  proto : ∀ q, t.frameProto? id = some q → q = proto
  awake : t.suspended = false

namespace Runs

variable {W : Type} {t : Thread H W} {proto : Proto} {id : Nat} {trap : Bool}

/-- Nothing is lost when instructions are not looked at. -/
theorem unwatched (h : t.Runs proto id trap) : t.Runs proto id false := by
  obtain ⟨f, p, hf, hp, -⟩ := h.frame
  exact ⟨h.current, ⟨f, p, hf, hp, fun hfalse => by cases hfalse⟩, h.proto, h.awake⟩

/-- A change of the frame that leaves its function alone, and its mark while instructions are looked
at. -/
theorem onFrame (h : t.Runs proto id trap) {change : Frame → Frame}
    (hfunc : ∀ f, (change f).func = f.func)
    (hmark : ∀ f p, f.progress? = some p →
      ∃ p', (change f).progress? = some p' ∧ (trap = true → p'.trap = p.trap)) :
    (t.onFrame id change).Runs proto id trap := by
  obtain ⟨f, p, hf, hp, htrap⟩ := h.frame
  obtain ⟨p', hp', hsame⟩ := hmark f p hp
  refine ⟨?_, ⟨change f, p', ?_, hp', ?_⟩, ?_, h.awake⟩
  · rw [currentId_onFrame]
    exact h.current
  · rw [frame?_onFrame_self, hf, Option.map_some]
  · intro hlooks
    rw [hsame hlooks]
    exact htrap hlooks
  · intro q hq
    refine h.proto q ?_
    rw [← hq]
    exact (t.toMachine.frameProto?_modifyFrame id id hfunc).symm

theorem setSavedPc (h : t.Runs proto id trap) (pc : Nat) :
    (t.onFrame id (·.setSavedPc pc)).Runs proto id trap := by
  refine h.onFrame (fun _ => rfl) fun f p hp => ⟨{ p with savedPc := pc }, ?_, fun _ => rfl⟩
  rw [Frame.setSavedPc, Frame.progress?_modifyProgress, hp]
  rfl

theorem insertFlags (h : t.Runs proto id trap) (flags : CallFlags) :
    (t.onFrame id (·.insertFlags flags)).Runs proto id trap :=
  h.onFrame (fun _ => rfl) fun _ p hp => ⟨p, hp, fun _ => rfl⟩

theorem removeFlags (h : t.Runs proto id trap) (flags : CallFlags) :
    (t.onFrame id (·.removeFlags flags)).Runs proto id trap :=
  h.onFrame (fun _ => rfl) fun _ p hp => ⟨p, hp, fun _ => rfl⟩

/-- The mark may go when instructions are not looked at. -/
theorem unmarked (h : t.Runs proto id trap) :
    (t.onFrame id (·.setTrap false)).Runs proto id false := by
  refine h.unwatched.onFrame (fun _ => rfl) fun f p hp =>
    ⟨{ p with trap := false }, ?_, fun hlooks => absurd hlooks Bool.false_ne_true⟩
  rw [Frame.setTrap, Frame.progress?_modifyProgress, hp]
  rfl

/-- The place that was saved is the next one. -/
theorem nextPc_setSavedPc (h : t.Runs proto id trap) (pc : Nat) :
    (t.onFrame id (·.setSavedPc pc)).nextPc id = pc := by
  obtain ⟨f, p, hf, hp, -⟩ := h.frame
  unfold nextPc
  rw [frame?_onFrame_self, hf, Option.map_some, Option.bind_some, Frame.savedPc?_setSavedPc,
    Frame.savedPc?, hp]
  rfl

end Runs

/-! ## Reports -/

variable {t t' : Thread H (List HookRecord)} {records : List HookRecord} {proto : Proto} {id : Nat}
  {trap : Bool}

/-- Reports keep a run going. -/
theorem Runs.of_reports (h : t.Runs proto id trap) (hr : Reports t t' records) :
    t'.Runs proto id trap := by
  have hsame := hr.undisturbed
  obtain ⟨f, p, hf, hp, htrap⟩ := h.frame
  obtain ⟨f', hf', heq⟩ := hsame.exists_frame hf
  refine ⟨?_, ⟨f', p, hf', ?_, htrap⟩, ?_, ?_⟩
  · rw [hsame.currentId]
    exact h.current
  · rw [← hp, Frame.progress?, (Frame.eq_of_unreported_eq heq).2.1]
    rfl
  · rw [hsame.frameProto?]
    exact h.proto
  · obtain ⟨m, rfl, -⟩ := hr
    exact h.awake

theorem Reports.nextPc (hr : Reports t t' records) (id : Nat) : t'.nextPc id = t.nextPc id := by
  have hsame := hr.undisturbed
  unfold Thread.nextPc
  cases hf : t.frame? id with
  | none =>
    have hframe := hsame.frame id
    rw [hf, Option.map_none, Option.map_eq_none_iff] at hframe
    rw [hframe]
  | some f =>
    obtain ⟨f', hf', heq⟩ := hsame.exists_frame hf
    rw [hf', Option.bind_some, Option.bind_some, Frame.savedPc?, Frame.progress?,
      (Frame.eq_of_unreported_eq heq).2.1]
    rfl

/-- The hook's settings are not touched by a report. -/
theorem Reports.settings (hr : Reports t t' records) :
    t'.mask = t.mask ∧ t'.countBudget = t.countBudget ∧ t'.countLeft = t.countLeft := by
  obtain ⟨m, rfl, -⟩ := hr
  exact ⟨rfl, rfl, rfl⟩

/-! ## Looks at instructions -/

theorem Runs.charged (h : t.Runs proto id trap) (pc : Nat) : (t.charged pc).Runs proto id trap := by
  have hsaved := h.setSavedPc (pc + 1)
  unfold Thread.charged
  rw [h.current]
  exact ⟨hsaved.current, hsaved.frame, hsaved.proto, hsaved.awake⟩

theorem Runs.setOldPc (h : t.Runs proto id trap) (pc : Nat) :
    ({ t with oldPc := pc } : Thread H (List HookRecord)).Runs proto id trap :=
  ⟨h.current, h.frame, h.proto, h.awake⟩

theorem Runs.reportEvents_calm (h : t.Runs proto id trap) (p : Proto) (pc : Nat) (mask : HookMask)
    (countDue : Bool) : (t.reportEvents calm p pc mask countDue).Runs proto id trap := by
  obtain ⟨top, oldPc, -, hreports⟩ := t.exists_reportEvents_calm p pc mask countDue
  have hready : ({ t with top := top, oldPc := oldPc } : Thread H (List HookRecord)).Runs proto id
      trap := ⟨h.current, h.frame, h.proto, h.awake⟩
  exact hready.of_reports hreports

theorem settings_protectWindow {W : Type} (t : Thread H W) (p : Proto) (pc : Nat) :
    (t.protectWindow p pc).mask = t.mask ∧ (t.protectWindow p pc).countBudget = t.countBudget ∧
      (t.protectWindow p pc).countLeft = t.countLeft := by
  obtain ⟨top, hwindow, -⟩ := t.exists_protectWindow p pc
  rw [hwindow]
  exact ⟨rfl, rfl, rfl⟩

theorem settings_reportEvents_calm (t : Thread H (List HookRecord)) (p : Proto) (pc : Nat)
    (mask : HookMask) (countDue : Bool) :
    (t.reportEvents calm p pc mask countDue).mask = t.mask ∧
      (t.reportEvents calm p pc mask countDue).countBudget = t.countBudget ∧
      (t.reportEvents calm p pc mask countDue).countLeft = t.countLeft := by
  obtain ⟨top, oldPc, -, hreports⟩ := t.exists_reportEvents_calm p pc mask countDue
  exact hreports.settings

/-- A frame is the same after the events of an instruction were reported, apart from what is noted
in it meanwhile, and runs the same function. -/
theorem frame?_reportEvents_calm {f : Frame} (hf : t.frame? id = some f) (p : Proto) (pc : Nat)
    (mask : HookMask) (countDue : Bool) :
    (∃ f', (t.reportEvents calm p pc mask countDue).frame? id = some f' ∧
        f'.unreported = f.unreported) ∧
      (t.reportEvents calm p pc mask countDue).frameProto? id = t.frameProto? id := by
  obtain ⟨top, oldPc, -, hreports⟩ := t.exists_reportEvents_calm p pc mask countDue
  exact ⟨hreports.undisturbed.exists_frame hf, hreports.undisturbed.frameProto? id⟩

/-- The hook's settings are kept, and the budget is charged for an instruction or not. -/
structure Charges {W : Type} (t t' : Thread H W) : Prop where
  mask : t'.mask = t.mask
  budget : t'.countBudget = t.countBudget
  left : t'.countLeft = t.countLeft ∨ t'.countLeft = t.chargeCount.countLeft

theorem Charges.refl {W : Type} (t : Thread H W) : t.Charges t := ⟨rfl, rfl, Or.inl rfl⟩

/-- A look at an instruction never fails under a calm hook, and keeps the run going. -/
theorem Runs.traceExec_calm (h : t.Runs proto id true) (pc : Nat) :
    ∃ b t', t.traceExec calm pc = (.ok b, t') ∧ t'.Runs proto id b ∧ t.Charges t' := by
  have hlook := t.look_traceExec calm pc
  generalize t.traceExec calm pc = result at hlook ⊢
  cases hlook with
  | idle => exact ⟨false, t, rfl, h.unwatched, .refl t⟩
  | unwatched =>
    rw [h.current]
    exact ⟨false, _, rfl, h.unmarked, rfl, rfl, Or.inl rfl⟩
  | quiet => exact ⟨true, _, rfl, h.charged pc, rfl, rfl, Or.inr rfl⟩
  | resumed =>
    have hflags := (h.charged pc).removeFlags yieldFlag
    rw [h.current]
    exact ⟨true, _, rfl, hflags, rfl, rfl, Or.inr rfl⟩
  | @reported q _ _ htold =>
    subst htold
    obtain ⟨hmask, hbudget, hleft⟩ :=
      settings_reportEvents_calm (t.charged pc) q pc t.mask t.countIsDue
    exact ⟨true, _, rfl, (h.charged pc).reportEvents_calm q pc t.mask t.countIsDue, hmask, hbudget,
      Or.inr hleft⟩
  | @suspended q _ _ htold _ _ hasleep =>
    have hawake := ((h.charged pc).reportEvents_calm q pc t.mask t.countIsDue).awake
    rw [htold] at hawake
    exact absurd (hawake.symm.trans hasleep) Bool.false_ne_true

/-- So it is when instructions are not looked at. -/
theorem Runs.watch_calm (h : t.Runs proto id trap) (pc : Nat) :
    ∃ b t', t.watch calm trap pc = (.ok b, t') ∧ t'.Runs proto id b ∧ t.Charges t' := by
  unfold watch
  cases trap with
  | false => exact ⟨false, t, rfl, h, .refl t⟩
  | true => exact h.traceExec_calm pc

/-! ## Instructions -/

/-- A report that a frame was entered keeps the run going. -/
theorem Runs.hookCall_calm (h : t.Runs proto id trap) (j : Nat) :
    (t.hookCall calm j).Runs proto id trap :=
  (h.setOldPc 0).of_reports (t.hookCall_calm j)

theorem Runs.hookVarargPrep_calm (h : t.Runs proto id trap) :
    (t.hookVarargPrep calm).Runs proto id trap := by
  unfold hookVarargPrep
  split
  · exact (h.hookCall_calm t.currentId).setOldPc 1
  · exact h

/-- Setting the extra arguments apart keeps the run going: the frame moves with its function. -/
theorem Runs.adjustVarargs (h : t.Runs proto id trap) (hfunc : t.current.func < t.top)
    (fixed : Nat) : (t.onMachine (·.adjustVarargs fixed)).Runs proto id trap := by
  obtain ⟨f, p, hf, hp, htrap⟩ := h.frame
  have hcurrent : t.frame? t.currentId = some f := by
    rw [h.current]
    exact hf
  have hframe := Machine.frame?_adjustVarargs hcurrent fixed
  rw [h.current] at hframe
  refine ⟨?_, ⟨_, _, hframe, Machine.progress?_adjustedFrame hp _ fixed, htrap⟩, ?_, h.awake⟩
  · exact (t.toMachine.currentId_adjustVarargs fixed).trans h.current
  · intro q hq
    rw [Machine.current_eq hcurrent] at hfunc
    have hafter := Machine.frameProto?_adjustVarargs hcurrent hfunc fixed
    rw [h.current] at hafter
    have hq' := hafter.symm.trans hq
    split at hq'
    · cases hq'
    · exact h.proto q hq'

theorem Runs.prepareVarargs_calm (h : t.Runs proto id trap) (hfunc : t.current.func < t.top)
    (pc : Nat) (i : Instruction) :
    (t.prepareVarargs calm id pc i).2.Runs proto id (t.prepareVarargs calm id pc i).1 := by
  have hsaved := h.setSavedPc (pc + 1)
  have hbelow : (t.onFrame id (·.setSavedPc (pc + 1))).current.func <
      (t.onFrame id (·.setSavedPc (pc + 1))).top := by
    obtain ⟨f, p, hf, -, -⟩ := h.frame
    rw [← h.current] at hf ⊢
    rw [Machine.current_eq hf] at hfunc
    rw [current_onFrame _ hf]
    exact hfunc
  have hready : (t.prepareVarargs calm id pc i).2.Runs proto id trap :=
    (hsaved.adjustVarargs hbelow i.a).hookVarargPrep_calm
  have hmark : (t.prepareVarargs calm id pc i).1 =
      (((t.prepareVarargs calm id pc i).2.frame? id).map Frame.trap).getD false := by
    simp only [prepareVarargs]
  obtain ⟨f, p, hf, hp, -⟩ := hready.frame
  refine ⟨hready.current, ⟨f, p, hf, hp, ?_⟩, hready.proto, hready.awake⟩
  intro htrap
  rw [hmark, hf, Option.map_some, Option.getD_some, Frame.trap, hp] at htrap
  exact htrap

theorem settings_prepareVarargs_calm (t : Thread H (List HookRecord)) (j pc : Nat)
    (i : Instruction) :
    (t.prepareVarargs calm j pc i).2.mask = t.mask ∧
      (t.prepareVarargs calm j pc i).2.countBudget = t.countBudget ∧
      (t.prepareVarargs calm j pc i).2.countLeft = t.countLeft := by
  unfold prepareVarargs hookVarargPrep
  simp only
  split
  · exact (hookCall_calm _ _).settings
  · exact ⟨rfl, rfl, rfl⟩

/-- The place after an instruction. -/
def nextPlace (pc : Nat) (i : Instruction) : Nat :=
  if i.opcode = .jump then jumpTarget pc i else pc + 1

/-- An instruction keeps the run going, and the next one is where it leads to. -/
theorem Runs.execute_calm (h : t.Runs proto id trap) (pc : Nat) (i : Instruction)
    (hfunc : i.opcode = .varargPrep → t.current.func < t.top) :
    (t.execute calm id pc trap i).2.Runs proto id (t.execute calm id pc trap i).1 ∧
      (t.execute calm id pc trap i).2.nextPc id = nextPlace pc i := by
  unfold execute nextPlace
  by_cases hop : i.opcode = .varargPrep
  · have hready := h.prepareVarargs_calm (hfunc hop) pc i
    simp only [hop, if_true]
    exact ⟨hready.setSavedPc _, hready.nextPc_setSavedPc _⟩
  · simp only [hop, if_false]
    exact ⟨h.setSavedPc _, h.nextPc_setSavedPc _⟩

/-- No instruction leads back to where extra arguments are set apart. -/
theorem nextPlace_ne_zero (hshape : proto.PreparesOnce) (hvararg : proto.isVararg = true) {pc : Nat}
    {i : Instruction} (hi : proto.code[pc]? = some i) : nextPlace pc i ≠ 0 := by
  obtain ⟨hlt, rfl⟩ := Array.getElem?_eq_some_iff.1 hi
  unfold nextPlace
  split
  · rename_i hop
    exact hshape.onward hvararg pc hlt hop
  · exact Nat.succ_ne_zero pc

theorem settings_execute_calm (t : Thread H (List HookRecord)) (j pc : Nat) (b : Bool)
    (i : Instruction) :
    (t.execute calm j pc b i).2.mask = t.mask ∧
      (t.execute calm j pc b i).2.countBudget = t.countBudget ∧
      (t.execute calm j pc b i).2.countLeft = t.countLeft := by
  unfold execute
  by_cases hop : i.opcode = .varargPrep
  · simp only [hop, if_true, mask_onFrame, countBudget_onFrame, countLeft_onFrame]
    exact settings_prepareVarargs_calm t j pc i
  · simp only [hop, if_false]
    exact ⟨rfl, rfl, rfl⟩

/-! ## Runs -/

/-- A thread between two instructions of a run.  Before the extra arguments are set apart, nothing is
looked at, and the arguments lie above the function. -/
structure Proceeds {W : Type} (t : Thread H W) (proto : Proto) (id : Nat) (trap : Bool) : Prop where
  runs : t.Runs proto id trap
  entering : proto.isVararg = true → t.nextPc id = 0 → trap = false ∧ t.current.func < t.top

/-- The step lemma: an instruction that was looked at and executed leaves the thread between two
instructions again. -/
theorem Proceeds.step (h : t.Proceeds proto id trap) (hshape : proto.PreparesOnce)
    {i : Instruction} (hi : proto.code[t.nextPc id]? = some i) {b : Bool}
    (hwatch : t.watch calm trap (t.nextPc id) = (.ok b, t')) (hruns : t'.Runs proto id b) :
    (t'.execute calm id (t.nextPc id) b i).2.Proceeds proto id
      (t'.execute calm id (t.nextPc id) b i).1 := by
  obtain ⟨hlt, hcode⟩ := Array.getElem?_eq_some_iff.1 hi
  have hfunc : i.opcode = .varargPrep → t'.current.func < t'.top := by
    intro hop
    rw [← hcode] at hop
    obtain ⟨hvararg, hzero⟩ := hshape.only _ hlt hop
    obtain ⟨hfalse, hbelow⟩ := h.entering hvararg hzero
    rw [hfalse] at hwatch
    obtain rfl : t = t' := (Prod.mk.inj hwatch).2
    exact hbelow
  obtain ⟨hnext, hplace⟩ := hruns.execute_calm (t.nextPc id) i hfunc
  refine ⟨hnext, ?_⟩
  intro hvararg hzero
  rw [hplace] at hzero
  exact absurd hzero (nextPlace_ne_zero hshape hvararg hi)

/-- A frame that was just entered, with its arguments above its function. -/
structure Enters {W : Type} (t : Thread H W) (proto : Proto) : Prop where
  proto : t.frameProto? t.currentId = some proto
  frame : ∃ f p, t.frame? t.currentId = some f ∧ f.progress? = some p ∧ p.savedPc = 0
  below : t.current.func < t.top
  awake : t.suspended = false

/-- Enter the interpreted function in a slot, and install a hook. -/
def enter {W : Type} (t : Thread H W) (func : Nat) (flags : CallFlags) (hook : H) (mask : HookMask)
    (count : Int) : Thread H W :=
  (t.pushScriptFrame func flags).2.setHook (some hook) mask count

/-- A hook that is installed marks frames, and changes nothing else in the machine. -/
theorem exists_armTraps_setHook {W : Type} (t : Thread H W) (hook : Option H) (mask : HookMask)
    (count : Int) : ∃ ids, (t.setHook hook mask count).toMachine = t.toMachine.armTraps ids := by
  unfold setHook
  by_cases hinstalls : (hook.isSome && !mask.isEmpty) = true
  · simp only [hinstalls, if_true]
    exact ⟨_, rfl⟩
  · simp only [hinstalls, Bool.false_eq_true, if_false]
    exact ⟨[], rfl⟩

/-- The frame of a function that is called in a slot below the top. -/
theorem frame_enter {W : Type} {t : Thread H W} {func : Nat} {upvalues : Array Nat}
    (hslot : t.stack[func]?.bind t.function? = some (.script proto upvalues))
    (hfunc : func < t.top) (flags : CallFlags) (hook : H) (mask : HookMask) (count : Int) :
    (∃ f p, (t.enter func flags hook mask count).frame?
        (t.enter func flags hook mask count).currentId = some f ∧ f.progress? = some p ∧
          p.savedPc = 0 ∧ f.func = func ∧ f.flags = flags) ∧
      (t.enter func flags hook mask count).frameProto?
        (t.enter func flags hook mask count).currentId = some proto ∧
      func < (t.enter func flags hook mask count).top := by
  obtain ⟨⟨f, hf, hplace, hsaved, hflags⟩, hproto, htop⟩ :=
    Machine.enterScript_frame hslot hfunc flags
  have hpush := congrArg Prod.snd (pushScriptFrame_of_slot hslot flags)
  obtain ⟨ids, hmarked⟩ := (t.pushScriptFrame func flags).2.exists_armTraps_setHook (some hook)
    mask count
  have hmachine : (t.enter func flags hook mask count).toMachine =
      (t.enterScript proto func flags).armTraps ids := by
    rw [enter, hmarked, hpush]
    rfl
  obtain ⟨⟨f', hf', hplace', hsaved', hflags'⟩, hproto', hid⟩ :=
    Machine.exists_frame_armTraps ids hf
  rw [hsaved, Frame.savedPc?, Option.map_eq_some_iff] at hsaved'
  obtain ⟨p, hp, hzero⟩ := hsaved'
  rw [hmachine, hid]
  exact ⟨⟨f', p, hf', hp, hzero, hplace'.trans hplace, hflags'.trans hflags⟩,
    hproto'.trans hproto, htop⟩

/-- A function that is called does not change what a thread is told and whether it is suspended. -/
theorem pushScriptFrame_rest {W : Type} (t : Thread H W) (func : Nat) (flags : CallFlags) :
    ∃ m, (t.pushScriptFrame func flags).2 = { t with toMachine := m } := by
  unfold pushScriptFrame
  split
  · exact ⟨_, rfl⟩
  · exact ⟨t.toMachine, rfl⟩

/-- A function that is called in a slot below the top is entered. -/
theorem enters_enter {W : Type} {t : Thread H W} {func : Nat} {upvalues : Array Nat}
    (hslot : t.stack[func]?.bind t.function? = some (.script proto upvalues))
    (hfunc : func < t.top) (hawake : t.suspended = false) (flags : CallFlags) (hook : H)
    (mask : HookMask) (count : Int) : (t.enter func flags hook mask count).Enters proto := by
  obtain ⟨⟨f, p, hf, hp, hzero, hplace, -⟩, hproto, htop⟩ :=
    frame_enter hslot hfunc flags hook mask count
  refine ⟨hproto, ⟨f, p, hf, hp, hzero⟩, ?_, ?_⟩
  · rw [Machine.current_eq hf, hplace]
    exact htop
  · obtain ⟨m, hpush⟩ := t.pushScriptFrame_rest func flags
    unfold enter setHook
    rw [hpush]
    exact hawake

theorem mask_enter {W : Type} (t : Thread H W) (func : Nat) (flags : CallFlags) (hook : H)
    {mask : HookMask} (hmask : mask.isEmpty = false) (count : Int) :
    (t.enter func flags hook mask count).mask = mask := by
  unfold enter setHook
  simp only [Option.isSome_some, hmask, Bool.not_false, Bool.and_self, if_true]

/-- A frame with a function is in the middle of a run once it is marked. -/
theorem runs_marked {W : Type} {t : Thread H W} {f : Frame} {p : Progress}
    (hf : t.frame? t.currentId = some f) (hp : f.progress? = some p)
    (hproto : t.frameProto? t.currentId = some proto) (hawake : t.suspended = false) :
    (t.onFrame t.currentId (·.setTrap true)).Runs proto t.currentId true := by
  refine ⟨currentId_onFrame t t.currentId _, ⟨f.setTrap true, { p with trap := true }, ?_, ?_,
    fun _ => rfl⟩, ?_, hawake⟩
  · rw [frame?_onFrame_self, hf, Option.map_some]
  · rw [Frame.setTrap, Frame.progress?_modifyProgress, hp]
    rfl
  · intro q hq
    have hfunc : ∀ f : Frame, (f.setTrap true).func = f.func := fun _ => rfl
    have hsame := t.toMachine.frameProto?_modifyFrame t.currentId t.currentId hfunc
    exact Option.some.inj ((hq.symm.trans hsame).trans hproto)

/-- The frame that was entered, once it is marked. -/
theorem Enters.marked {W : Type} {t : Thread H W} (h : t.Enters proto) :
    (t.onFrame t.currentId (·.setTrap true)).Runs proto t.currentId true ∧
      (t.onFrame t.currentId (·.setTrap true)).current.savedPc? = some 0 := by
  obtain ⟨f, p, hf, hp, hzero⟩ := h.frame
  refine ⟨runs_marked hf hp h.proto h.awake, ?_⟩
  rw [current_onFrame t hf, Frame.savedPc?_setTrap, Frame.savedPc?, hp, Option.map_some, hzero]

/-- The marked frame is in front of its first instruction. -/
theorem Enters.nextPc_marked {W : Type} {t : Thread H W} (h : t.Enters proto) :
    (t.onFrame t.currentId (·.setTrap true)).nextPc t.currentId = 0 := by
  obtain ⟨f, p, hf, hp, hzero⟩ := h.frame
  rw [nextPc, frame?_onFrame_self, hf, Option.map_some, Option.bind_some, Frame.savedPc?_setTrap,
    Frame.savedPc?, hp, Option.map_some, hzero]
  rfl

/-- A function that keeps no extra arguments is reported before its first instruction. -/
theorem Enters.beginRun_plain {W : Type} (run : Callback H W) {t : Thread H W} (h : t.Enters proto)
    (hmask : t.mask.isEmpty = false) (hvararg : proto.isVararg = false)
    (hflags : t.current.flags.hookYield = false) :
    t.beginRun run = (true, (t.onFrame t.currentId (·.setTrap true)).hookCall run t.currentId) := by
  have hmarked : (t.onFrame t.currentId (·.setTrap true)).current.flags.hookYield = false := by
    obtain ⟨f, p, hf, -, -⟩ := h.frame
    rw [current_onFrame t hf, ← hflags, Machine.current_eq hf]
    rfl
  rw [beginRun_of_events _ _ hmask, traceCall_eq _ _ h.proto]
  simp only [h.marked.2, hvararg, hmarked, Bool.false_eq_true, if_false, if_true]

/-- A function that keeps them is not reported yet, and its first instruction is not looked at. -/
theorem Enters.beginRun_vararg {W : Type} (run : Callback H W) {t : Thread H W} (h : t.Enters proto)
    (hmask : t.mask.isEmpty = false) (hvararg : proto.isVararg = true) :
    t.beginRun run = (false, t.onFrame t.currentId (·.setTrap true)) := by
  rw [beginRun_of_events _ _ hmask, traceCall_eq _ _ h.proto]
  simp only [h.marked.2, hvararg, if_true]

/-- A run begins between two instructions. -/
theorem Enters.beginRun_calm (h : t.Enters proto) (hmask : t.mask.isEmpty = false) :
    (t.beginRun calm).2.Proceeds proto t.currentId (t.beginRun calm).1 ∧
      (t.beginRun calm).2.mask = t.mask ∧ (t.beginRun calm).2.countBudget = t.countBudget ∧
      (t.beginRun calm).2.countLeft = t.countLeft := by
  obtain ⟨f, p, hf, -, -⟩ := h.frame
  have hcurrent := current_onFrame t hf (·.setTrap true)
  obtain ⟨hruns, hplace⟩ := h.marked
  rw [hcurrent] at hplace
  rw [beginRun_of_events _ _ hmask, traceCall_eq _ _ h.proto]
  simp only [hcurrent, hplace, if_true]
  split
  · refine ⟨⟨hruns.unwatched, fun _ _ => ⟨rfl, ?_⟩⟩, rfl, rfl, rfl⟩
    have hbelow := h.below
    rw [Machine.current_eq hf] at hbelow
    rw [hcurrent]
    exact hbelow
  · rename_i hvararg
    split
    · exact ⟨⟨hruns, fun h => absurd h hvararg⟩, rfl, rfl, rfl⟩
    · have hsame := (hookCall_calm (t.onFrame t.currentId (·.setTrap true)) t.currentId).settings
      exact ⟨⟨hruns.hookCall_calm _, fun h => absurd h hvararg⟩, hsame⟩

end Thread

end VmInspect
