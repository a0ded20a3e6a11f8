import VmInspect.Proofs.Thread.Observation
import VmInspect.Proofs.Thread.Watching

/-!
# Events inside a callback

A callback works on the thread that it is told about: it moves values, looks at variables, installs
hooks, calls and returns, and runs into the places where events are reported.  This file proves that no
callback is called from within a callback, and that the callback leaves no trace of having been called:

* `Thread.take` — what a callback can do, step by step.
* `Thread.take_of_forbidden` — while no events are reported, a step is the same with any callback.
* `Thread.discreet_take` — and it does not allow events, suspend the thread, or mark a frame.
* `Thread.fireHook_leaves_no_trace` — so a report puts everything back, and suspends the thread only if
  the callback says so at a line or a count.
-/

namespace VmInspect

namespace Machine

/-! ## Values and variables -/

/-- What is done to the values on the stack. -/
inductive StackAction where
  | push (v : Value)
  | pop
  | setTop (top : Nat)
  | setSlot (i : Nat) (v : Value)
  | ensureStack (n : Nat)
  | readLocal (id : Nat) (n : Int)
  | writeLocal (id : Nat) (n : Int)

def act (m : Machine) : StackAction → Machine
  | .push v => m.push v
  | .pop => m.drop
  | .setTop top => m.setTop top
  | .setSlot i v => m.setSlot i v
  | .ensureStack n => m.ensureStack n
  | .readLocal id n => (m.readLocal id n).2
  | .writeLocal id n => (m.writeLocal id n).2

@[simp] theorem frames_drop (m : Machine) : m.drop.frames = m.frames := by
  unfold drop
  split <;> rfl

/-- The frames have no part in it. -/
theorem frames_act (m : Machine) (action : StackAction) : (m.act action).frames = m.frames := by
  cases action with
  | push v => rfl
  | pop => exact m.frames_drop
  | setTop top => rfl
  | setSlot i v => rfl
  | ensureStack n => rfl
  | readLocal id n =>
    show (m.readLocal id n).2.frames = m.frames
    unfold readLocal
    split <;> rfl
  | writeLocal id n =>
    show (m.writeLocal id n).2.frames = m.frames
    unfold writeLocal
    split
    · exact m.frames_drop
    · rfl

end Machine

namespace Thread

variable {H W : Type}

/-! ## What a callback can do -/

/-- A step of a callback. -/
inductive CallbackStep (H W : Type) where
  | stack (action : Machine.StackAction)
  | setHook (hook : Option H) (mask : HookMask) (count : Int)
  | fireHook (event : HookEvent) (line : Option Int) (first count : Nat)
  | traceExec (pc : Nat)
  | traceCall
  | hookCall (id : Nat)
  | hookReturn (results : Nat)
  | hookVarargPrep
  | enterScript (func : Nat) (flags : CallFlags) (unmarked : flags.transfer = false)
  | enterNative (func : Nat)
  | leave (results : Nat)
  | adjustVarargs (fixed : Nat)
  | setSavedPc (id pc : Nat)
  | resume
  /-- something that concerns the callback alone -/
  | note (change : W → W)

variable (run other : Callback H W)

/-- Take a step, with the callback that is to be told about events. -/
def take (t : Thread H W) : CallbackStep H W → Thread H W
  | .stack action => t.onMachine (·.act action)
  | .setHook hook mask count => t.setHook hook mask count
  | .fireHook event line first count => (t.fireHook run event line first count).2
  | .traceExec pc => (t.traceExec run pc).2
  | .traceCall => (t.traceCall run).2
  | .hookCall id => t.hookCall run id
  | .hookReturn results => t.hookReturn run results
  | .hookVarargPrep => t.hookVarargPrep run
  | .enterScript func flags _ => (t.pushScriptFrame func flags).2
  | .enterNative func => (t.pushNativeFrame run func).2
  | .leave results => (t.popFrame run results).2
  | .adjustVarargs fixed => t.onMachine (·.adjustVarargs fixed)
  | .setSavedPc id pc => t.onFrame id (·.setSavedPc pc)
  | .resume => t.resume
  | .note change => { t with host := change t.host }

def takeAll (t : Thread H W) (steps : List (CallbackStep H W)) : Thread H W := steps.foldl (take run) t

variable {run other} {t t' t'' : Thread H W}

/-! ## While no events are reported -/

section Forbidden

theorem fireHook_of_forbidden (h : t.allowHook = false) (event : HookEvent) (line : Option Int)
    (first count : Nat) : t.fireHook run event line first count = (.proceed, t) := by
  unfold fireHook
  simp only [h, Bool.false_eq_true, if_false]
  split <;> rfl

theorem report_of_forbidden (h : t.allowHook = false) (event : HookEvent) (line : Option Int)
    (first count : Nat) : t.report run event line first count = t :=
  congrArg Prod.snd (fireHook_of_forbidden h event line first count)

/-- All that a call that is not reported leaves behind is that lines are told anew. -/
theorem hookCall_of_forbidden (h : t.allowHook = false) (id : Nat) :
    t.hookCall run id = { t with oldPc := 0 } := by
  cases hf : t.frame? id with
  | none => rw [hookCall_of_no_frame run hf]
  | some f =>
    cases hcall : t.mask.call with
    | false => rw [hookCall_of_not_selected run hcall]
    | true =>
      rw [hookCall_of_selected run hf hcall, report_of_forbidden, onFrame_onFrame]
      · refine onFrame_eq_self _ _ fun g hg => ?_
        obtain rfl := Option.some.inj (hf.symm.trans hg)
        exact f.setSavedPc_setSavedPc_savedPc? _
      · exact h

theorem reportEvents_of_forbidden (h : t.allowHook = false) (proto : Proto) (pc : Nat) (mask : HookMask)
    (countDue : Bool) :
    t.reportEvents run proto pc mask countDue =
      if mask.line then { t.protectWindow proto pc with oldPc := pc } else t.protectWindow proto pc := by
  have hwindow : (t.protectWindow proto pc).allowHook = false := by
    obtain ⟨top, hprotect, -⟩ := t.exists_protectWindow proto pc
    rw [hprotect]
    exact h
  have hcount : (t.protectWindow proto pc).reportCount run countDue = t.protectWindow proto pc := by
    unfold reportCount
    rw [report_of_forbidden hwindow]
    exact ite_self _
  rw [reportEvents_eq, hcount, reportLine, report_of_forbidden hwindow, ite_self]

theorem hookVarargPrep_of_forbidden (h : t.allowHook = false) :
    t.hookVarargPrep run = if t.current.trap then { t with oldPc := 1 } else t := by
  rw [hookVarargPrep, hookCall_of_forbidden h]

theorem hookReturn_of_forbidden (h : t.allowHook = false) (results : Nat) :
    t.hookReturn run results = t.backToCaller t.currentId := by
  rw [hookReturn_eq, report_of_forbidden h, ite_self]

/-- A look at an instruction reports nothing. -/
theorem traceExec_of_forbidden (h : t.allowHook = false) (pc : Nat) :
    t.traceExec run pc = t.traceExec other pc := by
  cases hproto : t.frameProto? t.currentId with
  | none => rw [traceExec_of_no_proto _ _ hproto, traceExec_of_no_proto _ _ hproto]
  | some proto =>
    cases hwatch : t.mask.watchesInstructions with
    | false =>
      rw [traceExec_of_unwatched _ _ hproto hwatch, traceExec_of_unwatched _ _ hproto hwatch]
    | true =>
      have hcharged : (t.charged pc).allowHook = false := h
      rw [traceExec_eq _ _ hproto hwatch, traceExec_eq _ _ hproto hwatch,
        reportEvents_of_forbidden hcharged, reportEvents_of_forbidden hcharged]

theorem traceCall_of_forbidden (h : t.allowHook = false) : t.traceCall run = t.traceCall other := by
  have hmarked : (t.onFrame t.currentId (·.setTrap true)).allowHook = false := h
  unfold traceCall
  simp only [hookCall_of_forbidden hmarked]

theorem pushNativeFrame_of_forbidden (h : t.allowHook = false) (func : Nat) :
    t.pushNativeFrame run func = t.pushNativeFrame other func := by
  have hentered : (t.onMachine (·.enterNative func)).allowHook = false := h
  unfold pushNativeFrame
  simp only [report_of_forbidden hentered]

theorem popFrame_of_forbidden (h : t.allowHook = false) (results : Nat) :
    t.popFrame run results = t.popFrame other results := by
  unfold popFrame
  rw [hookReturn_of_forbidden h, hookReturn_of_forbidden h]

/-- Whatever callback is to be told about events, it is not called. -/
theorem take_of_forbidden (h : t.allowHook = false) (step : CallbackStep H W) :
    t.take run step = t.take other step := by
  cases step with
  | stack action => rfl
  | setHook hook mask count => rfl
  | fireHook event line first count =>
    rw [take, take, fireHook_of_forbidden h, fireHook_of_forbidden h]
  | traceExec pc => rw [take, take, traceExec_of_forbidden h]
  | traceCall => rw [take, take, traceCall_of_forbidden h]
  | hookCall id => rw [take, take, hookCall_of_forbidden h, hookCall_of_forbidden h]
  | hookReturn results => rw [take, take, hookReturn_of_forbidden h, hookReturn_of_forbidden h]
  | hookVarargPrep => rw [take, take, hookVarargPrep_of_forbidden h, hookVarargPrep_of_forbidden h]
  | enterScript func flags _ => rfl
  | enterNative func => rw [take, take, pushNativeFrame_of_forbidden h]
  | leave results => rw [take, take, popFrame_of_forbidden h]
  | adjustVarargs fixed => rfl
  | setSavedPc id pc => rfl
  | resume => rfl
  | note change => rfl

end Forbidden

/-! ## What a callback leaves alone -/

/-- The second thread is the first one after something that did not allow events, suspend the thread, or
mark a frame for values that are moved. -/
structure Discreet (t t' : Thread H W) : Prop where
  allowHook : t'.allowHook = t.allowHook
  suspended : t'.suspended = true → t.suspended = true
  transfer : ∀ id f', t'.frame? id = some f' → f'.flags.transfer = true →
    ∃ f, t.frame? id = some f ∧ f.flags.transfer = true

namespace Discreet

theorem refl (t : Thread H W) : Discreet t t := ⟨rfl, id, fun _ f' hf' hmark => ⟨f', hf', hmark⟩⟩

theorem trans (h : Discreet t t') (h' : Discreet t' t'') : Discreet t t'' where
  allowHook := h'.allowHook.trans h.allowHook
  suspended hs := h.suspended (h'.suspended hs)
  transfer id f'' hf'' hmark := by
    obtain ⟨f', hf', hmark'⟩ := h'.transfer id f'' hf'' hmark
    exact h.transfer id f' hf' hmark'

/-- What has no part in the frames is discreet. -/
theorem of_frames_eq (hframes : t'.frames = t.frames) (hallow : t'.allowHook = t.allowHook)
    (hsuspended : t'.suspended = t.suspended) : Discreet t t' :=
  ⟨hallow, fun h => hsuspended.symm.trans h, fun _ f' hf' hmark =>
    ⟨f', by rw [Machine.frame?, ← hframes]; exact hf', hmark⟩⟩

theorem onFrame (t : Thread H W) (id : Nat) {change : Frame → Frame}
    (hchange : ∀ f, (change f).flags.transfer = true → f.flags.transfer = true) :
    Discreet t (t.onFrame id change) := by
  refine ⟨rfl, fun h => h, fun j f' hf' hmark => ?_⟩
  change (t.toMachine.modifyFrame id change).frame? j = some f' at hf'
  rw [Machine.frame?_modifyFrame] at hf'
  split at hf'
  · obtain ⟨f, hf, rfl⟩ := Option.map_eq_some_iff.1 hf'
    exact ⟨f, hf, hchange f hmark⟩
  · exact ⟨f', hf', hmark⟩

/-- A frame that is added has no mark. -/
theorem push {f : Frame} (hframes : t'.frames = t.frames.push f) (hunmarked : f.flags.transfer = false)
    (hallow : t'.allowHook = t.allowHook) (hsuspended : t'.suspended = t.suspended) :
    Discreet t t' := by
  refine ⟨hallow, fun h => hsuspended.symm.trans h, fun id f' hf' hmark => ?_⟩
  rw [Machine.frame?, hframes, Array.getElem?_push] at hf'
  split at hf'
  · obtain rfl := Option.some.inj hf'
    rw [hunmarked] at hmark
    cases hmark
  · exact ⟨f', hf', hmark⟩

end Discreet

theorem discreet_setHook (t : Thread H W) (hook : Option H) (mask : HookMask) (count : Int) :
    Discreet t (t.setHook hook mask count) := by
  refine ⟨rfl, fun h => h, fun id f' hf' hmark => ?_⟩
  have hframe := congrArg (·[id]?) (t.sameButTraps_setHook hook mask count).frames
  simp only [Array.getElem?_map] at hframe
  rw [Machine.frame?] at hf'
  rw [hf', Option.map_some, eq_comm, Option.map_eq_some_iff] at hframe
  obtain ⟨f, hf, heq⟩ := hframe
  refine ⟨f, hf, ?_⟩
  show f.untrapped.flags.transfer = true
  rw [heq]
  exact hmark

theorem discreet_traceExec (h : t.allowHook = false) (pc : Nat) :
    Discreet t (t.traceExec run pc).2 := by
  have hsaved : Discreet t (t.onFrame t.currentId (·.setSavedPc (pc + 1))) :=
    .onFrame t t.currentId fun f hf => hf
  have hcharged : Discreet t (t.charged pc) := hsaved.trans (.of_frames_eq rfl rfl rfl)
  have hevents : ∀ proto told, (t.charged pc).reportEvents run proto pc t.mask t.countIsDue = told →
      Discreet t told := by
    rintro proto told rfl
    have hwindow : Discreet (t.charged pc) ((t.charged pc).protectWindow proto pc) := by
      obtain ⟨top, hprotect, -⟩ := (t.charged pc).exists_protectWindow proto pc
      rw [hprotect]
      exact .of_frames_eq rfl rfl rfl
    rw [reportEvents_of_forbidden (show (t.charged pc).allowHook = false from h)]
    refine hcharged.trans ?_
    split
    · exact hwindow.trans (.of_frames_eq rfl rfl rfl)
    · exact hwindow
  have hlook := t.look_traceExec run pc
  generalize t.traceExec run pc = result at hlook ⊢
  cases hlook with
  | idle => exact .refl t
  | unwatched => exact .onFrame t t.currentId fun f hf => hf
  | quiet => exact hcharged
  | resumed =>
    refine hcharged.trans (.onFrame _ _ fun f hf => ?_)
    simpa [Frame.removeFlags, CallFlags.remove, yieldFlag] using hf
  | reported _ htold => exact hevents _ _ htold
  | @suspended _ told _ htold =>
    have hbudget : Discreet told
        { told with countLeft := if t.countIsDue then 1 else told.countLeft } :=
      .of_frames_eq rfl rfl rfl
    refine ((hevents _ _ htold).trans hbudget).trans (.onFrame _ _ fun f hf => ?_)
    simpa [Frame.insertFlags, CallFlags.insert, yieldFlag] using hf

theorem discreet_backToCaller (t : Thread H W) (id : Nat) : Discreet t (t.backToCaller id) := by
  obtain ⟨pc, hback⟩ := t.exists_backToCaller id
  rw [hback]
  exact .of_frames_eq rfl rfl rfl

theorem discreet_popFrame (h : t.allowHook = false) (results : Nat) :
    Discreet t (t.popFrame run results).2 := by
  have hleave : ∀ u : Thread H W, Discreet u (u.onMachine (·.leave t.currentId results)) := by
    intro u
    refine ⟨rfl, fun h => h, fun id f' hf' hmark => ⟨f', ?_, hmark⟩⟩
    change u.frames.pop[id]? = some f' at hf'
    rw [Array.getElem?_pop] at hf'
    split at hf'
    · exact hf'
    · cases hf'
  unfold popFrame
  rw [hookReturn_of_forbidden h]
  by_cases hbase : t.currentId = Machine.baseFrame
  · simp only [hbase, if_true]
    exact .refl t
  · simp only [hbase, if_false]
    refine Discreet.trans ?_ (hleave _)
    split
    · exact .refl t
    · exact t.discreet_backToCaller t.currentId

theorem discreet_pushNativeFrame (h : t.allowHook = false) (func : Nat) :
    Discreet t (t.pushNativeFrame run func).2 := by
  have hentered : (t.onMachine (·.enterNative func)).allowHook = false := h
  unfold pushNativeFrame
  simp only [report_of_forbidden hentered, ite_self]
  split
  · exact .push (f := Frame.native func (t.top + Machine.minStack) (some t.currentId)) rfl rfl rfl rfl
  · exact .refl t

theorem discreet_traceCall (h : t.allowHook = false) : Discreet t (t.traceCall run).2 := by
  have hmarked : Discreet t (t.onFrame t.currentId (·.setTrap true)) :=
    .onFrame t t.currentId fun f hf => hf
  have hopening := t.opening_traceCall run
  generalize t.traceCall run = result at hopening ⊢
  cases hopening with
  | idle => exact .refl t
  | vararg _ hu => exact hu ▸ hmarked
  | onward _ hu => exact hu ▸ hmarked
  | entered _ hu =>
    subst hu
    rw [hookCall_of_forbidden (show (t.onFrame t.currentId (·.setTrap true)).allowHook = false from h)]
    exact hmarked.trans (.of_frames_eq rfl rfl rfl)

theorem discreet_resume (t : Thread H W) : Discreet t t.resume := by
  have hawake : Discreet t { t with suspended := false } :=
    ⟨rfl, fun h => (by cases h), fun _ f' hf' hmark => ⟨f', hf', hmark⟩⟩
  unfold resume
  split
  · refine hawake.trans (.onFrame _ _ fun f hf => ?_)
    cases hpc : f.currentPc? with
    | none => rwa [hpc] at hf
    | some pc => rwa [hpc] at hf
  · exact .refl t

/-- The step lemma: a step of a callback is discreet. -/
theorem discreet_take (h : t.allowHook = false) (step : CallbackStep H W) :
    Discreet t (t.take run step) := by
  cases step with
  | stack action => exact .of_frames_eq (t.toMachine.frames_act action) rfl rfl
  | setHook hook mask count => exact t.discreet_setHook hook mask count
  | fireHook event line first count =>
    rw [take, fireHook_of_forbidden h]
    exact .refl t
  | traceExec pc => exact discreet_traceExec h pc
  | traceCall => exact discreet_traceCall h
  | hookCall id =>
    rw [take, hookCall_of_forbidden h]
    exact .of_frames_eq rfl rfl rfl
  | hookReturn results =>
    rw [take, hookReturn_of_forbidden h]
    exact t.discreet_backToCaller t.currentId
  | hookVarargPrep =>
    rw [take, hookVarargPrep_of_forbidden h]
    split
    · exact .of_frames_eq rfl rfl rfl
    · exact .refl t
  | enterScript func flags unmarked =>
    show Discreet t (t.pushScriptFrame func flags).2
    unfold pushScriptFrame
    split
    · exact .push (t.toMachine.frames_enterScript _ func flags) unmarked rfl rfl
    · exact .refl t
  | enterNative func => exact discreet_pushNativeFrame h func
  | leave results => exact discreet_popFrame h results
  | adjustVarargs fixed =>
    have hmoved : Discreet t
        (t.onFrame t.currentId (Machine.adjustedFrame (t.above t.current.func) fixed)) :=
      .onFrame t t.currentId fun f hf => hf
    exact hmoved.trans (.of_frames_eq (t.toMachine.frames_adjustVarargs fixed) rfl rfl)
  | setSavedPc id pc => exact .onFrame t id fun f hf => hf
  | resume => exact t.discreet_resume
  | note change => exact .of_frames_eq rfl rfl rfl

/-- The run lemma: any steps are discreet. -/
theorem discreet_takeAll (h : t.allowHook = false) (steps : List (CallbackStep H W)) :
    Discreet t (t.takeAll run steps) := by
  induction steps generalizing t with
  | nil => exact .refl t
  | cons step steps ih =>
    have hstep : Discreet t (t.take run step) := discreet_take h step
    exact hstep.trans (ih (hstep.allowHook.trans h))

/-- They are the same with any callback. -/
theorem takeAll_of_forbidden (h : t.allowHook = false) (steps : List (CallbackStep H W)) :
    t.takeAll run steps = t.takeAll other steps := by
  induction steps generalizing t with
  | nil => rfl
  | cons step steps ih =>
    have hstep : Discreet t (t.take run step) := discreet_take h step
    have hsame : t.take run step = t.take other step := take_of_forbidden h step
    show (t.take run step).takeAll run steps = (t.take other step).takeAll other steps
    rw [ih (hstep.allowHook.trans h), hsame]

/-! ## Reports -/

section Reports

variable {event : HookEvent} {line : Option Int} {first count : Nat}

/-- After a report the current frame is as it was, whatever was done discreetly. -/
theorem current_endReport {u : Thread H W} (h : Discreet (t.beginReport first count) u)
    (hsize : u.frames.size = t.frames.size) (hhooked : t.current.flags.hooked = false)
    (htransfer : t.current.flags.transfer = false) :
    let after := u.endReport t.currentId t.top t.current.top count
    after.current.top = t.current.top ∧ after.current.flags.hooked = false ∧
      after.current.flags.transfer = false := by
  intro after
  have hid : after.currentId = t.currentId := by
    show (u.toMachine.modifyFrame _ _).currentId = t.currentId
    rw [Machine.currentId_modifyFrame, Machine.currentId, hsize, Machine.currentId]
  have hframe : after.frame? after.currentId = (u.frame? t.currentId).map fun f =>
      { f with top := t.current.top }.removeFlags (reportFlags count) := by
    rw [hid]
    exact u.toMachine.frame?_modifyFrame_self t.currentId _
  cases hg : u.frame? t.currentId with
  | none =>
    -- there is no frame at all
    have hnone : after.current = t.current := by
      rw [hg, Option.map_none] at hframe
      have hout : t.frame? t.currentId = none := by
        rw [Machine.frame?, Array.getElem?_eq_none_iff] at hg ⊢
        rwa [← hsize]
      rw [Machine.frame?] at hframe hout
      rw [Machine.current, Machine.frameAt, hframe, Machine.current, Machine.frameAt, hout]
    rw [hnone]
    exact ⟨rfl, hhooked, htransfer⟩
  | some g =>
    rw [hg, Option.map_some] at hframe
    have hcurrent := Machine.current_eq hframe
    refine ⟨by rw [hcurrent]; rfl, ?_, ?_⟩
    · rw [hcurrent]
      exact Bool.and_false _
    · rw [hcurrent]
      show (g.flags.transfer && !(count != 0)) = false
      refine Bool.eq_false_iff.2 fun hboth => ?_
      obtain ⟨hmark, hcount⟩ := Bool.and_eq_true_iff.1 hboth
      obtain ⟨f', hf', hmark'⟩ := h.transfer _ g hg hmark
      change (Machine.modifyFrame _ t.currentId _).frame? t.currentId = some f' at hf'
      rw [Machine.frame?_modifyFrame_self] at hf'
      obtain ⟨f, hf, rfl⟩ := Option.map_eq_some_iff.1 hf'
      rw [Machine.current_eq (show t.frame? t.currentId = some f from hf)] at htransfer
      change (f.flags.transfer || count != 0) = true at hmark'
      rw [htransfer, Bool.false_or] at hmark'
      rw [hmark'] at hcount
      cases hcount

/-- **Callbacks are not called from callbacks, and leave no trace.**  An event is reported in a frame that
is not marked for a report, and the callback takes any steps after which as many frames are there.  It
takes the same steps with any other callback to be told about what happens meanwhile, so none is told.
Afterwards the top and that of the frame, the marks of the frame and the leave to report are what they were,
and the thread is suspended only if the callback says so at a line or a count. -/
theorem fireHook_leaves_no_trace (hallow : t.allowHook = true)
    (hhooked : t.current.flags.hooked = false) (htransfer : t.current.flags.transfer = false)
    {steps : H → List (CallbackStep H W)}
    (hcallback : ∀ hook, t.hook = some hook →
      (run hook ⟨event, line, t.currentId⟩ (t.beginReport first count)).2 =
        (t.beginReport first count).takeAll run (steps hook))
    (hsize : ∀ hook, t.hook = some hook →
      ((t.beginReport first count).takeAll run (steps hook)).frames.size = t.frames.size) :
    let after := (t.fireHook run event line first count).2
    (∀ hook, t.hook = some hook → ∀ other : Callback H W,
        (run hook ⟨event, line, t.currentId⟩ (t.beginReport first count)).2 =
          (t.beginReport first count).takeAll other (steps hook)) ∧
      after.top = t.top ∧ after.current.top = t.current.top ∧
      after.current.flags.hooked = t.current.flags.hooked ∧
      after.current.flags.transfer = t.current.flags.transfer ∧ after.allowHook = t.allowHook ∧
      (t.suspended = false →
        (after.suspended = true ↔ (event = .line ∨ event = .count) ∧ ∃ hook, t.hook = some hook ∧
          (run hook ⟨event, line, t.currentId⟩ (t.beginReport first count)).1 = .yield)) := by
  intro after
  have hmay : mayYield event = true ↔ event = .line ∨ event = .count := by
    cases event <;> simp [mayYield]
  cases hhook : t.hook with
  | none =>
    have hnone : after = t := by
      show (t.fireHook run event line first count).2 = t
      unfold fireHook
      simp only [hhook]
    rw [hnone]
    refine ⟨fun _ h => (by cases h), rfl, rfl, rfl, rfl, rfl, fun hawake => ⟨fun h => ?_, ?_⟩⟩
    · rw [hawake] at h
      cases h
    · rintro ⟨-, hook, h, -⟩
      cases h
  | some hook =>
    have hforbidden : (t.beginReport first count).allowHook = false := rfl
    have hdone := hcallback hook hhook
    have hkept := hsize hook hhook
    have hdiscreet : Discreet (t.beginReport first count)
        ((t.beginReport first count).takeAll run (steps hook)) := discreet_takeAll hforbidden _
    rw [← hdone] at hdiscreet hkept
    have hothers : ∀ other : Callback H W,
        (run hook ⟨event, line, t.currentId⟩ (t.beginReport first count)).2 =
          (t.beginReport first count).takeAll other (steps hook) := by
      intro other
      rw [hdone]
      exact takeAll_of_forbidden hforbidden (steps hook)
    have hafter : after = (t.fireHook run event line first count).2 := rfl
    unfold fireHook at hafter
    simp only [hhook, hallow, if_true] at hafter
    obtain ⟨⟨answer, u⟩, hrun⟩ : ∃ result,
        run hook ⟨event, line, t.currentId⟩ (t.beginReport first count) = result := ⟨_, rfl⟩
    simp only [hrun, Option.some.injEq, forall_eq', exists_eq_left'] at hafter hdiscreet hkept hothers ⊢
    obtain ⟨htop, hunhooked, hunmarked⟩ := current_endReport hdiscreet hkept hhooked htransfer
    rw [← hmay]
    split at hafter
    · rename_i hyields
      rw [hafter]
      exact ⟨hothers, rfl, htop, hunhooked.trans hhooked.symm, hunmarked.trans htransfer.symm,
        hallow.symm, fun _ => ⟨fun _ => hyields.symm, fun _ => rfl⟩⟩
    · rename_i hproceeds
      rw [hafter]
      refine ⟨hothers, rfl, htop, hunhooked.trans hhooked.symm, hunmarked.trans htransfer.symm,
        hallow.symm, fun hawake => ⟨fun hsuspended => ?_, fun h => absurd h.symm hproceeds⟩⟩
      have hnot : t.suspended = true := hdiscreet.suspended hsuspended
      rw [hawake] at hnot
      cases hnot

end Reports

/-- A callback that takes certain steps and wants to suspend the thread. -/
def meddler (steps : List (CallbackStep H W)) : Callback H W :=
  fun _ _ t => (.yield, t.takeAll (fun _ _ u => (.proceed, u)) steps)

theorem meddler_eq {t : Thread H W} (h : t.allowHook = false) (steps : List (CallbackStep H W)) (hook : H)
    (record : HookRecord) : (meddler steps hook record t).2 = t.takeAll (meddler steps) steps :=
  takeAll_of_forbidden h steps

/-- It counts itself, moves the top, overwrites a variable of its frame, installs another hook, and runs
into events of all kinds. -/
def meddling : List (CallbackStep Unit Nat) :=
  [.note (· + 1), .stack (.setTop 2), .stack (.push (.integer 5)), .stack (.writeLocal 1 1),
    .setHook (some ()) { call := true, line := true, count := true } 1, .fireHook .line none 0 0,
    .traceExec 0, .traceExec 1, .traceCall]

/-- A thread that has called a function, under a hook that is told about lines. -/
def meddledThread : Thread Unit Nat :=
  ((Thread.initial 0).onMachine fun m =>
    ((m.register (.script windingProto #[])).push (.function 0)).push .nil).enter 1 {} ()
      { line := true } 0

/-- At a line it is called once, though it runs into a line, a count and a call, and all is as it was but
for what it has done to the values and the hook, and for the suspension that it asks for. -/
theorem fireHook_leaves_no_trace_meddling :
    let t := meddledThread
    (t.fireHook (meddler meddling) .line (some 11) 0 0).2.host = 1 ∧
      (t.fireHook (meddler meddling) .line (some 11) 0 0).2.slot 2 = .integer 5 ∧
      (t.fireHook (meddler meddling) .line (some 11) 0 0).2.mask.call = true ∧
      (t.fireHook (meddler meddling) .line (some 11) 0 0).2.top = t.top ∧
      (t.fireHook (meddler meddling) .line (some 11) 0 0).2.current.top = t.current.top ∧
      (t.fireHook (meddler meddling) .line (some 11) 0 0).2.current.flags.hooked = t.current.flags.hooked ∧
      (t.fireHook (meddler meddling) .line (some 11) 0 0).2.current.flags.transfer = t.current.flags.transfer ∧
      (t.fireHook (meddler meddling) .line (some 11) 0 0).2.allowHook = t.allowHook ∧
      (t.fireHook (meddler meddling) .line (some 11) 0 0).2.suspended = true := by
  intro t
  have hallow : t.allowHook = true := by decide +kernel
  have hawake : t.suspended = false := by decide +kernel
  have hforbidden : (t.beginReport 0 0).allowHook = false := rfl
  have hcallback : ∀ hook, t.hook = some hook →
      (meddler meddling hook ⟨.line, some 11, t.currentId⟩ (t.beginReport 0 0)).2 =
        (t.beginReport 0 0).takeAll (meddler meddling) meddling :=
    fun hook _ => meddler_eq hforbidden meddling hook _
  have hsize : ((t.beginReport 0 0).takeAll (meddler meddling) meddling).frames.size = t.frames.size := by
    decide +kernel
  have hhook : t.hook = some () := by decide +kernel
  obtain ⟨-, htop, hframeTop, hhooked, htransfer, hkept, hsuspends⟩ :=
    fireHook_leaves_no_trace hallow (by decide +kernel) (by decide +kernel) hcallback fun _ _ => hsize
  have hanswer : ∀ hook record u, (meddler meddling hook record u).1 = .yield := fun _ _ _ => rfl
  exact ⟨by decide +kernel, by decide +kernel, by decide +kernel, htop, hframeTop, hhooked, htransfer,
    hkept, (hsuspends hawake).2 ⟨Or.inl rfl, (), hhook, hanswer _ _ _⟩⟩

end Thread

end VmInspect
