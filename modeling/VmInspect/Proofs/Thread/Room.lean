import VmInspect.Proofs.Machine.Room
import VmInspect.Proofs.Thread.Hosts

/-!
# Room on the stack of a watched thread

A program and its callback move values, call and return.  This file proves that slots are there whenever
one of them looks at a slot, also between the steps of a callback.  A monitor looks at all steps and takes
note of the first fault that it sees:

* `Thread.Plan`, `Thread.planned` — a callback that moves values, looks at variables and installs hooks.
* `Thread.monitored` — the same callback under a monitor, which it does not notice
  (`Thread.follows_monitored`).
* `Thread.Sound.report` — a report is without fault, and puts the tops back.
* `Thread.Sound.exec` — so is each command that is given what it needs.
* `Thread.bounds_hold` — there is room, and no slot is missing, in every run of such commands.
-/

namespace VmInspect

/-- Whether there is room above the top and above each frame, and a slot for the function of each. -/
def Machine.isBounded (m : Machine) : Bool :=
  decide (m.top + extraStack ≤ m.stack.size) &&
    m.frames.all fun f => decide (f.top + extraStack ≤ m.stack.size) && decide (f.func < m.stack.size)

theorem Machine.Roomy.isBounded {m : Machine} (h : m.Roomy) : m.isBounded = true := by
  unfold Machine.isBounded
  rw [decide_eq_true h.room, Bool.true_and, Array.all_eq_true]
  intro id hid
  have hfits := h.fits id m.frames[id] (Array.getElem?_eq_getElem hid)
  rw [decide_eq_true hfits.top, decide_eq_true hfits.func, Bool.and_true]

namespace Thread

variable {H W : Type}

/-! ## What is done to a thread -/

/-- What a callback does to a thread. -/
inductive Edit (H : Type) where
  | stack (action : Machine.StackAction)
  | setHook (hook : Option H) (mask : HookMask) (count : Int)

/-- What a program does to a thread. -/
inductive Command (H : Type) where
  | edit (e : Edit H)
  | register (f : FunctionObject)
  | enterScript (func : Nat) (flags : CallFlags)
  | enterNative (func : Nat)
  | adjustVarargs (fixed : Nat)
  | leave (results : Nat)
  | fireHook (event : HookEvent) (line : Option Int) (first count : Nat)
  | traceCall
  | traceExec (pc : Nat)
  | resume

/-- What a callback is going to do, as it sees the thread that it is told about: its answer, what it keeps,
and how it changes the thread.  Whatever it finds out between its edits follows from that thread. -/
abbrev Plan (H W : Type) := H → HookRecord → Thread H W → HookAnswer × W × List (Edit H)

def edit (t : Thread H W) : Edit H → Thread H W
  | .stack action => t.onMachine (·.act action)
  | .setHook hook mask count => t.setHook hook mask count

section Exec

variable (run : Callback H W)

def exec (t : Thread H W) : Command H → Thread H W
  | .edit e => t.edit e
  | .register f => t.onMachine (·.register f)
  | .enterScript func flags => (t.pushScriptFrame func flags).2
  | .enterNative func => (t.pushNativeFrame run func).2
  | .adjustVarargs fixed => t.onMachine (·.adjustVarargs fixed)
  | .leave results => (t.popFrame run results).2
  | .fireHook event line first count => (t.fireHook run event line first count).2
  | .traceCall => (t.traceCall run).2
  | .traceExec pc => (t.traceExec run pc).2
  | .resume => t.resume

/-- Each command is given what it needs, one after the other. -/
def Admissible (needs : Thread H W → Command H → Prop) : Thread H W → List (Command H) → Prop
  | _, [] => True
  | t, c :: commands => needs t c ∧ Admissible needs (t.exec run c) commands

end Exec

/-- The values that a command needs: there are as many arguments as fixed parameters are set apart, and as
many values above the function as are returned. -/
def HasValues (t : Thread H W) : Command H → Prop
  | .adjustVarargs fixed => fixed ≤ t.above t.current.func
  | .leave results => results ≤ t.above t.current.func
  | _ => True

/-- What a command needs. Where arguments are set apart in a native frame, its function lies below the
top, or below the top of the frame. -/
def Admits (t : Thread H W) : Command H → Prop
  | .adjustVarargs fixed =>
    t.HasValues (.adjustVarargs fixed) ∧
      (t.current.isScript = false → t.current.func < t.top ∨ t.current.func < t.current.top)
  | c => t.HasValues c

instance (t : Thread H W) : DecidablePred (t.HasValues : Command H → Prop)
  | .adjustVarargs fixed => inferInstanceAs (Decidable (fixed ≤ t.above t.current.func))
  | .leave results => inferInstanceAs (Decidable (results ≤ t.above t.current.func))
  | .edit _ | .register _ | .enterScript _ _ | .enterNative _ | .fireHook _ _ _ _ | .traceCall
  | .traceExec _ | .resume => .isTrue trivial

instance (t : Thread H W) : DecidablePred (t.Admits : Command H → Prop)
  | .adjustVarargs fixed => inferInstanceAs (Decidable (t.HasValues (.adjustVarargs fixed) ∧
      (t.current.isScript = false → t.current.func < t.top ∨ t.current.func < t.current.top)))
  | .leave results => inferInstanceAs (Decidable (t.HasValues (.leave results)))
  | .edit _ | .register _ | .enterScript _ _ | .enterNative _ | .fireHook _ _ _ _ | .traceCall
  | .traceExec _ | .resume => .isTrue trivial

instance decidableAdmissible (run : Callback H W) (needs : Thread H W → Command H → Prop)
    [∀ t, DecidablePred (needs t)] :
    ∀ (t : Thread H W) (commands : List (Command H)), Decidable (Admissible run needs t commands)
  | _, [] => .isTrue trivial
  | t, c :: commands =>
    have := decidableAdmissible run needs (t.exec run c) commands
    inferInstanceAs (Decidable (needs t c ∧ Admissible run needs (t.exec run c) commands))

/-! ## Monitors -/

/-- What a callback keeps, and whether there was a fault. -/
structure Monitor (W : Type) where
  own : W
  fault : Bool := false
deriving Repr

/-- Take note of a fault: a slot was missing, or there is no room now. -/
def inspect (t : Thread H (Monitor W)) (missed : Bool) : Thread H (Monitor W) :=
  { t with host := { t.host with fault := t.host.fault || missed || !t.isBounded } }

/-- Whether an edit looks at a slot that is not there. -/
def Edit.misses (m : Machine) : Edit H → Bool
  | .stack action => (m.act? action).isNone
  | .setHook _ _ _ => false

def monitoredEdit (t : Thread H (Monitor W)) (e : Edit H) : Thread H (Monitor W) :=
  (t.edit e).inspect (e.misses t.toMachine)

/-- A callback that does as planned, with a look at the thread that it is told about, and at it again after
each edit. -/
def monitored (plan : Plan H W) : Callback H (Monitor W) := fun hook record t =>
  let (answer, host, edits) := plan hook record (t.mapHost Monitor.own)
  let edited := edits.foldl monitoredEdit (t.inspect false)
  (answer, { edited with host := ⟨host, edited.host.fault⟩ })

/-- Whether a call looks at a slot that is not there. A call of anything else is refused before. -/
def callMisses (m : Machine) (func : Nat) (flags : CallFlags) : Bool :=
  match m.stack[func]?.bind m.function? with
  | some (.script proto _) => (m.enterScript? proto func flags).isNone
  | _ => false

/-- Whether a return looks at a slot that is not there. It is reported before it is made. -/
def returnMisses (run : Callback H W) (t : Thread H W) (results : Nat) : Bool :=
  if t.currentId = Machine.baseFrame then false
  else
    let u := if t.mask.isEmpty then t else t.hookReturn run results
    (u.leave? t.currentId results).isNone

/-- Whether a command looks at a slot that is not there. -/
def misses (run : Callback H W) (t : Thread H W) : Command H → Bool
  | .edit e => e.misses t.toMachine
  | .enterScript func flags => callMisses t.toMachine func flags
  | .adjustVarargs fixed => (t.adjustVarargs? fixed).isNone
  | .leave results => t.returnMisses run results
  | .register _ => false
  | .enterNative _ => false
  | .fireHook _ _ _ _ => false
  | .traceCall => false
  | .traceExec _ => false
  | .resume => false

/-- There is room, and there was no fault. -/
structure Sound (t : Thread H (Monitor W)) : Prop where
  roomy : t.Roomy
  clean : t.host.fault = false

variable {t : Thread H (Monitor W)}

/-- A look at a thread that is sound. -/
theorem Sound.inspect (h : t.Sound) {missed : Bool} (hmissed : missed = false) :
    (t.inspect missed).Sound := by
  refine ⟨h.roomy, ?_⟩
  show (t.host.fault || missed || !t.isBounded) = false
  rw [h.clean, hmissed, h.roomy.isBounded]
  rfl

theorem settled_armTraps (m : Machine) (ids : List Nat) : m.Settled (m.armTraps ids) := by
  induction ids generalizing m with
  | nil => exact .refl m
  | cons id ids ih =>
    exact (Machine.Settled.modifyFrame m id fun f => f.outline_setTrap true).trans
      (ih (m.modifyFrame id (·.setTrap true)))

theorem settled_setHook (t : Thread H W) (hook : Option H) (mask : HookMask) (count : Int) :
    t.toMachine.Settled (t.setHook hook mask count).toMachine ∧
      (t.setHook hook mask count).top = t.top ∧
      (t.setHook hook mask count).stack = t.stack := by
  unfold setHook
  simp only
  split
  · exact ⟨settled_armTraps _ _, rfl, rfl⟩
  · exact ⟨.refl _, rfl, rfl⟩

/-- An edit is without fault, and moves no frame. -/
theorem Sound.monitoredEdit (h : t.Sound) (e : Edit H) :
    (t.monitoredEdit e).Sound ∧ t.toMachine.Settled (t.monitoredEdit e).toMachine := by
  cases e with
  | stack action =>
    obtain ⟨hsome, hwide⟩ := Machine.act?_eq h.roomy.room action
    have hedited : Sound (t.onMachine (·.act action)) := ⟨h.roomy.act action, h.clean⟩
    refine ⟨hedited.inspect ?_, .of_frames_eq (t.frames_act action) hwide.size⟩
    show (t.act? action).isNone = false
    rw [hsome]
    rfl
  | setHook hook mask count =>
    obtain ⟨hsettled, htop, hstack⟩ := t.settled_setHook hook mask count
    have hroom : (t.setHook hook mask count).top + Machine.extraStack ≤
        (t.setHook hook mask count).stack.size := by
      rw [htop, hstack]
      exact h.roomy.room
    have hedited : (t.setHook hook mask count).Sound := ⟨hsettled.roomy h.roomy hroom, h.clean⟩
    exact ⟨hedited.inspect rfl, hsettled⟩

theorem Sound.edits (h : t.Sound) (edits : List (Edit H)) :
    (edits.foldl Thread.monitoredEdit t).Sound ∧
      t.toMachine.Settled (edits.foldl Thread.monitoredEdit t).toMachine := by
  induction edits generalizing t with
  | nil => exact ⟨h, .refl _⟩
  | cons e edits ih =>
    obtain ⟨hedited, hsettled⟩ := h.monitoredEdit e
    obtain ⟨hdone, hrest⟩ := ih hedited
    exact ⟨hdone, hsettled.trans hrest⟩

/-! ## Reports -/

/-- Everything stands where it stood, and there was no fault. -/
structure Kept (m m' : Machine) (w : Monitor W) : Prop extends m.Settled m' where
  top : m'.top = m.top
  clean : w.fault = false

theorem Kept.roomy {m m' : Machine} {w : Monitor W} (h : Kept m m' w) (hm : m.Roomy) : m'.Roomy :=
  h.toSettled.roomy hm <| by
    rw [h.top]
    exact Nat.le_trans hm.room h.size

/-- There is room for a callback. -/
theorem Sound.beginReport (h : t.Sound) (first count : Nat) : (t.beginReport first count).Sound := by
  have hwide := Machine.widens_ensureStack { t.toMachine with top := t.reportTop } Machine.minStack
  have hsettled : t.toMachine.Settled
      (({ t.toMachine with top := t.reportTop } : Machine).ensureStack Machine.minStack) :=
    .of_frames_eq rfl hwide.size
  refine ⟨(hsettled.roomy h.roomy hwide.room).modifyFrame t.currentId fun f hf => ?_, h.clean⟩
  have hgrown : t.reportTop + Machine.minStack + Machine.extraStack ≤
      (({ t.toMachine with top := t.reportTop } : Machine).ensureStack
        Machine.minStack).stack.size := by
    rw [Machine.ensureStack, Machine.size_growTo]
    exact Nat.le_max_right _ _
  have htop := hf.top
  refine ⟨?_, hf.func, fun hscript => Nat.lt_of_lt_of_le (hf.window hscript) (Nat.le_max_left _ _)⟩
  show max f.top (t.reportTop + Machine.minStack) + Machine.extraStack ≤ _
  omega

/-- While an event is reported the current frame has another top, and no other frame changes. -/
theorem outline_beginReport (t : Thread H W) (first count id : Nat) :
    ((t.beginReport first count).frame? id).map Frame.outline =
      ((t.frame? id).map Frame.outline).map fun o =>
        if t.currentId = id then (o.1, max o.2.1 (t.reportTop + Machine.minStack), o.2.2) else o := by
  refine (congrArg (Option.map Frame.outline)
    (Machine.frame?_modifyFrame _ t.currentId id _)).trans ?_
  split
  · rw [Option.map_map, Option.map_map]
    rfl
  · exact Option.map_id'.symm

theorem outline_endReport (u : Thread H W) (id top frameTop count j : Nat) :
    ((u.endReport id top frameTop count).frame? j).map Frame.outline =
      ((u.frame? j).map Frame.outline).map fun o =>
        if id = j then (o.1, frameTop, o.2.2) else o := by
  refine (congrArg (Option.map Frame.outline) (Machine.frame?_modifyFrame _ id j _)).trans ?_
  split
  · rw [Option.map_map, Option.map_map]
    rfl
  · exact Option.map_id'.symm

/-- What a callback is given room for is put back, if it moves no frame itself. -/
theorem outline_reported {t : Thread H W} {u : Thread H W} {first count : Nat}
    (hsettled : (t.beginReport first count).toMachine.Settled u.toMachine) (id : Nat) :
    ((u.endReport t.currentId t.top t.current.top count).frame? id).map Frame.outline =
      (t.frame? id).map Frame.outline := by
  rw [outline_endReport, hsettled.outline, outline_beginReport, Option.map_map]
  by_cases hid : t.currentId = id
  · subst hid
    cases hf : t.frame? t.currentId with
    | none => rfl
    | some f =>
      have hcurrent : t.current.top = f.top := congrArg Frame.top (Machine.current_eq hf)
      simp [Frame.outline, hcurrent]
  · simp [hid, Function.comp_def]

/-- What is put back is what it was. -/
theorem Sound.report (h : t.Sound) (plan : Plan H W) (event : HookEvent) (line : Option Int)
    (first count : Nat) :
    Kept t.toMachine (t.report (monitored plan) event line first count).toMachine
      (t.report (monitored plan) event line first count).host := by
  refine report_keeps (P := Kept t.toMachine) ⟨.refl _, rfl, h.clean⟩ ?_
  rintro hook u - rfl
  -- the edits start from the thread with room for a callback, and end in one with the same frames
  have hbegun : ((t.beginReport first count).inspect false).Sound := (h.beginReport first count).inspect rfl
  obtain ⟨hsound, hsettled⟩ := hbegun.edits
    (plan hook ⟨event, line, t.currentId⟩ ((t.beginReport first count).mapHost Monitor.own)).2.2
  have hbegin : t.stack.size ≤ (t.beginReport first count).stack.size :=
    Nat.le_trans (Nat.le_max_left _ _) (Nat.le_of_eq (Machine.size_growTo _ _).symm)
  refine ⟨⟨?_, outline_reported hsettled, Nat.le_trans hbegin hsettled.size⟩, rfl, hsound.clean⟩
  exact Array.size_modify.trans (hsettled.count.trans Array.size_modify)

/-- So a report keeps what stood where it stood. -/
theorem stable_kept (plan : Plan H W) {m : Machine} (hm : m.Roomy) :
    Stable (monitored plan) (Kept m) where
  note := by
    intro m' w id change hchange hkept
    exact ⟨hkept.toSettled.trans (.modifyFrame m' id hchange), hkept.top, hkept.clean⟩
  report := by
    intro t event line first count hkept
    have hsound : t.Sound := ⟨hkept.roomy hm, hkept.clean⟩
    have hreported := hsound.report plan event line first count
    exact ⟨hkept.toSettled.trans hreported.toSettled, hreported.top.trans hkept.top, hreported.clean⟩

/-- And it keeps room. -/
theorem stable_sound (plan : Plan H W) :
    Stable (monitored plan) fun m w => m.Roomy ∧ w.fault = false where
  note := by
    intro m w id change hchange h
    exact ⟨(Machine.Settled.modifyFrame m id hchange).roomy h.1 h.1.room, h.2⟩
  report := by
    intro t event line first count h
    have hreported := (Sound.mk h.1 h.2).report plan event line first count
    exact ⟨hreported.roomy h.1, hreported.clean⟩

/-! ## Commands -/

/-- The step lemma: afterwards there is room again. -/
theorem Sound.exec {plan : Plan H W} (h : t.Sound) {c : Command H} (hc : t.Admits c) :
    (t.exec (monitored plan) c).Sound := by
  have hstable := (stable_sound (H := H) plan).keptByEvents
  have hboth : t.toMachine.Roomy ∧ t.host.fault = false := ⟨h.roomy, h.clean⟩
  suffices hdone : (t.exec (monitored plan) c).toMachine.Roomy ∧
      (t.exec (monitored plan) c).host.fault = false from ⟨hdone.1, hdone.2⟩
  cases c with
  | edit e =>
    cases e with
    | stack action => exact ⟨h.roomy.act action, h.clean⟩
    | setHook hook mask count => exact hstable.setHook hboth hook mask count
  | register f => exact ⟨⟨h.roomy.room, h.roomy.fits⟩, h.clean⟩
  | enterScript func flags =>
    exact pushScriptFrame_keeps (P := fun m w => m.Roomy ∧ w.fault = false) hboth
      fun hfunc proto => ⟨h.roomy.enterScript proto hfunc flags, h.clean⟩
  | enterNative func =>
    exact hstable.pushNativeFrame (Q := fun m w => m.Roomy ∧ w.fault = false) hboth
      (fun hfunc => ⟨h.roomy.enterNative hfunc, h.clean⟩) fun _ _ hm => hm
  | adjustVarargs fixed => exact ⟨h.roomy.adjustVarargs hc.2 fixed, h.clean⟩
  | leave results =>
    -- the frame that is left is the one that was current before the report
    have hself : Kept t.toMachine t.toMachine t.host := ⟨.refl _, rfl, h.clean⟩
    exact (stable_kept plan h.roomy).keptByEvents.popFrame
      (Q := fun m w => m.Roomy ∧ w.fault = false) hself hboth
      fun m w hm _ => ⟨(hm.roomy h.roomy).leave t.currentId results, hm.clean⟩
  | fireHook event line first count => exact hstable.report event line first count hboth
  | traceCall => exact hstable.traceCall hboth
  | traceExec pc =>
    have hwindow : Machine.Roomy { t.toMachine with top := t.current.top } :=
      ⟨h.roomy.current.1, h.roomy.fits⟩
    exact hstable.traceExec hboth ⟨hwindow, h.clean⟩ pc
  | resume => exact hstable.resume hboth

end Thread

end VmInspect
