import VmInspect.Proofs.Thread.Reentry

/-!
# Operations on a thread

Besides what a callback can do, a program registers functions and calls them with any flags.  Most of these
operations report events on the way and note in a frame what it is doing; few of them move values or
frames.  So what is to be kept by all of them needs to be looked at in a few places only:

* `Thread.Operation`, `Thread.operateAll` — what a program, or a callback, can do to a thread.
* `Thread.Stable` — a property that is kept by reports and by notes in a frame.
* `Thread.KeptByEvents` — a property that need not be kept by notes of values that are moved.
* `Thread.KeptByEvents.traceCall`, `Thread.KeptByEvents.traceExec`, `Thread.KeptByEvents.popFrame` — what
  dispatches events keeps it then, as far as it does not move the top or the frames itself.
* `Thread.operateAll_of_forbidden` — in a callback, operations are the same with any callback.
-/

namespace VmInspect

namespace Frame

/-- Where a frame stands, without what it is doing. -/
def outline (f : Frame) : Nat × Nat × Option Nat × Bool := (f.func, f.top, f.previous, f.isScript)

@[simp] theorem outline_modifyProgress (f : Frame) (change : Progress → Progress) :
    (f.modifyProgress change).outline = f.outline := by
  obtain ⟨func, top, previous, flags, code, transfer⟩ := f
  cases code with
  | script progress => rfl
  | native => rfl

theorem outline_setSavedPc (f : Frame) (pc : Nat) : (f.setSavedPc pc).outline = f.outline :=
  f.outline_modifyProgress _

theorem outline_setTrap (f : Frame) (on : Bool) : (f.setTrap on).outline = f.outline :=
  f.outline_modifyProgress _

/-- The values moved across the call, if they are known. -/
def moved (f : Frame) : Transfer := if f.flags.transfer then f.transfer else {}

/-- To note that the thread was suspended says nothing about values. -/
theorem moved_insertFlags_yieldFlag (f : Frame) :
    (f.insertFlags Thread.yieldFlag).moved = f.moved := by
  simp [moved, insertFlags, CallFlags.insert, Thread.yieldFlag]

theorem moved_removeFlags_yieldFlag (f : Frame) :
    (f.removeFlags Thread.yieldFlag).moved = f.moved := by
  simp [moved, removeFlags, CallFlags.remove, Thread.yieldFlag]

end Frame

/-- A note in a frame leaves the frames where they stand. -/
theorem Machine.outline_frameAt_modifyFrame (m : Machine) (id j : Nat) {change : Frame → Frame}
    (hchange : ∀ f, (change f).outline = f.outline) :
    ((m.modifyFrame id change).frameAt j).outline = (m.frameAt j).outline := by
  have hframe := m.frame?_modifyFrame id j change
  unfold frame? at hframe
  unfold frameAt
  rw [hframe]
  split
  · cases m.frames[j]? with
    | none => rfl
    | some f => exact hchange f
  · rfl

theorem Machine.outline_current_modifyFrame (m : Machine) (id : Nat) {change : Frame → Frame}
    (hchange : ∀ f, (change f).outline = f.outline) :
    (m.modifyFrame id change).current.outline = m.current.outline := by
  rw [current, currentId_modifyFrame]
  exact m.outline_frameAt_modifyFrame id m.currentId hchange

/-- A function that was found in a slot was found in one that is there. -/
theorem Machine.lt_size_of_function? {m : Machine} {func : Nat} {f : FunctionObject}
    (h : m.stack[func]?.bind m.function? = some f) : func < m.stack.size := by
  obtain ⟨v, hv, -⟩ := Option.bind_eq_some_iff.1 h
  exact (Array.getElem?_eq_some_iff.1 hv).1

namespace Thread

variable {H W : Type}

/-! ## What can be done to a thread -/

/-- An operation of a program, or of a callback. -/
inductive Operation (H W : Type) where
  | step (step : CallbackStep H W)
  | enterScript (func : Nat) (flags : CallFlags)
  | register (f : FunctionObject)

variable (run other : Callback H W)

/-- Do something, with the callback that is to be told about events. -/
def operate (t : Thread H W) : Operation H W → Thread H W
  | .step step => t.take run step
  | .enterScript func flags => (t.pushScriptFrame func flags).2
  | .register f => t.onMachine (·.register f)

def operateAll (t : Thread H W) (ops : List (Operation H W)) : Thread H W := ops.foldl (operate run) t

variable {run other} {t : Thread H W}

theorem operateAll_cons (op : Operation H W) (ops : List (Operation H W)) :
    t.operateAll run (op :: ops) = (t.operate run op).operateAll run ops := rfl

/-- Whatever callback is to be told about events, it is not called from a callback. -/
theorem operate_of_forbidden (h : t.allowHook = false) (op : Operation H W) :
    t.operate run op = t.operate other op := by
  cases op with
  | step step => exact take_of_forbidden h step
  | enterScript func flags => rfl
  | register f => rfl

/-- No operation of a callback allows events again. -/
theorem allowHook_operate (h : t.allowHook = false) (op : Operation H W) :
    (t.operate run op).allowHook = false := by
  cases op with
  | step step => exact (discreet_take h step).allowHook.trans h
  | enterScript func flags =>
    obtain ⟨m, hm⟩ := t.pushScriptFrame_rest func flags
    rw [operate, hm]
    exact h
  | register f => exact h

theorem operateAll_of_forbidden (h : t.allowHook = false) (ops : List (Operation H W)) :
    t.operateAll run ops = t.operateAll other ops := by
  induction ops generalizing t with
  | nil => rfl
  | cons op ops ih =>
    have hsame : t.operate run op = t.operate other op := operate_of_forbidden h op
    rw [operateAll_cons, operateAll_cons, ih (allowHook_operate h op), hsame]

/-! ## What is kept -/

/-- A property of a machine, and of what the callback keeps, that notes in a frame and reports keep. -/
structure Stable (run : Callback H W) (P : Machine → W → Prop) : Prop where
  note : ∀ {m : Machine} {w : W} (id : Nat) {change : Frame → Frame},
    (∀ f, (change f).outline = f.outline) → P m w → P (m.modifyFrame id change) w
  report : ∀ {t : Thread H W} (event : HookEvent) (line : Option Int) (first count : Nat),
    P t.toMachine t.host →
      P (t.report run event line first count).toMachine (t.report run event line first count).host

/-- A property that reports keep, and those notes that say nothing about values that are moved. -/
structure KeptByEvents (run : Callback H W) (P : Machine → W → Prop) : Prop where
  note : ∀ {m : Machine} {w : W} (id : Nat) {change : Frame → Frame},
    (∀ f, (change f).outline = f.outline ∧ (change f).moved = f.moved) → P m w →
      P (m.modifyFrame id change) w
  report : ∀ {t : Thread H W} (event : HookEvent) (line : Option Int) (first count : Nat),
    P t.toMachine t.host →
      P (t.report run event line first count).toMachine (t.report run event line first count).host

theorem Stable.keptByEvents {P : Machine → W → Prop} (h : Stable run P) : KeptByEvents run P := by
  refine ⟨?_, h.report⟩
  intro m w id change hchange hm
  exact h.note id (fun f => (hchange f).1) hm

/-- A report keeps what holds again when the callback has returned and all was put back. -/
theorem report_keeps {P : Machine → W → Prop} {event : HookEvent} {line : Option Int}
    {first count : Nat} (h : P t.toMachine t.host)
    (hreported : ∀ hook u, t.hook = some hook →
      (run hook ⟨event, line, t.currentId⟩ (t.beginReport first count)).2 = u →
      P (u.endReport t.currentId t.top t.current.top count).toMachine u.host) :
    P (t.report run event line first count).toMachine (t.report run event line first count).host := by
  unfold report fireHook
  cases hhook : t.hook with
  | none => exact h
  | some hook =>
    cases hallow : t.allowHook with
    | false => exact h
    | true =>
      have hafter := hreported hook _ hhook rfl
      simp only [if_true]
      split
      · exact hafter
      · exact hafter

namespace KeptByEvents

variable {P : Machine → W → Prop} (h : KeptByEvents run P)

include h

theorem setSavedPc (ht : P t.toMachine t.host) (id pc : Nat) :
    P (t.onFrame id (·.setSavedPc pc)).toMachine t.host :=
  h.note id (fun f => ⟨f.outline_setSavedPc pc, rfl⟩) ht

theorem setTrap (ht : P t.toMachine t.host) (id : Nat) (on : Bool) :
    P (t.onFrame id (·.setTrap on)).toMachine t.host :=
  h.note id (fun f => ⟨f.outline_setTrap on, rfl⟩) ht

theorem hookCall (ht : P t.toMachine t.host) (id : Nat) :
    P (t.hookCall run id).toMachine (t.hookCall run id).host := by
  cases hf : t.frame? id with
  | none =>
    rw [hookCall_of_no_frame run hf]
    exact ht
  | some f =>
    cases hcall : t.mask.call with
    | false =>
      rw [hookCall_of_not_selected run hcall]
      exact ht
    | true =>
      rw [hookCall_of_selected run hf hcall]
      have hanew : P ({ t with oldPc := 0 } : Thread H W).toMachine t.host := ht
      exact h.setSavedPc (h.report _ _ _ _ (h.setSavedPc hanew id _)) id _

theorem hookReturn (ht : P t.toMachine t.host) (results : Nat) :
    P (t.hookReturn run results).toMachine (t.hookReturn run results).host := by
  rw [hookReturn_eq, toMachine_backToCaller, host_backToCaller]
  split
  · exact h.report _ _ _ _ ht
  · exact ht

theorem hookVarargPrep (ht : P t.toMachine t.host) :
    P (t.hookVarargPrep run).toMachine (t.hookVarargPrep run).host := by
  unfold Thread.hookVarargPrep
  split
  · exact h.hookCall ht t.currentId
  · exact ht

theorem traceCall (ht : P t.toMachine t.host) :
    P (t.traceCall run).2.toMachine (t.traceCall run).2.host := by
  have hmarked := h.setTrap ht t.currentId true
  have hopening := t.opening_traceCall run
  generalize t.traceCall run = result at hopening ⊢
  cases hopening with
  | idle => exact ht
  | vararg _ hu => exact hu ▸ hmarked
  | onward _ hu => exact hu ▸ hmarked
  | entered _ hu => exact hu ▸ h.hookCall hmarked t.currentId

theorem armTraps {m : Machine} {w : W} (hm : P m w) (ids : List Nat) : P (m.armTraps ids) w := by
  induction ids generalizing m with
  | nil => exact hm
  | cons id ids ih => exact ih (h.note id (fun f => ⟨f.outline_setTrap true, rfl⟩) hm)

theorem setHook (ht : P t.toMachine t.host) (hook : Option H) (mask : HookMask) (count : Int) :
    P (t.setHook hook mask count).toMachine t.host := by
  unfold Thread.setHook
  simp only
  split
  · exact h.armTraps ht _
  · exact ht

theorem resume (ht : P t.toMachine t.host) : P t.resume.toMachine t.resume.host := by
  unfold Thread.resume
  split
  · refine h.note t.currentId (fun f => ?_) ht
    cases f.currentPc? with
    | none => exact ⟨rfl, rfl⟩
    | some pc => exact ⟨f.outline_setSavedPc pc, rfl⟩
  · exact ht

/-- The events of an instruction are reported over the window of the frame. -/
theorem reportEvents (ht : P t.toMachine t.host)
    (hwindow : P { t.toMachine with top := t.current.top } t.host) (proto : Proto) (pc : Nat)
    (mask : HookMask) (countDue : Bool) :
    P (t.reportEvents run proto pc mask countDue).toMachine
      (t.reportEvents run proto pc mask countDue).host := by
  have hready : P (t.protectWindow proto pc).toMachine (t.protectWindow proto pc).host := by
    obtain ⟨top, hprotect, htop⟩ := t.exists_protectWindow proto pc
    rw [hprotect]
    rcases htop with rfl | rfl
    · exact ht
    · exact hwindow
  have hcount : P ((t.protectWindow proto pc).reportCount run countDue).toMachine
      ((t.protectWindow proto pc).reportCount run countDue).host := by
    unfold reportCount
    split
    · exact h.report _ _ _ _ hready
    · exact hready
  rw [reportEvents_eq]
  split
  · unfold reportLine
    simp only
    split
    · exact h.report _ _ _ _ hcount
    · exact hcount
  · exact hcount

theorem traceExec (ht : P t.toMachine t.host)
    (hwindow : P { t.toMachine with top := t.current.top } t.host) (pc : Nat) :
    P (t.traceExec run pc).2.toMachine (t.traceExec run pc).2.host := by
  have hcharged : P (t.charged pc).toMachine (t.charged pc).host :=
    h.setSavedPc ht t.currentId (pc + 1)
  have hevents : ∀ proto told, (t.charged pc).reportEvents run proto pc t.mask t.countIsDue = told →
      P told.toMachine told.host := by
    rintro proto told rfl
    have htop : (t.charged pc).current.top = t.current.top :=
      congrArg (·.2.1) (t.toMachine.outline_current_modifyFrame t.currentId
        fun f => f.outline_setSavedPc (pc + 1))
    refine h.reportEvents hcharged ?_ proto pc t.mask t.countIsDue
    rw [htop]
    exact h.note t.currentId (fun f => ⟨f.outline_setSavedPc (pc + 1), rfl⟩) hwindow
  have hlook := t.look_traceExec run pc
  generalize t.traceExec run pc = result at hlook ⊢
  cases hlook with
  | idle => exact ht
  | unwatched => exact h.setTrap ht t.currentId false
  | quiet => exact hcharged
  | resumed => exact h.note t.currentId (fun f => ⟨rfl, f.moved_removeFlags_yieldFlag⟩) hcharged
  | reported _ htold => exact hevents _ _ htold
  | suspended _ htold =>
    have htolds := hevents _ _ htold
    exact h.note t.currentId (fun f => ⟨rfl, f.moved_insertFlags_yieldFlag⟩) htolds

/-- A frame that is added, and reported. -/
theorem pushNativeFrame {Q : Machine → W → Prop} (ht : Q t.toMachine t.host) {func : Nat}
    (hentered : func < t.stack.size → P (t.enterNative func) t.host)
    (hdone : ∀ m w, P m w → Q m w) :
    Q (t.pushNativeFrame run func).2.toMachine (t.pushNativeFrame run func).2.host := by
  unfold Thread.pushNativeFrame
  split
  · rename_i hslot
    have hfound : func < t.stack.size := Machine.lt_size_of_function? hslot
    refine hdone _ _ ?_
    simp only
    split
    · exact h.report _ _ _ _ (hentered hfound)
    · exact hentered hfound
  · exact ht

/-- A frame that is left, after that was reported. -/
theorem popFrame {Q : Machine → W → Prop} (ht : P t.toMachine t.host) (hbase : Q t.toMachine t.host)
    {results : Nat} (hleave : ∀ m w, P m w → t.currentId ≠ Machine.baseFrame →
      Q (m.leave t.currentId results) w) :
    Q (t.popFrame run results).2.toMachine (t.popFrame run results).2.host := by
  unfold Thread.popFrame
  by_cases hid : t.currentId = Machine.baseFrame
  · simp only [hid, if_true]
    exact hbase
  · simp only [hid, if_false]
    split
    · exact hleave _ _ ht hid
    · exact hleave _ _ (h.hookReturn ht results) hid

end KeptByEvents

/-- A frame that is added, if the slot holds an interpreted function. -/
theorem pushScriptFrame_keeps {P : Machine → W → Prop} (ht : P t.toMachine t.host) {func : Nat}
    {flags : CallFlags}
    (hentered : func < t.stack.size → ∀ proto, P (t.enterScript proto func flags) t.host) :
    P (t.pushScriptFrame func flags).2.toMachine (t.pushScriptFrame func flags).2.host := by
  unfold pushScriptFrame
  split
  · rename_i hslot
    exact hentered (Machine.lt_size_of_function? hslot) _
  · exact ht

end Thread

end VmInspect
