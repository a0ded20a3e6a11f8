import VmInspect.Proofs.Machine.Frames
import VmInspect.Thread.Run

/-!
# Hooks that log

A logging hook writes down what it is told and answers by a rule, which may look at everything.  This
file says what reports to such a hook do to a thread:

* `Thread.fireHook_calm` — a report to a hook that never suspends is one more record in the log, and
  the machine is undisturbed.
* `Thread.fireHook_logging` — with any other rule the same is reported, and the only difference is
  that the thread may be suspended, at a line or count event.
* `Thread.popFrame_logging`, `Thread.execute_logging`, `Thread.traceCall_logging` — so the rule makes
  no difference at all where no line or count event is reported.
-/

namespace VmInspect

namespace Thread

variable {H : Type}

/-- A hook that logs what it is told and answers by a rule. -/
def logging (rule : H → HookRecord → Thread H (List HookRecord) → HookAnswer) :
    Callback H (List HookRecord) :=
  fun hook record t => (rule hook record t, { t with host := t.host ++ [record] })

/-- A hook that logs and never suspends. -/
def calm : Callback H (List HookRecord) := logging fun _ _ _ => .proceed

/-! ## Changes of frames -/

section Frames

variable {W : Type} (t : Thread H W) (id : Nat)

/-- Two changes of a frame are one change. -/
theorem onFrame_onFrame (f g : Frame → Frame) :
    (t.onFrame id f).onFrame id g = t.onFrame id fun frame => g (f frame) :=
  congrArg (fun m => ({ t with toMachine := m } : Thread H W))
    (t.toMachine.modifyFrame_modifyFrame id f g)

/-- Changes that come to the same for the frame as it is come to the same. -/
theorem onFrame_congr {f g : Frame → Frame}
    (h : ∀ frame, t.frame? id = some frame → f frame = g frame) :
    t.onFrame id f = t.onFrame id g :=
  congrArg (fun m => ({ t with toMachine := m } : Thread H W)) (Machine.modifyFrame_congr h)

/-- A change that leaves the frame as it is changes nothing. -/
theorem onFrame_eq_self {change : Frame → Frame} (h : ∀ f, t.frame? id = some f → change f = f) :
    t.onFrame id change = t :=
  congrArg (fun m => ({ t with toMachine := m } : Thread H W)) (Machine.modifyFrame_eq_self h)

@[simp] theorem currentId_onFrame (change : Frame → Frame) :
    (t.onFrame id change).currentId = t.currentId :=
  t.toMachine.currentId_modifyFrame id change

@[simp] theorem frame?_onFrame_self (change : Frame → Frame) :
    (t.onFrame id change).frame? id = (t.frame? id).map change :=
  t.toMachine.frame?_modifyFrame_self id change

@[simp] theorem mask_onFrame (change : Frame → Frame) : (t.onFrame id change).mask = t.mask := rfl

@[simp] theorem countBudget_onFrame (change : Frame → Frame) :
    (t.onFrame id change).countBudget = t.countBudget := rfl

@[simp] theorem countLeft_onFrame (change : Frame → Frame) :
    (t.onFrame id change).countLeft = t.countLeft := rfl

/-- A change of the current frame. -/
theorem current_onFrame {f : Frame} (hf : t.frame? t.currentId = some f) (change : Frame → Frame) :
    (t.onFrame t.currentId change).current = change f := by
  refine Machine.current_eq ?_
  rw [currentId_onFrame, frame?_onFrame_self, hf, Option.map_some]

end Frames

/-! ## What a report leaves behind -/

/-- The second thread is the first one after some records were logged. -/
def Reports (t t' : Thread H (List HookRecord)) (records : List HookRecord) : Prop :=
  ∃ m, t' = { t with toMachine := m, host := t.host ++ records } ∧ t.toMachine.Undisturbed m

namespace Reports

variable {t t' t'' : Thread H (List HookRecord)} {records records' : List HookRecord}

theorem refl (t : Thread H (List HookRecord)) : Reports t t [] := by
  refine ⟨t.toMachine, ?_, .refl _⟩
  rw [List.append_nil]

theorem trans (h : Reports t t' records) (h' : Reports t' t'' records') :
    Reports t t'' (records ++ records') := by
  obtain ⟨m, rfl, hm⟩ := h
  obtain ⟨m', rfl, hm'⟩ := h'
  refine ⟨m', ?_, hm.trans hm'⟩
  rw [List.append_assoc]

theorem undisturbed (h : Reports t t' records) : t.toMachine.Undisturbed t'.toMachine := by
  obtain ⟨m, rfl, hm⟩ := h
  exact hm

/-- A change of a frame that does not look at what is noted there can come before the reports. -/
theorem onFrame (h : Reports t t' records) (id : Nat) (change : Frame → Frame)
    (hchange : ∀ f, (change f).unreported = change f.unreported) :
    Reports (t.onFrame id change) (t'.onFrame id change) records := by
  obtain ⟨m, rfl, hm⟩ := h
  exact ⟨m.modifyFrame id change, rfl, hm.modifyFrame id hchange⟩

end Reports

/-- The machine after a report is undisturbed. -/
theorem undisturbed_endReport (t : Thread H (List HookRecord)) (first count : Nat)
    (log : List HookRecord) :
    t.toMachine.Undisturbed (({ t.beginReport first count with host := log } :
      Thread H (List HookRecord)).endReport t.currentId t.top t.current.top count).toMachine where
  size := by
    simp only [endReport, beginReport, onFrame, onMachine, Machine.modifyFrame, Array.size_modify]
    rfl
  frame id := by
    change (((t.toMachine.modifyFrame t.currentId _).modifyFrame t.currentId _).frame? id).map
      Frame.unreported = _
    rw [Machine.modifyFrame_modifyFrame, Machine.frame?_modifyFrame]
    split
    · rename_i hid
      subst hid
      cases hf : t.frame? t.currentId with
      | none => rfl
      | some f =>
        rw [Option.map_some, Option.map_some, Option.map_some, Machine.current_eq hf]
        refine congrArg some ?_
        simp [Frame.unreported, Frame.insertFlags, Frame.removeFlags, reportFlags,
          CallFlags.insert, CallFlags.remove, CallFlags.reporting]
    · rfl
  slot i := Machine.slot_growTo _ _ i
  top := rfl
  functions := rfl

/-- What a report logs: nothing without a hook, or while another event is reported. -/
def logged (t : Thread H (List HookRecord)) (event : HookEvent) (line : Option Int) :
    List HookRecord :=
  if t.hook.isSome && t.allowHook then [⟨event, line, t.currentId⟩] else []

/-- The thread after a report of a record, apart from the hook's answer. -/
def noted (t : Thread H (List HookRecord)) (record : HookRecord) (first count : Nat) :
    Thread H (List HookRecord) :=
  ({ t.beginReport first count with host := t.host ++ [record] } : Thread H (List HookRecord)).endReport
    t.currentId t.top t.current.top count

/-- A report to a logging hook that is installed. -/
theorem fireHook_of_hook (rule : H → HookRecord → Thread H (List HookRecord) → HookAnswer)
    {t : Thread H (List HookRecord)} {hook : H} (hhook : t.hook = some hook)
    (hallow : t.allowHook = true) (event : HookEvent) (line : Option Int) (first count : Nat) :
    t.fireHook (logging rule) event line first count =
      if rule hook ⟨event, line, t.currentId⟩ (t.beginReport first count) = .yield ∧
          mayYield event = true then
        (.yield, { t.noted ⟨event, line, t.currentId⟩ first count with suspended := true })
      else (.proceed, t.noted ⟨event, line, t.currentId⟩ first count) := by
  unfold fireHook
  simp only [hhook, hallow, if_true]
  rfl

/-- A report to a calm hook that is installed. -/
theorem fireHook_calm_of_hook {t : Thread H (List HookRecord)} {hook : H}
    (hhook : t.hook = some hook) (hallow : t.allowHook = true) (event : HookEvent)
    (line : Option Int) (first count : Nat) :
    t.fireHook calm event line first count =
      (.proceed, t.noted ⟨event, line, t.currentId⟩ first count) := by
  unfold calm
  rw [fireHook_of_hook _ hhook hallow, if_neg]
  intro h
  cases h.1

/-- A report to no hook, or while another event is reported. -/
theorem fireHook_of_silent (rule : H → HookRecord → Thread H (List HookRecord) → HookAnswer)
    {t : Thread H (List HookRecord)} (hsilent : (t.hook.isSome && t.allowHook) = false)
    (event : HookEvent) (line : Option Int) (first count : Nat) :
    t.fireHook (logging rule) event line first count = (.proceed, t) := by
  unfold fireHook
  cases hhook : t.hook with
  | none => rfl
  | some hook =>
    rw [hhook, Option.isSome_some, Bool.true_and] at hsilent
    simp only [hsilent, Bool.false_eq_true, if_false]

/-- A report to a calm hook is a record in the log. -/
theorem fireHook_calm (t : Thread H (List HookRecord)) (event : HookEvent) (line : Option Int)
    (first count : Nat) :
    Reports t (t.fireHook calm event line first count).2 (t.logged event line) := by
  unfold logged
  by_cases hsilent : (t.hook.isSome && t.allowHook) = false
  · unfold calm
    rw [fireHook_of_silent _ hsilent, hsilent]
    exact .refl t
  · rw [Bool.not_eq_false] at hsilent
    obtain ⟨hsome, hallow⟩ := Bool.and_eq_true_iff.1 hsilent
    obtain ⟨hook, hhook⟩ := Option.isSome_iff_exists.1 hsome
    rw [fireHook_calm_of_hook hhook hallow, hsilent, if_pos rfl]
    refine ⟨_, ?_, t.undisturbed_endReport first count (t.host ++ [⟨event, line, t.currentId⟩])⟩
    unfold noted
    rw [hallow]
    rfl

/-- So is a report whose answer does not matter. -/
theorem report_calm (t : Thread H (List HookRecord)) (event : HookEvent) (line : Option Int)
    (first count : Nat) : Reports t (t.report calm event line first count) (t.logged event line) :=
  t.fireHook_calm event line first count

/-! ## Reports of calls and returns -/

section Calls

variable {W : Type} (run : Callback H W) {t : Thread H W} {id : Nat}

theorem hookCall_of_no_frame (hf : t.frame? id = none) :
    t.hookCall run id = { t with oldPc := 0 } := by
  unfold hookCall
  simp only [hf]

theorem hookCall_of_not_selected (hcall : t.mask.call = false) :
    t.hookCall run id = { t with oldPc := 0 } := by
  unfold hookCall
  simp only [hcall, Bool.false_eq_true, if_false]
  split <;> rfl

theorem hookCall_of_selected {frame : Frame} (hf : t.frame? id = some frame)
    (hcall : t.mask.call = true) :
    t.hookCall run id =
      ((({ t with oldPc := 0 } : Thread H W).onFrame id
          (·.setSavedPc (frame.savedPc?.getD 0 + 1))).report run
        (if frame.flags.tailCall then .tailCall else .call) none 1
        (((t.frameProto? id).map Proto.paramCount).getD 0)).onFrame id
          (·.setSavedPc (frame.savedPc?.getD 0)) := by
  unfold hookCall
  simp only [hf, hcall, if_true]

/-- Take up the line tracking where the caller of a frame is. -/
def backToCaller (t : Thread H W) (id : Nat) : Thread H W :=
  match (t.frameAt id).previous.bind t.frame? |>.bind Frame.currentPc? with
  | some pc => { t with oldPc := pc }
  | none => t

/-- That changes nothing but the place that was looked at last. -/
theorem exists_backToCaller (t : Thread H W) (id : Nat) :
    ∃ pc, t.backToCaller id = { t with oldPc := pc } := by
  unfold backToCaller
  split
  · exact ⟨_, rfl⟩
  · exact ⟨t.oldPc, rfl⟩

theorem toMachine_backToCaller (t : Thread H W) (id : Nat) :
    (t.backToCaller id).toMachine = t.toMachine := by
  obtain ⟨pc, h⟩ := t.exists_backToCaller id
  rw [h]

theorem host_backToCaller (t : Thread H W) (id : Nat) : (t.backToCaller id).host = t.host := by
  obtain ⟨pc, h⟩ := t.exists_backToCaller id
  rw [h]

theorem hookReturn_eq (t : Thread H W) (results : Nat) :
    t.hookReturn run results =
      (if t.mask.ret then
        t.report run .ret none ((t.top - results) - t.current.func) results else t).backToCaller
          t.currentId := rfl

end Calls

section Calm

variable {t t' : Thread H (List HookRecord)} {id : Nat} {records : List HookRecord}

theorem Reports.logged (h : Reports t t' records) (event : HookEvent) (line : Option Int) :
    t'.logged event line = t.logged event line := by
  have hid := h.undisturbed.currentId
  obtain ⟨m, rfl, hm⟩ := h
  unfold Thread.logged
  rw [hid]

theorem logged_onFrame (t : Thread H (List HookRecord)) (id : Nat) (change : Frame → Frame)
    (event : HookEvent) (line : Option Int) :
    (t.onFrame id change).logged event line = t.logged event line := by
  unfold Thread.logged
  rw [currentId_onFrame]
  rfl

/-- The record that a frame was entered. -/
def callLogged (t : Thread H (List HookRecord)) (id : Nat) : List HookRecord :=
  match t.frame? id with
  | none => []
  | some frame =>
    if t.mask.call then t.logged (if frame.flags.tailCall then .tailCall else .call) none else []

/-- A report that a frame was entered puts the saved place back. -/
theorem hookCall_calm (t : Thread H (List HookRecord)) (id : Nat) :
    Reports { t with oldPc := 0 } (t.hookCall calm id) (t.callLogged id) := by
  unfold callLogged
  cases hf : t.frame? id with
  | none =>
    rw [hookCall_of_no_frame _ hf]
    exact .refl _
  | some frame =>
    by_cases hcall : t.mask.call = true
    · rw [hookCall_of_selected _ hf hcall]
      simp only [hcall, if_true]
      have hreport := report_calm (({ t with oldPc := 0 } : Thread H (List HookRecord)).onFrame id
        (·.setSavedPc (frame.savedPc?.getD 0 + 1)))
        (if frame.flags.tailCall then .tailCall else .call) none 1
        (((t.frameProto? id).map Proto.paramCount).getD 0)
      have hback := hreport.onFrame id (·.setSavedPc (frame.savedPc?.getD 0)) fun _ => rfl
      rw [onFrame_onFrame, onFrame_eq_self, logged_onFrame] at hback
      · exact hback
      · intro f hf'
        obtain rfl : frame = f := Option.some.inj (hf.symm.trans hf')
        exact frame.setSavedPc_setSavedPc_savedPc? _
    · simp only [hcall, Bool.false_eq_true, if_false]
      rw [Bool.not_eq_true] at hcall
      rw [hookCall_of_not_selected _ hcall]
      exact .refl _

end Calm

/-! ## What a rule can change -/

/-- The thread with another number of instructions left up to the next count event, suspended or
not. -/
def tuned (t : Thread H (List HookRecord)) (left : Int) (suspended : Bool) :
    Thread H (List HookRecord) :=
  { t with countLeft := left, suspended }

variable (rule : H → HookRecord → Thread H (List HookRecord) → HookAnswer)
  (t : Thread H (List HookRecord)) (left : Int) (suspended : Bool)

@[simp] theorem tuned_self : t.tuned t.countLeft t.suspended = t := rfl

@[simp] theorem toMachine_tuned : (t.tuned left suspended).toMachine = t.toMachine := rfl

@[simp] theorem mask_tuned : (t.tuned left suspended).mask = t.mask := rfl

@[simp] theorem onFrame_tuned (id : Nat) (change : Frame → Frame) :
    (t.tuned left suspended).onFrame id change = (t.onFrame id change).tuned left suspended := rfl

theorem backToCaller_tuned (id : Nat) :
    (t.tuned left suspended).backToCaller id = (t.backToCaller id).tuned left suspended := by
  unfold backToCaller
  rw [toMachine_tuned]
  split <;> rfl

@[simp] theorem onMachine_tuned (change : Machine → Machine) :
    (t.tuned left suspended).onMachine change = (t.onMachine change).tuned left suspended := rfl

/-- Whatever the rule answers, the same is reported.  Only a line or count event can suspend the
thread. -/
theorem fireHook_logging (event : HookEvent) (line : Option Int) (first count : Nat) :
    ∃ suspended', ((t.tuned left suspended).fireHook (logging rule) event line first count).2 =
        (t.fireHook calm event line first count).2.tuned left suspended' ∧
      (mayYield event = false → suspended' = suspended) := by
  by_cases hsilent : (t.hook.isSome && t.allowHook) = false
  · refine ⟨suspended, ?_, fun _ => rfl⟩
    unfold calm
    rw [fireHook_of_silent rule (t := t.tuned left suspended) hsilent,
      fireHook_of_silent _ hsilent]
  · rw [Bool.not_eq_false] at hsilent
    obtain ⟨hsome, hallow⟩ := Bool.and_eq_true_iff.1 hsilent
    obtain ⟨hook, hhook⟩ := Option.isSome_iff_exists.1 hsome
    rw [fireHook_calm_of_hook hhook hallow,
      fireHook_of_hook rule (t := t.tuned left suspended) hhook hallow]
    by_cases hyield : rule hook ⟨event, line, (t.tuned left suspended).currentId⟩
        ((t.tuned left suspended).beginReport first count) = .yield ∧ mayYield event = true
    · refine ⟨true, ?_, fun hcall => ?_⟩
      · rw [if_pos hyield]
        rfl
      · rw [hcall] at hyield
        exact absurd hyield.2 Bool.false_ne_true
    · refine ⟨suspended, ?_, fun _ => rfl⟩
      rw [if_neg hyield]
      rfl

/-- A report that suspends the thread is one to which the rule has answered so, in view of the budget
as it is. -/
theorem yields_of_fireHook {t : Thread H (List HookRecord)} (hawake : t.suspended = false)
    {event : HookEvent} {line : Option Int} {first count : Nat}
    (h : (t.fireHook (logging rule) event line first count).2.suspended = true) :
    ∃ hook record u, record.event = event ∧ rule hook record u = .yield ∧
      u.countLeft = t.countLeft ∧ u.countBudget = t.countBudget := by
  by_cases hsilent : (t.hook.isSome && t.allowHook) = false
  · rw [fireHook_of_silent _ hsilent, hawake] at h
    cases h
  · rw [Bool.not_eq_false] at hsilent
    obtain ⟨hsome, hallow⟩ := Bool.and_eq_true_iff.1 hsilent
    obtain ⟨hook, hhook⟩ := Option.isSome_iff_exists.1 hsome
    rw [fireHook_of_hook rule hhook hallow] at h
    by_cases hyield : rule hook ⟨event, line, t.currentId⟩ (t.beginReport first count) = .yield ∧
        mayYield event = true
    · exact ⟨hook, _, t.beginReport first count, rfl, hyield.1, rfl, rfl⟩
    · rw [if_neg hyield] at h
      exact absurd (hawake.symm.trans h) Bool.false_ne_true

/-- A call or return is reported the same way whatever the rule. -/
theorem report_logging {event : HookEvent} (hcall : mayYield event = false) (line : Option Int)
    (first count : Nat) :
    (t.tuned left suspended).report (logging rule) event line first count =
      (t.report calm event line first count).tuned left suspended := by
  obtain ⟨suspended', heq, hsame⟩ := fireHook_logging rule t left suspended event line first count
  rw [hsame hcall] at heq
  exact heq

theorem hookCall_logging (id : Nat) :
    (t.tuned left suspended).hookCall (logging rule) id =
      (t.hookCall calm id).tuned left suspended := by
  by_cases hcall : t.mask.call = true
  · cases hf : t.frame? id with
    | none =>
      rw [hookCall_of_no_frame _ hf, hookCall_of_no_frame _ (t := t.tuned left suspended) hf]
      rfl
    | some frame =>
      have hmay : mayYield (if frame.flags.tailCall then .tailCall else .call) = false := by
        split <;> rfl
      rw [hookCall_of_selected _ hf hcall,
        hookCall_of_selected _ (t := t.tuned left suspended) hf hcall]
      exact congrArg (fun t => t.onFrame id (·.setSavedPc (frame.savedPc?.getD 0)))
        (report_logging rule (({ t with oldPc := 0 } : Thread H (List HookRecord)).onFrame id
          (·.setSavedPc (frame.savedPc?.getD 0 + 1))) left suspended hmay none 1 _)
  · rw [Bool.not_eq_true] at hcall
    rw [hookCall_of_not_selected _ hcall,
      hookCall_of_not_selected _ (t := t.tuned left suspended) hcall]
    rfl

theorem hookReturn_logging (results : Nat) :
    (t.tuned left suspended).hookReturn (logging rule) results =
      (t.hookReturn calm results).tuned left suspended := by
  rw [hookReturn_eq, hookReturn_eq, ← backToCaller_tuned, mask_tuned, toMachine_tuned]
  split
  · rw [report_logging rule t left suspended (show mayYield .ret = false from rfl)]
  · rfl

theorem hookVarargPrep_logging :
    (t.tuned left suspended).hookVarargPrep (logging rule) =
      (t.hookVarargPrep calm).tuned left suspended := by
  unfold hookVarargPrep
  rw [toMachine_tuned, hookCall_logging]
  split <;> rfl

theorem popFrame_logging (results : Nat) :
    ((t.tuned left suspended).popFrame (logging rule) results).2 =
      (t.popFrame calm results).2.tuned left suspended := by
  unfold popFrame
  rw [toMachine_tuned, mask_tuned, hookReturn_logging]
  by_cases hbase : t.currentId = Machine.baseFrame
  · simp only [hbase, if_true]
  · by_cases hempty : t.mask.isEmpty = true
    · simp only [hbase, if_false, hempty, if_true]
      rfl
    · simp only [hbase, if_false, hempty]
      rfl

/-! ## Steps that are not watched -/

theorem prepareVarargs_logging (id pc : Nat) (i : Instruction) :
    (t.tuned left suspended).prepareVarargs (logging rule) id pc i =
      ((t.prepareVarargs calm id pc i).1,
        (t.prepareVarargs calm id pc i).2.tuned left suspended) := by
  unfold prepareVarargs
  simp only [onFrame_tuned, onMachine_tuned, hookVarargPrep_logging, toMachine_tuned]

theorem execute_logging (id pc : Nat) (trap : Bool) (i : Instruction) :
    (t.tuned left suspended).execute (logging rule) id pc trap i =
      ((t.execute calm id pc trap i).1, (t.execute calm id pc trap i).2.tuned left suspended) := by
  unfold execute
  by_cases hop : i.opcode = .varargPrep
  · simp only [hop, if_true, prepareVarargs_logging]
    rfl
  · simp only [hop, if_false]
    rfl

theorem returnFrom_logging (id pc : Nat) :
    (t.tuned left suspended).returnFrom (logging rule) id pc =
      (t.returnFrom calm id pc).tuned left suspended :=
  popFrame_logging rule (t.onFrame id (·.setSavedPc (pc + 1))) left suspended 0

theorem traceCall_logging :
    (t.tuned left suspended).traceCall (logging rule) =
      ((t.traceCall calm).1, (t.traceCall calm).2.tuned left suspended) := by
  unfold traceCall
  rw [toMachine_tuned]
  cases hproto : t.frameProto? t.currentId with
  | none => simp only [hproto]
  | some proto =>
    simp only [hproto, onFrame_tuned, toMachine_tuned, hookCall_logging]
    split
    · split
      · rfl
      · split <;> rfl
    · rfl

theorem beginRun_logging :
    (t.tuned left suspended).beginRun (logging rule) =
      ((t.beginRun calm).1, (t.beginRun calm).2.tuned left suspended) := by
  unfold beginRun
  rw [mask_tuned, traceCall_logging]
  split <;> rfl

end Thread

end VmInspect
