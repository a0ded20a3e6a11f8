import VmInspect.Proofs.Thread.LineEvents
import VmInspect.Proofs.Thread.Observation
import VmInspect.Proofs.Thread.Parts

/-!
# Running in slices

A run of a frame can stop after some instructions and be taken up again.  The second part begins like
any run, so the frame is marked anew, and what the first part knew about whether to look at instructions
is lost.  This file proves that a calm hook cannot tell, nor can whoever looks at the thread afterwards:

* `Thread.exists_runFrom_add` — a run that is long enough is a shorter one, followed by the rest.
* `Thread.runFrom_unmasked` — without events the mark of the frame makes no difference to a run.
* `Thread.Steady` — what the first part knows, and what becomes of the mark, step by step.
* `Thread.runFrame_sliced` — two parts do what the whole run does, as long as the frame keeps its
  function.
-/

namespace VmInspect

variable {H W : Type}

/-- A run after other instructions were executed. -/
def Run.after (executed : List Nat) (r : Run H W) : Run H W :=
  { r with executed := executed ++ r.executed }

theorem Frame.untrapped_setSavedPc (f : Frame) (pc : Nat) :
    (f.setSavedPc pc).untrapped = f.untrapped.setSavedPc pc := by
  obtain ⟨func, top, previous, flags, code, transfer⟩ := f
  cases code with
  | script progress => rfl
  | native => rfl

theorem Frame.untrapped_untrapped (f : Frame) : f.untrapped.untrapped = f.untrapped := by
  obtain ⟨func, top, previous, flags, code, transfer⟩ := f
  cases code with
  | script progress => rfl
  | native => rfl

theorem Frame.trap_untrapped (f : Frame) : f.untrapped.trap = false :=
  f.trap_setTrap false

namespace Machine

theorem frameAt_untrapped (m : Machine) (id : Nat) :
    (m.modifyFrame id Frame.untrapped).frameAt id = (m.frameAt id).untrapped := by
  have hframe := m.frame?_modifyFrame_self id Frame.untrapped
  unfold frame? at hframe
  unfold frameAt
  rw [hframe]
  cases m.frames[id]? with
  | none => rfl
  | some f => rfl

section Commute

variable (m : Machine) (id : Nat) (change : Frame → Frame)

theorem growTo_modifyFrame (size : Nat) :
    (m.modifyFrame id change).growTo size = (m.growTo size).modifyFrame id change := rfl

theorem ensureStack_modifyFrame (n : Nat) :
    (m.modifyFrame id change).ensureStack n = (m.ensureStack n).modifyFrame id change := rfl

theorem push_modifyFrame (v : Value) :
    (m.modifyFrame id change).push v = (m.push v).modifyFrame id change := rfl

theorem put_modifyFrame (slot : Nat) (v : Value) :
    (m.modifyFrame id change).put slot v = (m.put slot v).modifyFrame id change := rfl

theorem liftValue_modifyFrame (slot : Nat) :
    (m.modifyFrame id change).liftValue slot = (m.liftValue slot).modifyFrame id change := by
  rw [liftValue, slot_modifyFrame, put_modifyFrame, push_modifyFrame]
  rfl

theorem copyDown_modifyFrame (source target count : Nat) :
    (m.modifyFrame id change).copyDown source target count =
      (m.copyDown source target count).modifyFrame id change := rfl

theorem setTop_modifyFrame (top : Nat) :
    (m.modifyFrame id change).setTop top = (m.setTop top).modifyFrame id change := rfl

end Commute

theorem liftValues_modifyFrame (slots : List Nat) (m : Machine) (id : Nat) (change : Frame → Frame) :
    slots.foldl liftValue (m.modifyFrame id change) =
      (slots.foldl liftValue m).modifyFrame id change := by
  induction slots generalizing m with
  | nil => rfl
  | cons i slots ih => rw [List.foldl_cons, liftValue_modifyFrame, ih, List.foldl_cons]

/-- The mark of the current frame has no part in setting its extra arguments apart. -/
theorem adjustVarargs_untrapped (m : Machine) (fixed : Nat) :
    (m.modifyFrame m.currentId Frame.untrapped).adjustVarargs fixed =
      (m.adjustVarargs fixed).modifyFrame m.currentId Frame.untrapped := by
  have hplace : ∀ f : Frame, f.untrapped.func = f.func := fun _ => rfl
  have hfunc : (m.modifyFrame m.currentId Frame.untrapped).current.func = m.current.func := by
    rw [current, currentId_modifyFrame, frameAt_untrapped]
    rfl
  have hproto := m.frameProto?_modifyFrame m.currentId m.currentId hplace
  have hvalues : (m.modifyFrame m.currentId Frame.untrapped).gathered fixed =
      (m.gathered fixed).modifyFrame m.currentId Frame.untrapped := by
    unfold gathered
    rw [currentId_modifyFrame, hfunc, hproto]
    rw [slot_modifyFrame, ensureStack_modifyFrame, push_modifyFrame, liftValues_modifyFrame]
  have hmoved : ((m.gathered fixed).modifyFrame m.currentId Frame.untrapped).modifyFrame m.currentId
        (adjustedFrame (m.above m.current.func) fixed) =
      ((m.gathered fixed).modifyFrame m.currentId
        (adjustedFrame (m.above m.current.func) fixed)).modifyFrame m.currentId Frame.untrapped := by
    rw [modifyFrame_modifyFrame, modifyFrame_modifyFrame]
    refine modifyFrame_congr fun f _ => ?_
    obtain ⟨func, top, previous, flags, code, transfer⟩ := f
    cases code with
    | script progress => rfl
    | native => rfl
  have habove : (m.modifyFrame m.currentId Frame.untrapped).above m.current.func =
      m.above m.current.func := rfl
  rw [adjustVarargs_eq, adjustVarargs_eq, currentId_modifyFrame, hfunc, hvalues, habove, hmoved,
    frameAt_untrapped, growTo_modifyFrame]
  rfl

/-- A change of the last frame is lost with it. -/
theorem pop_modifyFrame (m : Machine) (change : Frame → Frame) :
    ({ m.modifyFrame m.currentId change with
        frames := (m.modifyFrame m.currentId change).frames.pop } : Machine) =
      ({ m with frames := m.frames.pop } : Machine).modifyFrame m.currentId change := by
  have hframes : (m.frames.modify m.currentId change).pop =
      m.frames.pop.modify m.currentId change := by
    refine Array.ext_getElem? fun j => ?_
    rw [Array.getElem?_pop, Array.getElem?_modify, Array.getElem?_modify, Array.getElem?_pop,
      Array.size_modify]
    unfold currentId
    split
    · rw [if_neg (by omega)]
    · split
      · rfl
      · rfl
  unfold modifyFrame
  simp only [hframes]

/-- The mark has no part in leaving the frame either. -/
theorem leave_untrapped (m : Machine) (results : Nat) :
    (m.modifyFrame m.currentId Frame.untrapped).leave m.currentId results =
      (m.leave m.currentId results).modifyFrame m.currentId Frame.untrapped := by
  have hshift : (m.frameAt m.currentId).untrapped.shift = (m.frameAt m.currentId).shift :=
    Thread.shift_setTrap _ false
  have hfunc : (m.frameAt m.currentId).untrapped.func = (m.frameAt m.currentId).func := rfl
  unfold leave
  simp only [frameAt_untrapped, top_modifyFrame, copyDown_modifyFrame, setTop_modifyFrame, hshift,
    hfunc]
  generalize hmoved : (m.copyDown _ _ _).setTop _ = moved
  have hid : m.currentId = moved.currentId := by
    rw [← hmoved]
    rfl
  rw [hid]
  exact pop_modifyFrame moved Frame.untrapped

end Machine

namespace Thread

/-! ## Taking a run apart -/

section Parts

variable (run : Callback H W) {proto : Proto} {id : Nat}

/-- A run that executes all its instructions and does not return is the beginning of each longer one.
What holds between two instructions holds at its end. -/
theorem exists_runFrom_add (Inv : Bool → Thread H W → Prop)
    (hstep : ∀ {trap b t u i}, Inv trap t → proto.code[t.nextPc id]? = some i →
      t.watch run trap (t.nextPc id) = (.ok b, u) → isReturn i = false →
      Inv (u.execute run id (t.nextPc id) b i).1 (u.execute run id (t.nextPc id) b i).2)
    (a : Nat) {trap : Bool} {t : Thread H W} (h : Inv trap t)
    (hall : (runFrom run proto id a trap t).executed.length = a)
    (hret : (runFrom run proto id a trap t).ending ≠ .returned) :
    ∃ trap', Inv trap' (runFrom run proto id a trap t).thread ∧
      ∀ k, runFrom run proto id (a + k) trap t =
        (runFrom run proto id k trap' (runFrom run proto id a trap t).thread).after
          (runFrom run proto id a trap t).executed := by
  induction a generalizing trap t with
  | zero =>
    refine ⟨trap, h, fun k => ?_⟩
    rw [Nat.zero_add]
    rfl
  | succ a ih =>
    cases hi : proto.code[t.nextPc id]? with
    | none =>
      rw [runFrom_of_none run hi] at hall
      cases hall
    | some i =>
      obtain ⟨outcome, u, hwatch⟩ : ∃ outcome u, t.watch run trap (t.nextPc id) = (outcome, u) :=
        ⟨_, _, rfl⟩
      cases outcome with
      | error f =>
        rw [runFrom_of_error run hi hwatch] at hall
        cases hall
      | ok b =>
        have hwhole : ∀ steps, runFrom run proto id (steps + 1) trap t =
            stepOn run proto id (t.nextPc id) i steps b u := runFrom_of_ok run hi hwatch
        rw [hwhole] at hall hret ⊢
        unfold stepOn at hall hret ⊢
        cases hreturn : isReturn i with
        | true =>
          rw [hreturn] at hret
          exact absurd rfl hret
        | false =>
          simp only [hreturn, Bool.false_eq_true, if_false] at hall hret ⊢
          obtain ⟨trap', hinv, hrest⟩ := ih (hstep h hi hwatch hreturn) (Nat.succ.inj hall) hret
          refine ⟨trap', hinv, fun k => ?_⟩
          rw [Nat.add_right_comm, hwhole]
          unfold stepOn
          simp only [hreturn, Bool.false_eq_true, if_false]
          rw [hrest]
          rfl

end Parts

/-! ## Without events -/

/-- A thread without the mark of a frame for being watched. -/
def disarmed (t : Thread H W) (id : Nat) : Thread H W := t.onFrame id Frame.untrapped

theorem disarmed_disarmed (t : Thread H W) (id : Nat) :
    (t.disarmed id).disarmed id = t.disarmed id :=
  (t.onFrame_onFrame id _ _).trans (t.onFrame_congr id fun f _ => f.untrapped_untrapped)

/-- The place of the next instruction does not depend on the mark. -/
theorem nextPc_setTrap (t : Thread H W) (id : Nat) (on : Bool) :
    (t.onFrame id (·.setTrap on)).nextPc id = t.nextPc id := by
  unfold nextPc
  rw [frame?_onFrame_self]
  cases t.frame? id with
  | none => rfl
  | some f => exact congrArg (Option.getD · 0) (f.savedPc?_setTrap on)

theorem disarmed_setSavedPc (t : Thread H W) (id pc : Nat) :
    (t.disarmed id).onFrame id (·.setSavedPc pc) = (t.onFrame id (·.setSavedPc pc)).disarmed id := by
  unfold disarmed
  rw [onFrame_onFrame, onFrame_onFrame]
  exact t.onFrame_congr id fun f _ => (f.untrapped_setSavedPc pc).symm

/-- A thread in which the extra arguments of a frame were set apart, before that is reported. -/
def setApart (t : Thread H W) (id pc fixed : Nat) : Thread H W :=
  (t.onFrame id (·.setSavedPc (pc + 1))).onMachine (·.adjustVarargs fixed)

theorem prepareVarargs_eq (run : Callback H W) (t : Thread H W) (id pc : Nat) (i : Instruction) :
    t.prepareVarargs run id pc i =
      (((((t.setApart id pc i.a).hookVarargPrep run).frame? id).map Frame.trap).getD false,
        (t.setApart id pc i.a).hookVarargPrep run) := rfl

theorem execute_of_varargPrep (run : Callback H W) (t : Thread H W) (id pc : Nat) (trap : Bool)
    {i : Instruction} (hop : i.opcode = .varargPrep) :
    t.execute run id pc trap i =
      ((t.prepareVarargs run id pc i).1,
        (t.prepareVarargs run id pc i).2.onFrame id (·.setSavedPc (nextPlace pc i))) := by
  unfold execute nextPlace
  simp only [hop, if_true]

/-- A thread that is told about no events, after its extra arguments were set apart in a watched
frame. -/
structure Unmasked (t : Thread H W) (id : Nat) : Prop where
  mask : t.mask = .empty
  oldPc : t.oldPc = 1
  current : t.currentId = id

namespace Unmasked

variable (run : Callback H W) {t : Thread H W} {id : Nat}

theorem onFrame (h : t.Unmasked id) (j : Nat) (change : Frame → Frame) :
    (t.onFrame j change).Unmasked id :=
  ⟨h.mask, h.oldPc, (t.toMachine.currentId_modifyFrame j change).trans h.current⟩

theorem setApart (h : t.Unmasked id) (pc fixed : Nat) : (t.setApart id pc fixed).Unmasked id :=
  ⟨h.mask, h.oldPc, (Machine.currentId_adjustVarargs _ fixed).trans
    ((t.toMachine.currentId_modifyFrame id _).trans h.current)⟩

/-- The report that is due then would be made to nobody, and finds lines told anew already. -/
theorem hookVarargPrep (h : t.Unmasked id) : t.hookVarargPrep run = t := by
  have hcall : t.mask.call = false := by
    rw [h.mask]
    rfl
  unfold Thread.hookVarargPrep
  rw [hookCall_of_not_selected run hcall, ← h.oldPc]
  exact ite_self t

/-- A look at an instruction takes the mark away, if it finds anything. -/
theorem watch (h : t.Unmasked id) (trap : Bool) (pc : Nat) :
    ∃ u, t.watch run trap pc = (.ok false, u) ∧ u.Unmasked id ∧ u.disarmed id = t.disarmed id := by
  have hwatch : t.mask.watchesInstructions = false := by
    rw [h.mask]
    rfl
  unfold Thread.watch
  cases trap with
  | false => exact ⟨t, rfl, h, rfl⟩
  | true =>
    cases hproto : t.frameProto? t.currentId with
    | none => exact ⟨t, traceExec_of_no_proto run t hproto pc, h, rfl⟩
    | some proto =>
      refine ⟨t.disarmed id, ?_, h.onFrame id _, t.disarmed_disarmed id⟩
      have hlook := traceExec_of_unwatched run t hproto hwatch pc
      rw [h.current] at hlook
      exact hlook

theorem watch_disarmed (t : Thread H W) (pc : Nat) :
    (t.disarmed id).watch run false pc = (.ok false, t.disarmed id) := rfl

theorem setApart_disarmed (h : t.Unmasked id) (pc fixed : Nat) :
    (t.disarmed id).setApart id pc fixed = (t.setApart id pc fixed).disarmed id := by
  have hid : (t.onFrame id (·.setSavedPc (pc + 1))).currentId = id :=
    (h.onFrame id (·.setSavedPc (pc + 1))).current
  unfold Thread.setApart
  rw [disarmed_setSavedPc]
  generalize t.onFrame id (·.setSavedPc (pc + 1)) = saved at hid
  obtain rfl := hid
  exact congrArg (fun m => { saved with toMachine := m })
    (saved.toMachine.adjustVarargs_untrapped fixed)

theorem prepareVarargs (h : t.Unmasked id) (pc : Nat) (i : Instruction) :
    t.prepareVarargs run id pc i =
      ((((t.setApart id pc i.a).frame? id).map Frame.trap).getD false, t.setApart id pc i.a) := by
  rw [prepareVarargs_eq, (h.setApart pc i.a).hookVarargPrep run]

/-- An instruction does the same to the thread with and without the mark. -/
theorem execute (h : t.Unmasked id) (pc : Nat) (trap : Bool) (i : Instruction) :
    (t.execute run id pc trap i).2.Unmasked id ∧
      (t.disarmed id).execute run id pc false i =
        (false, (t.execute run id pc trap i).2.disarmed id) := by
  by_cases hop : i.opcode = .varargPrep
  · have hunmarked : ((((t.setApart id pc i.a).disarmed id).frame? id).map Frame.trap).getD false =
        false := by
      rw [disarmed, frame?_onFrame_self]
      cases (t.setApart id pc i.a).frame? id with
      | none => rfl
      | some f => exact f.trap_untrapped
    have hdisarmed : (t.disarmed id).Unmasked id := h.onFrame id Frame.untrapped
    rw [execute_of_varargPrep run t id pc trap hop, execute_of_varargPrep run _ id pc false hop,
      h.prepareVarargs, hdisarmed.prepareVarargs, h.setApart_disarmed, hunmarked,
      disarmed_setSavedPc]
    exact ⟨(h.setApart pc i.a).onFrame id _, rfl⟩
  · rw [execute_of_not_varargPrep run t id pc trap hop, execute_of_not_varargPrep run _ id pc _ hop]
    exact ⟨h.onFrame id _, congrArg _ (t.disarmed_setSavedPc id _)⟩

/-- A return does the same, too. -/
theorem returnFrom (h : t.Unmasked id) (pc : Nat) :
    (t.disarmed id).returnFrom run id pc = (t.returnFrom run id pc).disarmed id := by
  have hsaved := h.onFrame id (·.setSavedPc (pc + 1))
  obtain ⟨u, hu⟩ : ∃ u, t.onFrame id (·.setSavedPc (pc + 1)) = u := ⟨_, rfl⟩
  unfold Thread.returnFrom
  rw [disarmed_setSavedPc]
  rw [hu] at hsaved ⊢
  obtain ⟨hmask, -, rfl⟩ := hsaved
  have hid : (u.disarmed u.currentId).currentId = u.currentId := currentId_onFrame u u.currentId _
  have hsame : (u.disarmed u.currentId).mask = u.mask := rfl
  unfold popFrame
  rw [hid, hsame, hmask]
  by_cases hbase : u.currentId = Machine.baseFrame
  · simp only [hbase, if_true]
  · simp only [hbase, if_false]
    exact congrArg (fun m => { u with toMachine := m }) (u.toMachine.leave_untrapped 0)

end Unmasked

/-- The mark of the frame makes no difference to a run. -/
theorem runFrom_unmasked (run : Callback H W) (proto : Proto) (steps : Nat) {t : Thread H W}
    {id : Nat} (h : t.Unmasked id) (trap : Bool) :
    (runFrom run proto id steps trap t).mapThread (disarmed · id) =
      runFrom run proto id steps false (t.disarmed id) := by
  induction steps generalizing t trap with
  | zero => rfl
  | succ steps ih =>
    have hplace : (t.disarmed id).nextPc id = t.nextPc id := t.nextPc_setTrap id false
    cases hi : proto.code[t.nextPc id]? with
    | none =>
      rw [runFrom_of_none run hi, runFrom_of_none run (by rw [hplace]; exact hi)]
      rfl
    | some i =>
      obtain ⟨u, hwatch, hu, hmark⟩ := h.watch run trap (t.nextPc id)
      rw [runFrom_of_ok run hi hwatch,
        runFrom_of_ok run (by rw [hplace]; exact hi) (Unmasked.watch_disarmed run t _), hplace, ← hmark]
      unfold stepOn
      cases hret : isReturn i with
      | true =>
        simp only [if_true]
        rw [hu.returnFrom]
        rfl
      | false =>
        obtain ⟨hnext, hexecute⟩ := hu.execute run (t.nextPc id) false i
        simp only [Bool.false_eq_true, if_false]
        rw [hexecute]
        exact congrArg (Run.execute (t.nextPc id)) (ih hnext _)

/-! ## With events -/

/-- Whether an interpreted frame is marked for being watched. -/
def mark? (t : Thread H W) (id : Nat) : Option Bool :=
  (t.frame? id).bind fun f => f.progress?.map Progress.trap

/-- The second thread runs in the same frame as the first one, for the same events, and no frame has
another mark or another function. -/
structure KeepsMarks (t u : Thread H W) : Prop where
  currentId : u.currentId = t.currentId
  mask : u.mask = t.mask
  mark? : ∀ id, u.mark? id = t.mark? id
  proto : ∀ id, u.frameProto? id = t.frameProto? id

namespace KeepsMarks

theorem refl (t : Thread H W) : t.KeepsMarks t := ⟨rfl, rfl, fun _ => rfl, fun _ => rfl⟩

theorem trans {t u v : Thread H W} (h : t.KeepsMarks u) (h' : u.KeepsMarks v) : t.KeepsMarks v where
  currentId := h'.currentId.trans h.currentId
  mask := h'.mask.trans h.mask
  mark? id := (h'.mark? id).trans (h.mark? id)
  proto id := (h'.proto id).trans (h.proto id)

/-- Nothing but the frames and the stack has a part in it. -/
theorem of_machine_eq {t u : Thread H W} (h : u.toMachine = t.toMachine) (hmask : u.mask = t.mask) :
    t.KeepsMarks u where
  currentId := by rw [h]
  mask := hmask
  mark? id := by rw [Thread.mark?, Thread.mark?, h]
  proto id := by rw [h]

theorem onFrame (t : Thread H W) (id : Nat) {change : Frame → Frame}
    (hfunc : ∀ f, (change f).func = f.func)
    (hmark : ∀ f, (change f).progress?.map Progress.trap = f.progress?.map Progress.trap) :
    t.KeepsMarks (t.onFrame id change) where
  currentId := currentId_onFrame t id change
  mask := rfl
  mark? j := by
    unfold Thread.mark? Thread.onFrame onMachine
    simp only
    rw [Machine.frame?_modifyFrame]
    split
    · cases t.frame? j with
      | none => rfl
      | some f => exact hmark f
    · rfl
  proto j := t.toMachine.frameProto?_modifyFrame id j hfunc

theorem setSavedPc (t : Thread H W) (id pc : Nat) :
    t.KeepsMarks (t.onFrame id (·.setSavedPc pc)) := by
  refine onFrame t id (fun _ => rfl) fun f => ?_
  rw [Frame.setSavedPc, Frame.progress?_modifyProgress, Option.map_map]
  rfl

theorem of_reports {t u : Thread H (List HookRecord)} {records : List HookRecord}
    (h : Reports t u records) : t.KeepsMarks u where
  currentId := h.undisturbed.currentId
  mask := h.settings.1
  mark? id := by
    have hframe := h.undisturbed.frame id
    unfold Thread.mark?
    cases hf : t.frame? id with
    | none =>
      rw [hf, Option.map_none, Option.map_eq_none_iff] at hframe
      rw [hframe]
    | some f =>
      obtain ⟨f', hf', heq⟩ := h.undisturbed.exists_frame hf
      rw [hf', Option.bind_some, Option.bind_some, Frame.progress?,
        (Frame.eq_of_unreported_eq heq).2.1]
      rfl
  proto id := h.undisturbed.frameProto? id

end KeepsMarks

theorem keepsMarks_hookCall (t : Thread H (List HookRecord)) (id : Nat) :
    t.KeepsMarks (t.hookCall calm id) := by
  have hanew : t.KeepsMarks { t with oldPc := 0 } := .of_machine_eq rfl rfl
  exact hanew.trans (.of_reports (t.hookCall_calm id))

/-- A look at an instruction keeps the marks, if it is for a line or a count. -/
theorem keepsMarks_traceExec {t : Thread H (List HookRecord)}
    (hwatch : t.mask.watchesInstructions = true) (pc : Nat) :
    t.KeepsMarks (t.traceExec calm pc).2 := by
  have hcharged : t.KeepsMarks (t.charged pc) :=
    (KeepsMarks.setSavedPc t t.currentId (pc + 1)).trans (.of_machine_eq rfl rfl)
  have hevents : ∀ proto told, (t.charged pc).reportEvents calm proto pc t.mask t.countIsDue = told →
      t.KeepsMarks told := by
    rintro proto told rfl
    obtain ⟨top, oldPc, -, hreports⟩ :=
      (t.charged pc).exists_reportEvents_calm proto pc t.mask t.countIsDue
    have hready : (t.charged pc).KeepsMarks { t.charged pc with top := top, oldPc := oldPc } :=
      ⟨rfl, rfl, fun _ => rfl, fun _ => rfl⟩
    exact (hcharged.trans hready).trans (.of_reports hreports)
  have hlook := t.look_traceExec calm pc
  generalize t.traceExec calm pc = result at hlook ⊢
  cases hlook with
  | idle => exact .refl t
  | unwatched hnone => exact absurd (hnone.symm.trans hwatch) Bool.false_ne_true
  | quiet => exact hcharged
  | resumed => exact hcharged.trans (.onFrame _ _ (fun _ => rfl) fun _ => rfl)
  | reported _ htold => exact hevents _ _ htold
  | @suspended _ told _ htold =>
    have hbudget : told.KeepsMarks
        { told with countLeft := if t.countIsDue then 1 else told.countLeft } :=
      .of_machine_eq rfl rfl
    exact ((hevents _ _ htold).trans hbudget).trans (.onFrame _ _ (fun _ => rfl) fun _ => rfl)

/-- It goes on watching then, if there is a function. -/
theorem traceExec_watches {t u : Thread H (List HookRecord)} {b : Bool}
    (hwatch : t.mask.watchesInstructions = true) (hproto : t.frameProto? t.currentId ≠ none)
    {pc : Nat} (h : t.traceExec calm pc = (.ok b, u)) : b = true := by
  have hlook := t.look_traceExec calm pc
  rw [h] at hlook
  cases hlook with
  | idle hidle => exact absurd (hidle.resolve_left Bool.false_ne_true.symm) hproto
  | unwatched hnone => exact absurd (hnone.symm.trans hwatch) Bool.false_ne_true
  | quiet => rfl
  | resumed => rfl
  | reported => rfl

/-- Otherwise it takes the mark away, if there is a function. -/
theorem traceExec_unwatched (run : Callback H W) {t : Thread H W}
    (hwatch : t.mask.watchesInstructions = false) (hproto : t.frameProto? t.currentId ≠ none)
    (pc : Nat) : t.traceExec run pc = (.ok false, t.disarmed t.currentId) := by
  obtain ⟨proto, hproto⟩ := Option.ne_none_iff_exists'.1 hproto
  exact traceExec_of_unwatched run t hproto hwatch pc

theorem exists_frame_of_mark? {t : Thread H W} {id : Nat} {mark : Bool}
    (h : t.mark? id = some mark) :
    ∃ f p, t.frame? id = some f ∧ f.progress? = some p ∧ p.trap = mark := by
  unfold mark? at h
  obtain ⟨f, hf, hp⟩ := Option.bind_eq_some_iff.1 h
  obtain ⟨p, hp, hmark⟩ := Option.map_eq_some_iff.1 hp
  exact ⟨f, p, hf, hp, hmark⟩

theorem mark?_disarmed {t : Thread H W} {id : Nat} {mark : Bool} (h : t.mark? id = some mark) :
    (t.disarmed id).mark? id = some false := by
  obtain ⟨f, p, hf, hp, -⟩ := exists_frame_of_mark? h
  rw [mark?, disarmed, frame?_onFrame_self, hf, Option.map_some, Option.bind_some, Frame.untrapped,
    Frame.setTrap, Frame.progress?_modifyProgress, hp]
  rfl

theorem current_trap_of_mark? {t : Thread H W} {id : Nat} {mark : Bool} (hid : t.currentId = id)
    (h : t.mark? id = some mark) : t.current.trap = mark := by
  obtain rfl := hid
  obtain ⟨f, p, hf, hp, hmark⟩ := exists_frame_of_mark? h
  rw [Machine.current_eq hf, Frame.trap, hp]
  exact hmark

/-- A thread between two instructions of a frame.  While lines or counts are told about, the frame is
marked.  Unless it has lost its function, or is about to set its extra arguments apart, instructions
are looked at as the mark says.  Without events the mark is believed once: after the extra arguments
were set apart. -/
structure Steady (t : Thread H (List HookRecord)) (proto : Proto) (id : Nat) (trap : Bool) : Prop where
  current : t.currentId = id
  marked : ∃ mark, t.mark? id = some mark ∧ (t.mask.watchesInstructions = true → mark = true) ∧
    (t.mask ≠ .empty → t.frameProto? id ≠ none → (proto.isVararg = true → t.nextPc id ≠ 0) →
      trap = mark)
  unmasked : t.mask = .empty → trap = true → t.oldPc = 1

section Steady

variable {t u : Thread H (List HookRecord)} {proto : Proto} {id pc : Nat} {trap b : Bool}

/-- What a look at an instruction leaves of it. -/
theorem Steady.watch (h : t.Steady proto id trap) (hwatch : t.watch calm trap pc = (.ok b, u)) :
    u.currentId = id ∧ u.mask = t.mask ∧ u.frameProto? id = t.frameProto? id ∧
      (t.mask = .empty → b = false) ∧
      ∃ mark, u.mark? id = some mark ∧ (t.mask.watchesInstructions = true → mark = true) ∧
        (t.mask ≠ .empty → t.frameProto? id ≠ none → (proto.isVararg = true → t.nextPc id ≠ 0) →
          b = mark) := by
  obtain ⟨rfl, ⟨mark, hmark, hwatched, hsame⟩, -⟩ := h
  unfold Thread.watch at hwatch
  cases trap with
  | false =>
    cases hwatch
    exact ⟨rfl, rfl, rfl, fun _ => rfl, mark, hmark, hwatched, hsame⟩
  | true =>
    by_cases hproto : t.frameProto? t.currentId = none
    · rw [traceExec_of_no_proto calm t hproto] at hwatch
      cases hwatch
      exact ⟨rfl, rfl, rfl, fun _ => rfl, mark, hmark, hwatched, fun _ hfound => absurd hproto hfound⟩
    · cases hselected : t.mask.watchesInstructions with
      | false =>
        rw [if_pos rfl, traceExec_unwatched calm hselected hproto] at hwatch
        cases hwatch
        exact ⟨currentId_onFrame t _ _, rfl,
          t.toMachine.frameProto?_modifyFrame _ _ fun _ => rfl, fun _ => rfl, false,
          mark?_disarmed hmark, fun hfalse => (by cases hfalse), fun _ _ _ => rfl⟩
      | true =>
        have hkeeps := keepsMarks_traceExec hselected pc
        have hgoes := traceExec_watches hselected hproto hwatch
        rw [if_pos rfl] at hwatch
        rw [hwatch] at hkeeps
        refine ⟨hkeeps.currentId, hkeeps.mask, hkeeps.proto _, fun hempty => ?_, mark,
          (hkeeps.mark? _).trans hmark, fun _ => hwatched hselected, fun _ _ _ => ?_⟩
        · rw [hempty] at hselected
          cases hselected
        · exact hgoes.trans (hwatched hselected).symm

theorem mark?_adjustVarargs {mark : Bool} (h : t.mark? t.currentId = some mark) (fixed : Nat) :
    (t.onMachine (·.adjustVarargs fixed)).mark? t.currentId = some mark := by
  obtain ⟨f, p, hf, hp, rfl⟩ := exists_frame_of_mark? h
  have hframe := Machine.frame?_adjustVarargs hf fixed
  unfold mark? onMachine
  rw [hframe, Option.bind_some, Machine.progress?_adjustedFrame hp]
  rfl

theorem mark?_setApart {mark : Bool} (hid : t.currentId = id) (h : t.mark? id = some mark)
    (pc fixed : Nat) : (t.setApart id pc fixed).mark? id = some mark := by
  have hsaved := KeepsMarks.setSavedPc t id (pc + 1)
  have hmark := (hsaved.mark? id).trans h
  have hcurrent := hsaved.currentId.trans hid
  unfold setApart
  generalize t.onFrame id (·.setSavedPc (pc + 1)) = saved at hmark hcurrent
  obtain rfl := hcurrent
  exact mark?_adjustVarargs hmark fixed

/-- The report that is due then keeps the marks.  In a watched frame it makes the next instruction count
as a new line. -/
theorem hookVarargPrep_calm (t : Thread H (List HookRecord)) :
    t.KeepsMarks (t.hookVarargPrep calm) ∧
      (t.current.trap = true → (t.hookVarargPrep calm).oldPc = 1) := by
  unfold hookVarargPrep
  split
  · exact ⟨(keepsMarks_hookCall t _).trans (.of_machine_eq rfl rfl), fun _ => rfl⟩
  · exact ⟨.refl t, fun htrap => absurd htrap ‹_›⟩

/-- Setting the extra arguments apart keeps the mark of the frame, which says from then on whether
instructions are looked at. -/
theorem prepareVarargs_calm {mark : Bool} (hid : t.currentId = id) (h : t.mark? id = some mark)
    (pc : Nat) (i : Instruction) :
    ∃ v, t.prepareVarargs calm id pc i = (mark, v) ∧ v.currentId = id ∧ v.mask = t.mask ∧
      v.mark? id = some mark ∧ (mark = true → v.oldPc = 1) := by
  have hmark := mark?_setApart hid h pc i.a
  have hcurrent : (t.setApart id pc i.a).currentId = id :=
    (Machine.currentId_adjustVarargs _ i.a).trans ((t.toMachine.currentId_modifyFrame id _).trans hid)
  obtain ⟨hkeeps, hline⟩ := (t.setApart id pc i.a).hookVarargPrep_calm
  have hkept := (hkeeps.mark? id).trans hmark
  refine ⟨(t.setApart id pc i.a).hookVarargPrep calm, ?_, hkeeps.currentId.trans hcurrent, hkeeps.mask,
    hkept, fun htrue => hline ?_⟩
  · obtain ⟨f, p, hf, hp, htrap⟩ := exists_frame_of_mark? hkept
    rw [prepareVarargs_eq, hf, Option.map_some, Option.getD_some, Frame.trap, hp]
    exact congrArg (·, _) htrap
  · exact (current_trap_of_mark? hcurrent hmark).trans htrue

/-- The step lemma: an instruction that was looked at and does not return leaves the thread between two
instructions again. -/
theorem Steady.step (h : t.Steady proto id trap)
    (hfirst : proto.isVararg = true → proto.code[0]?.map Instruction.opcode = some .varargPrep)
    {i : Instruction} (hi : proto.code[t.nextPc id]? = some i)
    (hwatch : t.watch calm trap (t.nextPc id) = (.ok b, u)) :
    (u.execute calm id (t.nextPc id) b i).2.Steady proto id
      (u.execute calm id (t.nextPc id) b i).1 := by
  obtain ⟨hid, hmask, hproto, hempty, mark, hmark, hwatched, hsame⟩ := h.watch hwatch
  by_cases hop : i.opcode = .varargPrep
  · obtain ⟨v, hprepare, hcurrent, hevents, hkept, hline⟩ :=
      prepareVarargs_calm hid hmark (t.nextPc id) i
    have hsaved := KeepsMarks.setSavedPc v id (nextPlace (t.nextPc id) i)
    rw [execute_of_varargPrep calm u id _ b hop, hprepare]
    dsimp only
    refine ⟨hsaved.currentId.trans hcurrent, ⟨mark, (hsaved.mark? id).trans hkept, ?_,
      fun _ _ _ => rfl⟩, fun _ => hline⟩
    rw [hsaved.mask, hevents, hmask]
    exact hwatched
  · have hpast : proto.isVararg = true → t.nextPc id ≠ 0 := by
      intro hvararg hzero
      rw [hzero] at hi
      have hprep := hfirst hvararg
      rw [hi, Option.map_some, Option.some.injEq] at hprep
      exact hop hprep
    have hsaved := KeepsMarks.setSavedPc u id (nextPlace (t.nextPc id) i)
    rw [execute_of_not_varargPrep calm u id _ b hop]
    refine ⟨hsaved.currentId.trans hid, ⟨mark, (hsaved.mark? id).trans hmark, ?_, ?_⟩, ?_⟩
    · rw [hsaved.mask, hmask]
      exact hwatched
    · rw [hsaved.mask, hmask, hsaved.proto, hproto]
      exact fun hevents hfunction _ => hsame hevents hfunction hpast
    · rw [hsaved.mask, hmask]
      intro hnone hlook
      rw [hempty hnone] at hlook
      cases hlook

/-- The frame that runs an interpreted function, once it is marked. -/
theorem mark?_setTrap (hscript : t.current.isScript = true)
    (hproto : t.frameProto? t.currentId = some proto) :
    ∃ f p, t.frame? t.currentId = some f ∧ f.progress? = some p ∧
      (t.onFrame t.currentId (·.setTrap true)).mark? t.currentId = some true := by
  have hframe : t.frame? t.currentId ≠ none := by
    intro hnone
    rw [Machine.frameProto?, Machine.frameFunction?_eq, hnone] at hproto
    cases hproto
  obtain ⟨f, hf⟩ := Option.ne_none_iff_exists'.1 hframe
  rw [Machine.current_eq hf, Frame.isScript] at hscript
  obtain ⟨p, hp⟩ := Option.isSome_iff_exists.1 hscript
  refine ⟨f, p, hf, hp, ?_⟩
  rw [mark?, frame?_onFrame_self, hf, Option.map_some, Option.bind_some, Frame.setTrap,
    Frame.progress?_modifyProgress, hp]
  rfl

/-- A run begins between two instructions. -/
theorem steady_beginRun (hscript : t.current.isScript = true)
    (hproto : t.frameProto? t.currentId = some proto) :
    (t.beginRun calm).2.Steady proto t.currentId (t.beginRun calm).1 := by
  obtain ⟨f, p, hf, hp, hmark⟩ := mark?_setTrap hscript hproto
  have hcurrent := current_onFrame t hf (·.setTrap true)
  have hwatched : ∀ v, (t.onFrame t.currentId (·.setTrap true)).KeepsMarks v → t.mask ≠ .empty →
      v.Steady proto t.currentId true := by
    intro v hkeeps hevents
    have hmask : v.mask = t.mask := hkeeps.mask
    refine ⟨hkeeps.currentId.trans (currentId_onFrame t _ _), ⟨true, (hkeeps.mark? _).trans hmark,
      fun _ => rfl, fun _ _ _ => rfl⟩, fun hnone => ?_⟩
    exact absurd (hmask.symm.trans hnone) hevents
  by_cases hempty : t.mask = .empty
  · have hisEmpty : t.mask.isEmpty = true := by
      rw [hempty]
      rfl
    rw [beginRun_of_no_events _ _ hisEmpty]
    refine ⟨rfl, ⟨p.trap, ?_, fun hwatch => ?_, fun hevents => absurd hempty hevents⟩,
      fun _ hfalse => (by cases hfalse)⟩
    · rw [mark?, hf, Option.bind_some, hp]
      rfl
    · rw [hempty] at hwatch
      cases hwatch
  · have hisEmpty : t.mask.isEmpty = false := by
      rw [HookMask.isEmpty, beq_eq_false_iff_ne]
      exact hempty
    rw [beginRun_of_events _ _ hisEmpty, traceCall_eq _ _ hproto, hcurrent]
    split
    · rename_i hzero
      split
      · rename_i hvararg
        refine ⟨currentId_onFrame t _ _, ⟨true, hmark, fun _ => rfl, fun _ _ hpast => ?_⟩,
          fun hnone => absurd hnone hempty⟩
        refine absurd ?_ (hpast hvararg)
        rw [nextPc, frame?_onFrame_self, hf, Option.map_some, Option.bind_some, hzero]
        rfl
      · split
        · exact hwatched _ (.refl _) hempty
        · exact hwatched _ (keepsMarks_hookCall _ _) hempty
    · exact hwatched _ (.refl _) hempty

/-- A run that is taken up again past the first instruction only has its frame marked. -/
theorem beginRun_past (run : Callback H W) {t : Thread H W} {proto : Proto}
    (hproto : t.frameProto? t.currentId = some proto) (hnext : t.nextPc t.currentId ≠ 0)
    (hmask : t.mask ≠ .empty) :
    t.beginRun run = (true, t.onFrame t.currentId (·.setTrap true)) := by
  have hisEmpty : t.mask.isEmpty = false := by
    rw [HookMask.isEmpty, beq_eq_false_iff_ne]
    exact hmask
  have hplace : (t.onFrame t.currentId (·.setTrap true)).current.savedPc? ≠ some 0 := by
    intro hzero
    refine hnext ?_
    cases hf : t.frame? t.currentId with
    | none => rw [nextPc, hf]; rfl
    | some f =>
      rw [current_onFrame t hf, Frame.savedPc?_setTrap] at hzero
      rw [nextPc, hf, Option.bind_some, hzero]
      rfl
  rw [beginRun_of_events _ _ hisEmpty, traceCall_eq _ _ hproto, if_neg hplace]

theorem onFrame_setTrap_of_mark? {t : Thread H W} {id : Nat} {mark : Bool}
    (h : t.mark? id = some mark) : t.onFrame id (·.setTrap mark) = t := by
  obtain ⟨f, p, hf, hp, rfl⟩ := exists_frame_of_mark? h
  refine t.onFrame_eq_self id fun g hg => Frame.modifyProgress_eq_self fun q hq => ?_
  obtain rfl := Option.some.inj (hf.symm.trans hg)
  obtain rfl := Option.some.inj (hp.symm.trans hq)
  rfl

theorem disarmed_setTrap (t : Thread H W) (id : Nat) :
    (t.onFrame id (·.setTrap true)).disarmed id = t.disarmed id :=
  (t.onFrame_onFrame id _ _).trans (t.onFrame_congr id fun f _ => f.untrapped_setTrap)

/-- When no line and no count is told about, the mark that a run begins with is taken away before its
first instruction. -/
theorem runFrom_marked (run : Callback H W) {t : Thread H W} {proto : Proto}
    (hproto : t.frameProto? t.currentId = some proto)
    (hwatch : t.mask.watchesInstructions = false)
    (hmark : t.mark? t.currentId = some false) (steps : Nat) :
    (runFrom run proto t.currentId steps true (t.onFrame t.currentId (·.setTrap true))).mapThread
        (disarmed · t.currentId) =
      (runFrom run proto t.currentId steps false t).mapThread (disarmed · t.currentId) := by
  cases steps with
  | zero => exact congrArg (Run.stop .outOfSteps) (t.disarmed_setTrap t.currentId)
  | succ steps =>
    have hplace := t.nextPc_setTrap t.currentId true
    cases hi : proto.code[t.nextPc t.currentId]? with
    | none =>
      rw [runFrom_of_none run hi, runFrom_of_none run (by rw [hplace]; exact hi)]
      exact congrArg (Run.stop .outOfCode) (t.disarmed_setTrap t.currentId)
    | some i =>
      have hid : (t.onFrame t.currentId (·.setTrap true)).currentId = t.currentId :=
        currentId_onFrame t t.currentId _
      have hfunction : (t.onFrame t.currentId (·.setTrap true)).frameProto?
          (t.onFrame t.currentId (·.setTrap true)).currentId ≠ none := by
        have hkept : (t.onFrame t.currentId (·.setTrap true)).frameProto? t.currentId =
            t.frameProto? t.currentId := t.toMachine.frameProto?_modifyFrame _ _ fun _ => rfl
        rw [hid, hkept, hproto]
        exact Option.some_ne_none proto
      have hlook : (t.onFrame t.currentId (·.setTrap true)).watch run true (t.nextPc t.currentId) =
          (.ok false, t) := by
        refine (traceExec_unwatched (t := t.onFrame t.currentId (·.setTrap true)) run hwatch
          hfunction _).trans ?_
        rw [hid, disarmed_setTrap]
        exact congrArg _ (onFrame_setTrap_of_mark? hmark)
      rw [runFrom_of_ok run (by rw [hplace]; exact hi) (by rw [hplace]; exact hlook), hplace,
        runFrom_of_ok run hi rfl]

/-- A run that is taken up again goes on as it would have without a stop. -/
theorem Steady.runFrame (h : t.Steady proto id trap) (hproto : t.frameProto? id = some proto)
    (hnext : t.nextPc id ≠ 0) (steps : Nat) :
    (t.runFrame calm steps).mapThread (disarmed · id) =
      (runFrom calm proto id steps trap t).mapThread (disarmed · id) := by
  obtain ⟨rfl, ⟨mark, hmark, hwatched, hsame⟩, hunmasked⟩ := h
  rw [runFrame_of_proto calm hproto]
  by_cases hmask : t.mask = .empty
  · have hbegin : t.beginRun calm = (false, t) :=
      beginRun_of_no_events _ _ (by rw [hmask]; rfl)
    rw [hbegin]
    cases trap with
    | false => rfl
    | true =>
      have hready : t.Unmasked t.currentId := ⟨hmask, hunmasked hmask rfl, rfl⟩
      rw [runFrom_unmasked calm proto steps hready, runFrom_unmasked calm proto steps hready]
  · have hlooks : trap = mark := hsame hmask (by rw [hproto]; exact Option.some_ne_none proto)
      fun _ => hnext
    rw [beginRun_past calm hproto hnext hmask, hlooks]
    dsimp only
    cases mark with
    | false =>
      cases hwatch : t.mask.watchesInstructions with
      | false => exact runFrom_marked calm hproto hwatch hmark steps
      | true => exact absurd (hwatched hwatch) Bool.false_ne_true
    | true =>
      rw [onFrame_setTrap_of_mark? hmark]

end Steady

/-- Threads that are the same but for the mark of a frame agree in all that a program or a debugger can
see. -/
theorem agree_of_disarmed_eq {s t : Thread H W} {id : Nat} (h : s.disarmed id = t.disarmed id) :
    s.host = t.host ∧ s.depth = t.depth ∧
      (∀ j, (s.frame? j).bind Frame.savedPc? = (t.frame? j).bind Frame.savedPc?) ∧
      s.top = t.top ∧ (∀ i, s.slot i = t.slot i) ∧ s.oldPc = t.oldPc ∧
      s.countLeft = t.countLeft := by
  have hdepth : ∀ u : Thread H W, (u.disarmed id).depth = u.depth := fun u =>
    currentId_onFrame u id Frame.untrapped
  have hsaved : ∀ (u : Thread H W) j,
      ((u.disarmed id).frame? j).bind Frame.savedPc? = (u.frame? j).bind Frame.savedPc? := by
    intro u j
    have hframe : (u.disarmed id).frame? j =
        if id = j then (u.frame? j).map Frame.untrapped else u.frame? j :=
      u.toMachine.frame?_modifyFrame id j Frame.untrapped
    rw [hframe]
    split
    · cases u.frame? j with
      | none => rfl
      | some f => exact f.savedPc?_setTrap false
    · rfl
  have hsame : ∀ {α : Type} (look : Thread H W → α), look (s.disarmed id) = look (t.disarmed id) :=
    fun look => congrArg look h
  refine ⟨hsame host, ?_, fun j => ?_, hsame (·.top), fun i => hsame (·.slot i), hsame oldPc,
    hsame countLeft⟩
  · rw [← hdepth s, h, hdepth t]
  · rw [← hsaved s, h, hsaved t]

/-- Running in slices.  When a run uses all its instructions, does not return, stops past the first
instruction, and the frame still has its function, then going on does what the whole run does: the same
is told to the hook, and the frames, the stack and the counts are the same in the end. -/
theorem runFrame_sliced {t : Thread H (List HookRecord)} {proto : Proto}
    (hscript : t.current.isScript = true) (hproto : t.frameProto? t.currentId = some proto)
    (hfirst : proto.isVararg = true → proto.code[0]?.map Instruction.opcode = some .varargPrep)
    {a : Nat} (hall : (t.runFrame calm a).executed.length = a)
    (hret : (t.runFrame calm a).ending ≠ .returned)
    (hpast : (t.runFrame calm a).thread.nextPc t.currentId ≠ 0)
    (hkept : (t.runFrame calm a).thread.frameProto? t.currentId = some proto) (b : Nat) :
    let first := t.runFrame calm a
    let second := first.thread.runFrame calm b
    let whole := t.runFrame calm (a + b)
    first.executed ++ second.executed = whole.executed ∧ second.ending = whole.ending ∧
      second.thread.host = whole.thread.host ∧ second.thread.depth = whole.thread.depth ∧
      (∀ id, (second.thread.frame? id).bind Frame.savedPc? =
        (whole.thread.frame? id).bind Frame.savedPc?) ∧
      second.thread.top = whole.thread.top ∧
      (∀ i, second.thread.slot i = whole.thread.slot i) ∧
      second.thread.oldPc = whole.thread.oldPc ∧
      second.thread.countLeft = whole.thread.countLeft := by
  intro first second whole
  have hbegin := steady_beginRun hscript hproto
  have hrun : ∀ steps, t.runFrame calm steps =
      runFrom calm proto t.currentId steps (t.beginRun calm).1 (t.beginRun calm).2 :=
    runFrame_of_proto calm hproto
  rw [hrun] at hall hret
  obtain ⟨trap, hsteady, hrest⟩ := exists_runFrom_add calm
    (fun trap u => u.Steady proto t.currentId trap)
    (fun h hi hwatch _ => h.step hfirst hi hwatch) a hbegin hall hret
  have hwhole := hrest b
  rw [← hrun, ← hrun] at hwhole
  rw [← hrun] at hsteady
  have hsecond := hsteady.runFrame hkept hpast b
  have hexecuted := congrArg Run.executed hsecond
  have hending := congrArg Run.ending hsecond
  have hplaces : whole = (runFrom calm proto t.currentId b trap first.thread).after first.executed :=
    hwhole
  have hthread : second.thread.disarmed t.currentId = whole.thread.disarmed t.currentId := by
    rw [hplaces]
    exact congrArg Run.thread hsecond
  refine ⟨?_, ?_, agree_of_disarmed_eq hthread⟩
  · rw [hplaces]
    exact congrArg (first.executed ++ ·) hexecuted
  · rw [hplaces]
    exact hending

/-- A call under a hook that is told about everything. -/
def windingCall : Thread Unit (List HookRecord) :=
  (threadCalling windingProto).enter 1 {} () { call := true, ret := true, line := true, count := true } 2

/-- The run is stopped behind a jump and taken up again. -/
theorem runFrame_sliced_winding :
    windingCall.frameProto? windingCall.currentId = some windingProto ∧
      (windingCall.runFrame calm 2).executed = [0, 1] ∧
      ((windingCall.runFrame calm 2).thread.runFrame calm 2).executed = [3, 4] ∧
      (windingCall.runFrame calm 4).thread.host.map HookRecord.event =
        [.call, .line, .count, .line] ∧
      ((windingCall.runFrame calm 2).thread.runFrame calm 2).thread.host =
        (windingCall.runFrame calm 4).thread.host ∧
      ∀ i, ((windingCall.runFrame calm 2).thread.runFrame calm 2).thread.slot i =
        (windingCall.runFrame calm 4).thread.slot i := by
  have hproto : windingCall.frameProto? windingCall.currentId = some windingProto := rfl
  have hall : (windingCall.runFrame calm 2).executed.length = 2 := by decide +kernel
  have hret : (windingCall.runFrame calm 2).ending ≠ .returned := by decide +kernel
  have hpast : (windingCall.runFrame calm 2).thread.nextPc windingCall.currentId ≠ 0 := by
    decide +kernel
  have hkept : (windingCall.runFrame calm 2).thread.frameProto? windingCall.currentId =
      some windingProto := rfl
  have hsame := runFrame_sliced (by decide) hproto (by decide) hall hret hpast hkept 2
  exact ⟨hproto, by decide +kernel, by decide +kernel, by decide +kernel, hsame.2.2.1,
    hsame.2.2.2.2.2.2.1⟩

/-- A call of a function that loses itself. -/
def losingCall : Thread Unit (List HookRecord) := ((threadCalling losingProto).pushScriptFrame 1 {}).2

/-- It is not taken up again, though the whole run goes on. -/
theorem runFrame_sliced_losing :
    losingCall.current.isScript = true ∧
      losingCall.frameProto? losingCall.currentId = some losingProto ∧ losingProto.PreparesOnce ∧
      (losingCall.runFrame calm 1).executed.length = 1 ∧
      (losingCall.runFrame calm 1).ending ≠ .returned ∧
      (losingCall.runFrame calm 1).thread.nextPc losingCall.currentId = 1 ∧
      1 < losingProto.code.size ∧
      ¬ ∀ id, (((losingCall.runFrame calm 1).thread.runFrame calm 1).thread.frame? id).bind
          Frame.savedPc? =
        ((losingCall.runFrame calm (1 + 1)).thread.frame? id).bind Frame.savedPc? := by
  have hshape : losingProto.PreparesOnce := ⟨by decide, by decide, by decide⟩
  have hproto : losingCall.frameProto? losingCall.currentId = some losingProto := rfl
  have hdiffers : (((losingCall.runFrame calm 1).thread.runFrame calm 1).thread.frame? 1).bind
        Frame.savedPc? ≠
      ((losingCall.runFrame calm (1 + 1)).thread.frame? 1).bind Frame.savedPc? := by decide +kernel
  exact ⟨by decide, hproto, hshape, by decide +kernel, by decide +kernel, by decide +kernel, by decide,
    fun hsame => hdiffers (hsame 1)⟩

end Thread

end VmInspect
