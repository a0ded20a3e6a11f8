import VmInspect.Proofs.Thread.Hosts
import VmInspect.Proofs.Thread.LineEvents
import VmInspect.Proofs.Thread.Reporting

/-!
# Calls come first and returns last

A callback that looks around when it is told about an event notes the event and the machine as it finds
it.  This file follows a function from the moment it was entered under such a callback, which is told
about calls and about any other events:

* `Thread.hookCall_noting` — when a call is reported, the arguments are seen where they are.
* `Thread.EntersAnnounced.begins_plain`, `Thread.EntersAnnounced.begins_vararg` — the first thing that a
  run reports is the call: before the first instruction, or, in a function with extra arguments, once
  they were set apart.
* `Thread.Runs.runFrom_events` — from there on only line and count events are reported, up to a return.
* `Thread.runFrame_events` — so a run reports the call, then lines and counts, and at last the return, if
  it executes one.
-/

namespace VmInspect

/-- Whether the function returns at a place. -/
def Proto.returnsAt (p : Proto) (pc : Nat) : Bool := p.code[pc]?.any Thread.isReturn

namespace Machine

/-! ## Where the arguments are -/

/-- The current frames of both machines have their function and its arguments in the same slots. -/
structure SameArguments (m m' : Machine) : Prop where
  currentId : m'.currentId = m.currentId
  func : m'.current.func = m.current.func
  extraArgs : m'.current.extraArgs = m.current.extraArgs
  slot : ∀ i, m'.slot i = m.slot i

theorem SameArguments.trans {m m' m'' : Machine} (h : m.SameArguments m')
    (h' : m'.SameArguments m'') : m.SameArguments m'' where
  currentId := h'.currentId.trans h.currentId
  func := h'.func.trans h.func
  extraArgs := h'.extraArgs.trans h.extraArgs
  slot i := (h'.slot i).trans (h.slot i)

/-- A change that leaves the current frame in its slot, with its extra arguments. -/
theorem sameArguments_modifyFrame {m : Machine} {f : Frame} (hf : m.frame? m.currentId = some f)
    {change : Frame → Frame} (hfunc : (change f).func = f.func)
    (hextra : (change f).extraArgs = f.extraArgs) :
    m.SameArguments (m.modifyFrame m.currentId change) := by
  have hchanged : (m.modifyFrame m.currentId change).current = change f := by
    refine current_eq ?_
    rw [currentId_modifyFrame, frame?_modifyFrame_self, hf, Option.map_some]
  refine ⟨m.currentId_modifyFrame m.currentId change, ?_, ?_, fun i => rfl⟩
  · rw [hchanged, current_eq hf, hfunc]
  · rw [hchanged, current_eq hf, hextra]

/-- What is lifted depends on the values alone. -/
theorem stack_liftValues (slots : List Nat) {m m' : Machine} (hstack : m'.stack = m.stack)
    (htop : m'.top = m.top) :
    (slots.foldl liftValue m').stack = (slots.foldl liftValue m).stack := by
  induction slots generalizing m m' with
  | nil => exact hstack
  | cons i slots ih =>
    refine ih ?_ ?_
    · simp only [liftValue, push, put, growTo, slot, hstack, htop]
    · show m'.top + 1 = m.top + 1
      rw [htop]

/-- Extra arguments are set apart the same way wherever the frame has come to. -/
theorem sameArguments_adjustVarargs {m : Machine} {f : Frame} (hf : m.frame? m.currentId = some f)
    {change : Frame → Frame} (hfunc : ∀ f, (change f).func = f.func)
    (hscript : (change f).isScript = f.isScript) (fixed : Nat) :
    (m.adjustVarargs fixed).SameArguments ((m.modifyFrame m.currentId change).adjustVarargs fixed) := by
  have hid := m.currentId_modifyFrame m.currentId change
  have hchanged : (m.modifyFrame m.currentId change).frame?
      (m.modifyFrame m.currentId change).currentId = some (change f) := by
    rw [hid, frame?_modifyFrame_self, hf, Option.map_some]
  have hplace : (m.modifyFrame m.currentId change).current.func = m.current.func := by
    rw [current_eq hchanged, current_eq hf, hfunc]
  have habove : (m.modifyFrame m.currentId change).above (change f).func = m.above f.func := by
    rw [hfunc]
    rfl
  have hafter := frame?_adjustVarargs hf fixed
  have hafter' := frame?_adjustVarargs hchanged fixed
  rw [← currentId_adjustVarargs m fixed] at hafter
  rw [← currentId_adjustVarargs (m.modifyFrame m.currentId change) fixed, habove] at hafter'
  have hextra : ∀ g : Frame, (adjustedFrame (m.above f.func) fixed g).extraArgs =
      if g.isScript then m.above f.func - fixed else 0 := by
    intro g
    rw [Frame.extraArgs, Frame.isScript]
    cases hg : g.progress? with
    | none =>
      rw [adjustedFrame, Frame.setVarargs, Frame.progress?_modifyProgress]
      rw [Frame.progress?] at hg ⊢
      rw [hg]
      rfl
    | some p =>
      rw [progress?_adjustedFrame hg]
      rfl
  refine ⟨?_, ?_, ?_, fun i => ?_⟩
  · rw [currentId_adjustVarargs, currentId_adjustVarargs, hid]
  · rw [current_eq hafter', current_eq hafter]
    show (change f).func + _ = f.func + _
    rw [hfunc]
  · rw [current_eq hafter', current_eq hafter, hextra, hextra, hscript]
  · have hstack : ∀ slots : List Nat, ∀ size v,
        (slots.foldl liftValue
          (((m.modifyFrame m.currentId change).ensureStack size).push v)).stack =
        (slots.foldl liftValue ((m.ensureStack size).push v)).stack := by
      intro slots size v
      exact stack_liftValues slots rfl rfl
    unfold adjustVarargs
    simp only [slot_growTo, slot_modifyFrame, hplace, hid,
      m.frameProto?_modifyFrame m.currentId m.currentId hfunc]
    rw [slot, slot]
    exact congrArg (fun s : Array Value => s[i]?.getD .nil) (hstack _ _ _)

end Machine

namespace Thread

variable {H : Type}

/-! ## Callbacks that look around -/

/-- An event that a callback was told about, and the machine as it found it. -/
structure Sighting where
  record : HookRecord
  machine : Machine

/-- A callback that looks around, and never suspends. -/
def observing : Callback H (List Sighting) := noting Sighting.mk

/-- Apart from what it sees, it is told what a hook logs. -/
theorem follows_observing : Follows (H := H) (List.map Sighting.record) observing calm :=
  follows_noting Sighting.mk Sighting.record

/-- Whether a frame is in the middle of a run does not depend on what the callback keeps. -/
theorem runs_mapHost {W W' : Type} (f : W → W') {t : Thread H W} {proto : Proto} {id : Nat}
    {trap : Bool} : (t.mapHost f).Runs proto id trap ↔ t.Runs proto id trap :=
  ⟨fun h => ⟨h.current, h.frame, h.proto, h.awake⟩, fun h => ⟨h.current, h.frame, h.proto, h.awake⟩⟩

theorem nextPc_mapHost {W W' : Type} (f : W → W') (t : Thread H W) (id : Nat) :
    (t.mapHost f).nextPc id = t.nextPc id := rfl

/-- While a call is reported, the arguments are seen where they are. -/
theorem hookCall_noting {N : Type} (note : HookRecord → Machine → N) {t : Thread H (List N)}
    {f : Frame} (hf : t.frame? t.currentId = some f)
    (hhears : (t.hook.isSome && t.allowHook) = true) (hcall : t.mask.call = true) :
    ∃ seen, t.toMachine.SameArguments seen ∧
      (t.hookCall (noting note) t.currentId).host = t.host ++
        [note ⟨if f.flags.tailCall then .tailCall else .call, none, t.currentId⟩ seen] := by
  obtain ⟨hsome, hallow⟩ := Bool.and_eq_true_iff.1 hhears
  obtain ⟨hook, hhook⟩ := Option.isSome_iff_exists.1 hsome
  obtain ⟨s, hs⟩ : ∃ s, ({ t with oldPc := 0 } : Thread H (List N)).onFrame t.currentId
      (·.setSavedPc (f.savedPc?.getD 0 + 1)) = s := ⟨_, rfl⟩
  have hid : s.currentId = t.currentId := by
    rw [← hs]
    exact currentId_onFrame { t with oldPc := 0 } t.currentId _
  have hplaced : t.toMachine.SameArguments s.toMachine := by
    have hextra : (f.setSavedPc (f.savedPc?.getD 0 + 1)).extraArgs = f.extraArgs := by
      simp only [Frame.extraArgs, Frame.setSavedPc, Frame.progress?_modifyProgress, Option.map_map]
      rfl
    rw [← hs]
    exact Machine.sameArguments_modifyFrame hf rfl hextra
  have hframe : s.frame? s.currentId = some (f.setSavedPc (f.savedPc?.getD 0 + 1)) := by
    rw [hid, ← hs]
    show (t.toMachine.modifyFrame t.currentId _).frame? t.currentId = _
    rw [Machine.frame?_modifyFrame_self, hf, Option.map_some]
  have hhook' : s.hook = some hook := by rw [← hs]; exact hhook
  have hallow' : s.allowHook = true := by rw [← hs]; exact hallow
  rw [hookCall_of_selected _ hf hcall, hs]
  generalize ((t.frameProto? t.currentId).map Proto.paramCount).getD 0 = params
  refine ⟨(s.beginReport 1 params).toMachine, hplaced.trans ?_, ?_⟩
  · -- the callback finds more room and other notes in the frame, and nothing else
    have hready := @Machine.sameArguments_modifyFrame
      (({ s.toMachine with top := s.reportTop } : Machine).ensureStack Machine.minStack) _ hframe
      (fun f => { f with
        top := max f.top (s.reportTop + Machine.minStack)
        transfer := if params = 0 then f.transfer else ⟨1, params⟩ }.insertFlags
          (reportFlags params)) rfl rfl
    refine ⟨hready.currentId, hready.func, hready.extraArgs, fun i => ?_⟩
    exact (hready.slot i).trans (Machine.slot_growTo _ _ i)
  · have hhost : s.host = t.host := by rw [← hs]; rfl
    unfold report fireHook
    simp only [hhook', hallow', if_true, hid]
    rw [if_neg (fun h => by cases h.1)]
    show s.host ++ [note _ _] = _
    rw [hhost]

/-! ## Up to the return -/

/-- A return is the only event that is reported when a frame returns. -/
theorem host_returnFrom_calm {t : Thread H (List HookRecord)}
    (hhears : (t.hook.isSome && t.allowHook) = true) (hinner : t.currentId ≠ Machine.baseFrame)
    (pc : Nat) :
    (t.returnFrom calm t.currentId pc).host =
      t.host ++ if t.mask.ret then [⟨.ret, none, t.currentId⟩] else [] := by
  obtain ⟨s, hs⟩ : ∃ s, t.onFrame t.currentId (·.setSavedPc (pc + 1)) = s := ⟨_, rfl⟩
  have hid : s.currentId = t.currentId := by rw [← hs, currentId_onFrame]
  have hmask : s.mask = t.mask := by rw [← hs]; rfl
  have hhost : s.host = t.host := by rw [← hs]; rfl
  have hlogged : s.logged .ret none = [⟨.ret, none, t.currentId⟩] := by
    have hsame : (s.hook.isSome && s.allowHook) = true := by rw [← hs]; exact hhears
    rw [logged, hsame, if_pos rfl, hid]
  unfold returnFrom popFrame
  simp only [hs, hid, hinner, if_false, hmask]
  by_cases hret : t.mask.ret = true
  · have hnonempty : t.mask.isEmpty = false :=
      HookMask.isEmpty_of_selects (show t.mask.selects .ret = true from hret)
    simp only [hnonempty, Bool.false_eq_true, if_false, hret, if_true]
    show (s.hookReturn calm 0).host = _
    obtain ⟨m, hreport, -⟩ := s.report_calm .ret none ((s.top - 0) - s.current.func) 0
    rw [hookReturn_eq, host_backToCaller, hmask, if_pos hret, hreport, hlogged, hhost]
  · simp only [hret, Bool.false_eq_true, if_false, List.append_nil]
    split
    · exact hhost
    · show (s.hookReturn calm 0).host = _
      rw [hookReturn_eq, host_backToCaller, hmask, if_neg hret, hhost]

/-- A run that reports lines and counts, and at last the return, if it executes one. -/
def LogsUpToReturn (t : Thread H (List HookRecord)) (proto : Proto) (id : Nat)
    (run : Run H (List HookRecord)) : Prop :=
  ∃ middle, (∀ r ∈ middle, r.event = .line ∨ r.event = .count) ∧
    run.thread.host = t.host ++ (middle ++
      if t.mask.ret && run.executed.any proto.returnsAt then [⟨.ret, none, id⟩] else [])

theorem logsUpToReturn_stop (t : Thread H (List HookRecord)) (proto : Proto) (id : Nat)
    (ending : RunEnd) : t.LogsUpToReturn proto id (.stop ending t) := by
  refine ⟨[], fun r hr => ?_, ?_⟩
  · cases hr
  · simp only [Run.stop, List.any_nil, Bool.and_false, Bool.false_eq_true, if_false,
      List.append_nil]

/-- The run lemma: past its beginning a run reports nothing else. -/
theorem Runs.runFrom_events {t : Thread H (List HookRecord)} {proto : Proto} {id : Nat} {trap : Bool}
    (h : t.Runs proto id trap) (hshape : proto.PreparesOnce)
    (hpast : proto.isVararg = true → t.nextPc id ≠ 0)
    (hhears : (t.hook.isSome && t.allowHook) = true) (hinner : id ≠ Machine.baseFrame)
    (steps : Nat) : t.LogsUpToReturn proto id (runFrom calm proto id steps trap t) := by
  induction steps generalizing t trap with
  | zero => exact t.logsUpToReturn_stop proto id .outOfSteps
  | succ steps ih =>
    cases hi : proto.code[t.nextPc id]? with
    | none =>
      rw [runFrom_of_none _ hi]
      exact t.logsUpToReturn_stop proto id .outOfCode
    | some i =>
      obtain ⟨b, t', hlook, hruns, -⟩ := h.watch_calm (t.nextPc id)
      have hadds : t.Adds (fun r => r.event = .line ∨ r.event = .count)
          (t.watch calm trap (t.nextPc id)).2 := adds_watch (fun _ _ hevent => hevent) trap _
      rw [hlook] at hadds
      obtain ⟨records, hlog, hall⟩ := hadds.log
      have hears' := hadds.hears hhears
      have hat : proto.returnsAt (t.nextPc id) = isReturn i := by
        rw [Proto.returnsAt, hi, Option.any_some]
      rw [runFrom_of_ok _ hi hlook, stepOn]
      by_cases hret : isReturn i = true
      · refine ⟨records, hall, ?_⟩
        have hreturn := host_returnFrom_calm hears' (by rw [hruns.current]; exact hinner)
          (t.nextPc id)
        rw [hruns.current, hadds.mask, hlog, List.append_assoc] at hreturn
        simp only [hret, if_true, Run.execute, Run.stop, List.any_cons, hat, Bool.true_or,
          Bool.and_true]
        exact hreturn
      · have hgoes := t'.execute_of_not_varargPrep calm id (t.nextPc id) b
          (opcode_ne_varargPrep hshape hpast hi)
        have hplace := hruns.nextPc_setSavedPc (nextPlace (t.nextPc id) i)
        obtain ⟨middle, hmiddle, hrest⟩ := ih (hruns.setSavedPc (nextPlace (t.nextPc id) i))
          (fun hvararg => by rw [hplace]; exact nextPlace_ne_zero hshape hvararg hi) hears'
        refine ⟨records ++ middle, fun r hr => ?_, ?_⟩
        · rcases List.mem_append.1 hr with hr | hr
          · exact hall r hr
          · exact hmiddle r hr
        · rw [mask_onFrame, hadds.mask] at hrest
          simp only [hret, Bool.false_eq_true, if_false, hgoes, Run.execute, List.any_cons, hat,
            Bool.false_or]
          refine hrest.trans ?_
          show t'.host ++ _ = _
          rw [hlog, List.append_assoc, List.append_assoc]

/-! ## Beginnings -/

/-- Apart from what it keeps, a call is reported to such a callback as to a hook that logs. -/
theorem Follows.adds_hookCall {W : Type} {f : W → List HookRecord} {run : Callback H W}
    (h : Follows f run calm) (t : Thread H W) (id : Nat) :
    Adds (fun _ => True) (t.mapHost f) ((t.hookCall run id).mapHost f) := by
  rw [← hookCall_mapHost h]
  exact Thread.adds_hookCall (fun _ _ => trivial) id

/-- While a call is reported, the same hook stays there to be told. -/
theorem registration_hookCall_observing (t : Thread H (List Sighting)) (id : Nat) :
    (t.hookCall observing id).hook = t.hook ∧ (t.hookCall observing id).allowHook = t.allowHook ∧
      (t.hookCall observing id).mask = t.mask := by
  have hadds := follows_observing.adds_hookCall t id
  exact ⟨hadds.hook, hadds.allowed, hadds.mask⟩

/-- A function that was entered under a hook that is told about calls, and was not suspended before. -/
structure EntersAnnounced {W : Type} (t : Thread H W) (proto : Proto) : Prop
    extends t.Enters proto where
  hears : (t.hook.isSome && t.allowHook) = true
  call : t.mask.call = true
  unmarked : t.current.flags.hookYield = false
  inner : t.currentId ≠ Machine.baseFrame

/-- The machine of a function that was entered, with its extra arguments set apart if it keeps them. -/
def arranged {W : Type} (t : Thread H W) (proto : Proto) : Machine :=
  if proto.isVararg then t.toMachine.adjustVarargs proto.movedParams else t.toMachine

/-- The event of a function that was entered. -/
def entryEvent {W : Type} (t : Thread H W) : HookRecord :=
  ⟨if t.current.flags.tailCall then .tailCall else .call, none, t.currentId⟩

/-- A thread whose first report was the call, and that is in front of an instruction that can be
looked at. -/
structure HasBegun (t u : Thread H (List Sighting)) (proto : Proto) (trap : Bool) : Prop where
  log : ∃ seen, (t.arranged proto).SameArguments seen ∧ u.host = t.host ++ [⟨t.entryEvent, seen⟩]
  runs : u.Runs proto t.currentId trap
  past : proto.isVararg = true → u.nextPc t.currentId ≠ 0
  hears : (u.hook.isSome && u.allowHook) = true
  mask : u.mask = t.mask

/-- The thread of a function that was entered, with its extra arguments set apart by its first
instruction. -/
def prepared {W : Type} (t : Thread H W) (fixed : Nat) : Thread H W :=
  (t.onFrame t.currentId fun f => (f.setTrap true).setSavedPc 1).onMachine (·.adjustVarargs fixed)

/-- The frame is marked then, and its arguments are where the machine has put them. -/
theorem Enters.prepared {W : Type} {t : Thread H W} {proto : Proto} (h : t.Enters proto)
    (fixed : Nat) :
    (t.prepared fixed).currentId = t.currentId ∧
      (∃ g, (t.prepared fixed).frame? (t.prepared fixed).currentId = some g ∧ g.trap = true ∧
        g.flags = t.current.flags) ∧
      (t.toMachine.adjustVarargs fixed).SameArguments (t.prepared fixed).toMachine := by
  obtain ⟨f, p, hf, hp, -⟩ := h.frame
  obtain ⟨change, hchange⟩ : ∃ change : Frame → Frame,
      (fun f => (f.setTrap true).setSavedPc 1) = change := ⟨_, rfl⟩
  have hplaced : (change f).progress? = some { p with trap := true, savedPc := 1 } := by
    rw [← hchange]
    show ((f.setTrap true).setSavedPc 1).progress? = _
    rw [Frame.setSavedPc, Frame.progress?_modifyProgress, Frame.setTrap,
      Frame.progress?_modifyProgress, hp]
    rfl
  have hscript : (change f).isScript = f.isScript := by
    rw [Frame.isScript, Frame.isScript, hplaced, hp]
    rfl
  have hframe : (t.toMachine.modifyFrame t.currentId change).frame?
      (t.toMachine.modifyFrame t.currentId change).currentId = some (change f) := by
    rw [Machine.currentId_modifyFrame, Machine.frame?_modifyFrame_self, hf, Option.map_some]
  have hmachine : (t.prepared fixed).toMachine =
      (t.toMachine.modifyFrame t.currentId change).adjustVarargs fixed := by
    rw [← hchange]
    rfl
  have hadjusted := Machine.frame?_adjustVarargs hframe fixed
  rw [← Machine.currentId_adjustVarargs (t.toMachine.modifyFrame t.currentId change) fixed,
    ← hmachine] at hadjusted
  refine ⟨?_, ⟨_, hadjusted, ?_, ?_⟩, ?_⟩
  · rw [hmachine, Machine.currentId_adjustVarargs, Machine.currentId_modifyFrame]
  · rw [Frame.trap, Machine.progress?_adjustedFrame hplaced]
    rfl
  · rw [Machine.current_eq hf, ← hchange]
    rfl
  · rw [hmachine]
    refine Machine.sameArguments_adjustVarargs hf (fun g => ?_) hscript fixed
    rw [← hchange]
    rfl

/-- What the first instruction does then is to report the call. -/
theorem Enters.execute_prepared {W : Type} (run : Callback H W) {t : Thread H W} {proto : Proto}
    (h : t.Enters proto) {i : Instruction} (hop : i.opcode = .varargPrep) :
    ((t.onFrame t.currentId (·.setTrap true)).execute run t.currentId 0 false i).2 =
      ({ (t.prepared i.a).hookCall run (t.prepared i.a).currentId with oldPc := 1 } :
        Thread H W).onFrame t.currentId (·.setSavedPc 1) := by
  obtain ⟨-, ⟨g, hg, htrap, -⟩, -⟩ := h.prepared i.a
  have hready : ((t.onFrame t.currentId (·.setTrap true)).onFrame t.currentId
      (·.setSavedPc (0 + 1))).onMachine (·.adjustVarargs i.a) = t.prepared i.a := by
    rw [onFrame_onFrame]
    rfl
  have hmarked : (t.prepared i.a).current.trap = true := by
    rw [Machine.current_eq hg]
    exact htrap
  unfold execute prepareVarargs hookVarargPrep
  simp only [hop, if_true, hready, hmarked]
  rfl

namespace EntersAnnounced

variable {t : Thread H (List Sighting)} {proto : Proto}

theorem isEmpty_mask (h : t.EntersAnnounced proto) : t.mask.isEmpty = false :=
  HookMask.isEmpty_of_selects (show t.mask.selects .call = true from h.call)

/-- The marked frame holds the same arguments. -/
theorem marked_frame (h : t.EntersAnnounced proto) :
    ∃ f, t.frame? t.currentId = some f ∧ t.current = f ∧
      (t.onFrame t.currentId (·.setTrap true)).frame?
        (t.onFrame t.currentId (·.setTrap true)).currentId = some (f.setTrap true) := by
  obtain ⟨f, p, hf, -, -⟩ := h.frame
  refine ⟨f, hf, Machine.current_eq hf, ?_⟩
  rw [currentId_onFrame, frame?_onFrame_self, hf, Option.map_some]

/-- A function without extra arguments is reported before its first instruction. -/
theorem begins_plain (h : t.EntersAnnounced proto) (hvararg : proto.isVararg = false) :
    ∃ u, t.beginRun observing = (true, u) ∧ t.HasBegun u proto true := by
  have hbegin := h.toEnters.beginRun_plain observing h.isEmpty_mask hvararg h.unmarked
  obtain ⟨f, hf, hcurrent, hmarked⟩ := h.marked_frame
  obtain ⟨seen, hseen, hlog⟩ := hookCall_noting Sighting.mk hmarked h.hears h.call
  have hextra : (f.setTrap true).extraArgs = f.extraArgs := by
    simp only [Frame.extraArgs, Frame.setTrap, Frame.progress?_modifyProgress, Option.map_map]
    rfl
  have hsame : t.toMachine.SameArguments (t.onFrame t.currentId (·.setTrap true)).toMachine :=
    Machine.sameArguments_modifyFrame hf rfl hextra
  -- what is kept by the report is read off from the same report to a hook that logs
  have hreports := hookCall_calm
    ((t.onFrame t.currentId (·.setTrap true)).mapHost (List.map Sighting.record)) t.currentId
  rw [hookCall_mapHost follows_observing] at hreports
  obtain ⟨hhook, hallow, hmask⟩ := registration_hookCall_observing
    (t.onFrame t.currentId (·.setTrap true)) t.currentId
  refine ⟨_, hbegin, ⟨⟨seen, ?_, ?_⟩, ?_, fun hv => ?_, ?_, ?_⟩⟩
  · rw [arranged, hvararg, if_neg Bool.false_ne_true]
    exact hsame.trans hseen
  · rw [currentId_onFrame] at hlog
    rw [entryEvent, hcurrent]
    exact hlog
  · have hmarks := (runs_mapHost (List.map Sighting.record)).2 h.marked.1
    exact (runs_mapHost _).1 ((hmarks.setOldPc 0).of_reports hreports)
  · rw [hvararg] at hv
    cases hv
  · rw [hhook, hallow]
    exact h.hears
  · exact hmask

/-- The first instruction of a function with extra arguments reports it, once they were set apart. -/
theorem hasBegun_execute (h : t.EntersAnnounced proto) (hvararg : proto.isVararg = true)
    {i : Instruction} (hmoved : proto.movedParams = i.a) (hop : i.opcode = .varargPrep) :
    let marked := t.onFrame t.currentId (·.setTrap true)
    t.HasBegun (marked.execute observing t.currentId 0 false i).2 proto
      (marked.execute observing t.currentId 0 false i).1 := by
  intro marked
  obtain ⟨hid, ⟨g, hg, -, hflags⟩, hsame⟩ := h.toEnters.prepared i.a
  have hgoes := h.toEnters.execute_prepared observing hop
  obtain ⟨hhears, hcall, hmask, hhost⟩ : ((t.prepared i.a).hook.isSome &&
      (t.prepared i.a).allowHook) = true ∧ (t.prepared i.a).mask.call = true ∧
      (t.prepared i.a).mask = t.mask ∧ (t.prepared i.a).host = t.host :=
    ⟨h.hears, h.call, rfl, rfl⟩
  generalize t.prepared i.a = s at hid hg hflags hsame hgoes hhears hcall hmask hhost
  obtain ⟨seen, hseen, hlog⟩ := hookCall_noting Sighting.mk hg hhears hcall
  -- the rest is read off from the same instruction under a hook that logs
  have hmarkedRuns := (runs_mapHost (List.map Sighting.record)).2 h.marked.1
  obtain ⟨f, hf, hcurrent, hmarked⟩ := h.marked_frame
  have hbelow : (marked.mapHost (List.map Sighting.record)).current.func <
      (marked.mapHost (List.map Sighting.record)).top := by
    have hfunc := h.below
    rw [hcurrent] at hfunc
    show marked.current.func < marked.top
    rw [show marked.current = f.setTrap true from current_onFrame t hf _]
    exact hfunc
  obtain ⟨hruns, hplace⟩ := (hmarkedRuns.unwatched).execute_calm 0 i fun _ => hbelow
  rw [execute_mapHost follows_observing] at hruns hplace
  rw [nextPc_mapHost] at hplace
  obtain ⟨hhook, hallow, hsame'⟩ := registration_hookCall_observing s s.currentId
  refine ⟨⟨seen, ?_, ?_⟩, (runs_mapHost _).1 hruns, fun _ => ?_, ?_, ?_⟩
  · rw [arranged, hvararg, if_pos rfl, hmoved]
    exact hsame.trans hseen
  · rw [hgoes, entryEvent, ← hflags, ← hid, ← hhost]
    exact hlog
  · have hnext : nextPlace 0 i = 1 := by
      rw [nextPlace, hop]
      rfl
    rw [hplace, hnext]
    exact Nat.one_ne_zero
  · rw [hgoes]
    show ((s.hookCall observing s.currentId).hook.isSome &&
      (s.hookCall observing s.currentId).allowHook) = true
    rw [hhook, hallow, hhears]
  · rw [hgoes, ← hmask]
    exact hsame'

/-- A function with extra arguments is reported by its first instruction. -/
theorem begins_vararg (h : t.EntersAnnounced proto) (hshape : proto.PreparesOnce)
    (hvararg : proto.isVararg = true) (steps : Nat) :
    ∃ u trap, t.HasBegun u proto trap ∧ proto.returnsAt 0 = false ∧
      t.runFrame observing (steps + 1) =
        .execute 0 (runFrom observing proto t.currentId steps trap u) := by
  obtain ⟨i, hi, hop⟩ := Option.map_eq_some_iff.1 (hshape.first hvararg)
  have hmoved : proto.movedParams = i.a := by rw [Proto.movedParams, hi]; rfl
  have hret : isReturn i = false := by
    rw [isReturn, hop]
    rfl
  obtain ⟨s, hs⟩ : ∃ s, t.onFrame t.currentId (·.setTrap true) = s := ⟨_, rfl⟩
  have hfirst : s.nextPc t.currentId = 0 := by
    rw [← hs]
    exact h.toEnters.nextPc_marked
  have hi' : proto.code[s.nextPc t.currentId]? = some i := by rw [hfirst, hi]
  refine ⟨_, _, h.hasBegun_execute hvararg hmoved hop, ?_, ?_⟩
  · rw [Proto.returnsAt, hi, Option.any_some, hret]
  · rw [runFrame_of_proto _ h.proto, h.toEnters.beginRun_vararg observing h.isEmpty_mask hvararg, hs,
      runFrom_of_ok _ hi' rfl, stepOn, hret, hfirst]
    simp only [Bool.false_eq_true, if_false]

end EntersAnnounced

/-! ## Whole runs -/

/-- Once the call was reported, a run reports lines and counts, and at last the return, if it executes
one. -/
theorem HasBegun.runFrom {t u : Thread H (List Sighting)} {proto : Proto} {trap : Bool}
    (h : t.HasBegun u proto trap) (hshape : proto.PreparesOnce)
    (hinner : t.currentId ≠ Machine.baseFrame) (steps : Nat) :
    ∃ middle returned,
      (runFrom observing proto t.currentId steps trap u).thread.host =
        u.host ++ (middle ++ returned) ∧
      (∀ s ∈ middle, s.record.event = .line ∨ s.record.event = .count) ∧
      returned.map Sighting.record =
        if t.mask.ret &&
            (runFrom observing proto t.currentId steps trap u).executed.any proto.returnsAt then
          [⟨.ret, none, t.currentId⟩]
        else [] := by
  obtain ⟨later, hlater⟩ := host_runFrom_noting Sighting.mk proto t.currentId steps trap u
  obtain ⟨records, hall, hlog⟩ := ((runs_mapHost (List.map Sighting.record)).2 h.runs).runFrom_events
    hshape (by rw [nextPc_mapHost]; exact h.past) h.hears hinner steps
  -- the notes of the run, seen as what a hook logs
  rw [runFrom_mapHost follows_observing] at hlog
  change ((Thread.runFrom observing proto t.currentId steps trap u).thread.host).map
    Sighting.record = u.host.map Sighting.record ++ (records ++ if u.mask.ret &&
      (Thread.runFrom observing proto t.currentId steps trap u).executed.any proto.returnsAt then
        [⟨.ret, none, t.currentId⟩] else []) at hlog
  change (Thread.runFrom observing proto t.currentId steps trap u).thread.host = u.host ++ later
    at hlater
  rw [hlater, List.map_append, List.append_cancel_left_eq, List.map_eq_append_iff] at hlog
  obtain ⟨middle, returned, rfl, hmiddle, hreturned⟩ := hlog
  refine ⟨middle, returned, hlater, fun s hs => ?_, ?_⟩
  · refine hall s.record ?_
    rw [← hmiddle]
    exact List.mem_map_of_mem hs
  · rw [hreturned, h.mask]

/-- **Calls come first and returns last.**  A function is entered with any arguments, in place of its
caller or not, and run for one step or more under a callback that looks around and is told about calls
and any other events.  It is told about the call first, once, and finds the arguments where the
function wants them, the extra ones set apart.  Then it is told about lines and counts, and at last
about the return, if it is told about returns and the run executes one. -/
theorem runFrame_events {t : Thread H (List Sighting)} {proto : Proto} (h : t.EntersAnnounced proto)
    (hshape : proto.PreparesOnce) {maxSteps : Nat} (hsteps : 1 ≤ maxSteps) :
    let run := t.runFrame observing maxSteps
    ∃ entered middle returned,
      run.thread.host = t.host ++ entered :: (middle ++ returned) ∧
      entered.record =
        ⟨if t.current.flags.tailCall then .tailCall else .call, none, t.currentId⟩ ∧
      (t.arranged proto).SameArguments entered.machine ∧
      (∀ s ∈ middle, s.record.event = .line ∨ s.record.event = .count) ∧
      returned.map Sighting.record =
        if t.mask.ret && run.executed.any proto.returnsAt then [⟨.ret, none, t.currentId⟩]
        else [] := by
  intro run
  obtain ⟨u, trap, steps, hbegun, hthread, hreturns⟩ : ∃ u trap steps, t.HasBegun u proto trap ∧
      run.thread = (runFrom observing proto t.currentId steps trap u).thread ∧
      run.executed.any proto.returnsAt =
        (runFrom observing proto t.currentId steps trap u).executed.any proto.returnsAt := by
    cases hvararg : proto.isVararg with
    | true =>
      obtain ⟨steps, rfl⟩ := Nat.exists_eq_add_of_le' hsteps
      obtain ⟨u, trap, hbegun, hfirst, hrun⟩ := h.begins_vararg hshape hvararg steps
      refine ⟨u, trap, steps, hbegun, ?_, ?_⟩
      · rw [show run = _ from hrun]
        rfl
      · rw [show run = _ from hrun]
        show (0 :: _).any _ = _
        rw [List.any_cons, hfirst, Bool.false_or]
    | false =>
      obtain ⟨u, hbegin, hbegun⟩ := h.begins_plain hvararg
      have hrun : run = runFrom observing proto t.currentId maxSteps true u := by
        show t.runFrame observing maxSteps = _
        rw [runFrame_of_proto _ h.proto, hbegin]
      exact ⟨u, true, maxSteps, hbegun, by rw [hrun], by rw [hrun]⟩
  obtain ⟨seen, hseen, hlog⟩ := hbegun.log
  obtain ⟨middle, returned, hhost, hmiddle, hreturned⟩ := hbegun.runFrom hshape h.inner steps
  refine ⟨⟨t.entryEvent, seen⟩, middle, returned, ?_, rfl, hseen, hmiddle, ?_⟩
  · rw [hthread, hhost, hlog, List.append_assoc, List.singleton_append]
  · rw [hreturned, hreturns]

section Called

variable {W : Type} {t : Thread H W} {func : Nat} {proto : Proto} {upvalues : Array Nat}

/-- A function that is called, and under which a hook is installed then. -/
theorem entersAnnounced_enter
    (hslot : t.stack[func]?.bind t.function? = some (.script proto upvalues))
    (hfunc : func < t.top) (hframes : t.frames.size ≠ 0) (hawake : t.suspended = false)
    (hallow : t.allowHook = true) {flags : CallFlags} (hflags : flags.hookYield = false) (hook : H)
    {mask : HookMask} (hcall : mask.call = true) (count : Int) :
    (t.enter func flags hook mask count).EntersAnnounced proto := by
  have hmask : mask.isEmpty = false :=
    HookMask.isEmpty_of_selects (show mask.selects .call = true from hcall)
  obtain ⟨⟨f, p, hf, -, -, -, hkept⟩, -, -⟩ := frame_enter hslot hfunc flags hook mask count
  have hpush := congrArg Prod.snd (pushScriptFrame_of_slot hslot flags)
  refine ⟨enters_enter hslot hfunc hawake flags hook mask count, ?_, ?_, ?_, ?_⟩
  · unfold enter setHook
    rw [hpush]
    simp only [Option.isSome_some, hmask, Bool.not_false, Bool.and_self, if_true, Bool.true_and]
    exact hallow
  · rw [mask_enter t func flags hook hmask]
    exact hcall
  · rw [Machine.current_eq hf, hkept]
    exact hflags
  · obtain ⟨ids, hmarked⟩ := (t.pushScriptFrame func flags).2.exists_armTraps_setHook (some hook)
      mask count
    obtain ⟨⟨g, hg, -⟩, -, -⟩ := Machine.enterScript_frame hslot hfunc flags
    rw [enter, hmarked, hpush]
    show ((t.enterScript proto func flags).armTraps ids).currentId ≠ Machine.baseFrame
    rw [(Machine.exists_frame_armTraps ids hg).2.2,
      (Machine.inCall_enterScript t.toMachine proto hfunc flags).currentId]
    exact hframes

end Called

/-- A thread with a function and two arguments on the stack, and a callback that looks around. -/
def observedThread (proto : Proto) : Thread Unit (List Sighting) :=
  (Thread.initial []).onMachine fun m =>
    (m.register (.script proto #[])).pushAll [.function 0, .integer 7, .integer 8]

/-- A function that keeps its extra arguments is entered in place of its caller, under a hook that is
told about everything.  When its call is reported, it has been moved above its arguments with the first
of them, and the second one is kept. -/
theorem runFrame_events_winding :
    let t := (observedThread windingProto).enter 1 { tailCall := true } ()
      { call := true, ret := true, line := true, count := true } 2
    (t.runFrame observing 9).thread.host.map Sighting.record =
        [⟨.tailCall, none, 1⟩, ⟨.line, some 11, 1⟩, ⟨.count, none, 1⟩, ⟨.line, some 12, 1⟩,
          ⟨.count, none, 1⟩, ⟨.line, some 500, 1⟩, ⟨.ret, none, 1⟩] ∧
      ∃ entered middle returned,
        (t.runFrame observing 9).thread.host = entered :: (middle ++ returned) ∧
        entered.record.event = .tailCall ∧
        entered.machine.current.func = 4 ∧ entered.machine.current.extraArgs = 1 ∧
        entered.machine.slot 3 = .integer 8 ∧ entered.machine.slot 5 = .integer 7 ∧
        returned.map Sighting.record = [⟨.ret, none, 1⟩] := by
  intro t
  have hslot : (observedThread windingProto).stack[1]?.bind
      (observedThread windingProto).function? = some (.script windingProto #[]) := rfl
  have hentered : t.EntersAnnounced windingProto :=
    entersAnnounced_enter hslot (by decide) (by decide) rfl rfl rfl () rfl 2
  have hshape : windingProto.PreparesOnce := ⟨by decide, by decide, by decide⟩
  obtain ⟨entered, middle, returned, hhost, hrecord, hseen, -, hreturned⟩ :=
    runFrame_events hentered hshape (show 1 ≤ 9 by decide)
  have hplace : (t.arranged windingProto).current.func = 4 ∧
      (t.arranged windingProto).current.extraArgs = 1 ∧
      (t.arranged windingProto).slot 3 = .integer 8 ∧
      (t.arranged windingProto).slot 5 = .integer 7 := by
    decide +kernel
  have hlast : (t.mask.ret && (t.runFrame observing 9).executed.any windingProto.returnsAt) = true := by
    decide +kernel
  have htail : t.current.flags.tailCall = true ∧ t.host = [] := ⟨by decide +kernel, rfl⟩
  rw [htail.1] at hrecord
  rw [hlast, if_pos rfl] at hreturned
  refine ⟨by decide +kernel, entered, middle, returned, hhost, by rw [hrecord]; rfl, ?_, ?_, ?_, ?_,
    hreturned⟩
  · rw [hseen.func, hplace.1]
  · rw [hseen.extraArgs, hplace.2.1]
  · rw [hseen.slot, hplace.2.2.1]
  · rw [hseen.slot, hplace.2.2.2]

end Thread

end VmInspect
