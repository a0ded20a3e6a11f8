import VmInspect.Proofs.Machine.Levels
import VmInspect.Proofs.Thread.Operations

/-!
# Levels and tracebacks of a watched thread

Frames are added by calls and taken away by returns, in any order, and while events are reported the
callback may do both.  This file proves that the chain of calls survives all of it, as long as no callback
that is told about a return takes the returning frame away itself:

* `Thread.SparesReturning` — such a callback, made of the operations of a program.
* `Thread.keepsChain_of_spares` — its reports keep the frames linked, and those of a return their number.
* `Thread.linked_operate` — so does each operation, but for the number.
* `Thread.levels_and_tracebacks` — levels and tracebacks of every thread that operations lead to, if each
  callback returns with as many frames as it found.
-/

namespace VmInspect

namespace Thread

variable {H W : Type} {run : Callback H W} {t : Thread H W}

/-- A callback does what a program can do, and returns with as many frames as it found. -/
def KeepsDepth (run : Callback H W) : Prop :=
  ∀ hook record (t : Thread H W), t.allowHook = false →
    ∃ ops, (run hook record t).2 = t.operateAll run ops ∧
      (run hook record t).2.frames.size = t.frames.size

/-- A callback does what a program can do, and when it is told about a return, there are as many frames
afterwards as there were, so that the frame that returns is not missing. -/
def SparesReturning (run : Callback H W) : Prop :=
  ∀ hook record (t : Thread H W), t.allowHook = false →
    ∃ ops, (run hook record t).2 = t.operateAll run ops ∧
      (record.event = .ret → t.frames.size ≤ (run hook record t).2.frames.size)

theorem KeepsDepth.spares (h : KeepsDepth run) : SparesReturning run := by
  intro hook record t hforbidden
  obtain ⟨ops, hops, hsize⟩ := h hook record t hforbidden
  exact ⟨ops, hops, fun _ => Nat.le_of_eq hsize.symm⟩

/-- A callback that does nothing. -/
def idle : Callback H W := fun _ _ t => (.proceed, t)

/-- Its reports keep the frames linked, and a report of a return takes none away. -/
structure KeepsChain (run : Callback H W) : Prop where
  linked : Stable run fun m _ => m.Linked
  spares : ∀ {t : Thread H W} (line : Option Int) (first count : Nat), t.Linked →
    t.frames.size ≤ (t.report run .ret line first count).frames.size

theorem linked_beginReport (h : t.Linked) (first count : Nat) : (t.beginReport first count).Linked := by
  have hroom : Machine.Linked
      (({ t.toMachine with top := t.reportTop } : Machine).ensureStack Machine.minStack) :=
    h.of_frames_eq rfl
  exact hroom.modifyFrame t.currentId fun _ => ⟨rfl, rfl⟩

theorem size_frames_onFrame (t : Thread H W) (id : Nat) (change : Frame → Frame) :
    (t.onFrame id change).frames.size = t.frames.size := Array.size_modify

/-- So it is if the callback does. -/
theorem keepsChain_of_callback (hcallback : ∀ hook record (t : Thread H W), t.allowHook = false →
    t.Linked → (run hook record t).2.Linked ∧
      (record.event = .ret → t.frames.size ≤ (run hook record t).2.frames.size)) : KeepsChain run := by
  refine ⟨⟨fun id change hchange h => h.modifyFrame id fun f =>
    ⟨congrArg (·.2.2.1) (hchange f), congrArg (·.2.2.2) (hchange f)⟩, ?_⟩, ?_⟩
  · intro t event line first count h
    refine report_keeps (P := fun m _ => m.Linked) h ?_
    rintro hook u - rfl
    have hdone := (hcallback hook ⟨event, line, t.currentId⟩ (t.beginReport first count) rfl
      (linked_beginReport h first count)).1
    have hkept : ∀ f : Frame,
        ({ f with top := t.current.top }.removeFlags (reportFlags count)).previous = f.previous ∧
          ({ f with top := t.current.top }.removeFlags (reportFlags count)).isScript = f.isScript :=
      fun _ => ⟨rfl, rfl⟩
    exact (hdone.modifyFrame t.currentId hkept).of_frames_eq rfl
  · intro t line first count h
    refine report_keeps (P := fun m _ => t.frames.size ≤ m.frames.size) (Nat.le_refl _) ?_
    rintro hook u - rfl
    have hdone := (hcallback hook ⟨.ret, line, t.currentId⟩ (t.beginReport first count) rfl
      (linked_beginReport h first count)).2 rfl
    have hbegin : (t.beginReport first count).frames.size = t.frames.size := Array.size_modify
    rw [hbegin] at hdone
    exact Nat.le_trans hdone (Nat.le_of_eq (size_frames_onFrame _ _ _).symm)

theorem keepsChain_idle : KeepsChain (idle : Callback H W) :=
  keepsChain_of_callback fun _ _ _ _ h => ⟨h, fun _ => Nat.le_refl _⟩

/-- A frame that returns is not missing. -/
theorem KeepsChain.size_hookReturn (hrun : KeepsChain run) (h : t.Linked) (results : Nat) :
    t.frames.size ≤ (t.hookReturn run results).frames.size := by
  rw [hookReturn_eq, toMachine_backToCaller]
  split
  · exact hrun.spares none _ results h
  · exact Nat.le_refl _

/-- The step lemma: an operation keeps the frames linked. -/
theorem linked_operate (hrun : KeepsChain run) (h : t.Linked) (op : Operation H W) :
    (t.operate run op).Linked := by
  have hkept := hrun.linked.keptByEvents
  have henter : ∀ func flags, (t.pushScriptFrame func flags).2.Linked := by
    intro func flags
    refine pushScriptFrame_keeps (P := fun m _ => m.Linked) h fun _ proto => ?_
    exact h.push (t.toMachine.frames_enterScript proto func flags) rfl
  cases op with
  | enterScript func flags => exact henter func flags
  | register f => exact h.of_frames_eq rfl
  | step step =>
    cases step with
    | stack action => exact h.of_frames_eq (t.toMachine.frames_act action)
    | setHook hook mask count => exact hkept.setHook h hook mask count
    | fireHook event line first count => exact hkept.report event line first count h
    | traceExec pc => exact hkept.traceExec h (h.of_frames_eq rfl) pc
    | traceCall => exact hkept.traceCall h
    | hookCall id => exact hkept.hookCall h id
    | hookReturn results => exact hkept.hookReturn h results
    | hookVarargPrep => exact hkept.hookVarargPrep h
    | enterScript func flags _ => exact henter func flags
    | enterNative func =>
      have hentered : (t.enterNative func).Linked :=
        h.push (f := Frame.native func (t.top + Machine.minStack) (some t.currentId)) rfl rfl
      exact hkept.pushNativeFrame (Q := fun m _ => m.Linked) h (fun _ => hentered) fun _ _ hm => hm
    | leave results =>
      show (t.popFrame run results).2.Linked
      unfold popFrame
      by_cases hid : t.currentId = Machine.baseFrame
      · rw [if_pos hid]
        exact h
      · rw [if_neg hid]
        have hleave : ∀ u : Thread H W, u.Linked → t.frames.size ≤ u.frames.size →
            (u.leave t.currentId results).Linked := by
          intro u hu hsize
          refine hu.pop ?_ rfl
          unfold Machine.currentId Machine.baseFrame at hid ⊢
          omega
        by_cases hmask : t.mask.isEmpty = true
        · rw [if_pos hmask]
          exact hleave t h (Nat.le_refl _)
        · rw [if_neg hmask]
          exact hleave _ (hkept.hookReturn h results) (hrun.size_hookReturn h results)
    | adjustVarargs fixed =>
      have hmoved : (t.toMachine.modifyFrame t.currentId
          (Machine.adjustedFrame (t.above t.current.func) fixed)).Linked :=
        h.modifyFrame t.currentId fun f => ⟨rfl, Machine.isScript_adjustedFrame _ _ f⟩
      exact hmoved.of_frames_eq (t.toMachine.frames_adjustVarargs fixed)
    | setSavedPc id pc => exact hkept.setSavedPc h id pc
    | resume => exact hkept.resume h
    | note change => exact h

/-- The run lemma. -/
theorem linked_operateAll (hrun : KeepsChain run) (h : t.Linked) (ops : List (Operation H W)) :
    (t.operateAll run ops).Linked := by
  induction ops generalizing t with
  | nil => exact h
  | cons op ops ih => exact ih (linked_operate hrun h op)

/-- A callback that is made of operations keeps the chain.  No callback is called meanwhile, so it does not
matter which one would be. -/
theorem keepsChain_of_spares (hrun : SparesReturning run) : KeepsChain run := by
  refine keepsChain_of_callback fun hook record t hforbidden h => ?_
  obtain ⟨ops, hops, hsize⟩ := hrun hook record t hforbidden
  refine ⟨?_, hsize⟩
  rw [hops, operateAll_of_forbidden hforbidden ops]
  exact linked_operateAll keepsChain_idle h ops

theorem keepsChain_of_keepsDepth (hrun : KeepsDepth run) : KeepsChain run :=
  keepsChain_of_spares hrun.spares

/-! ## Levels and tracebacks -/

theorem pushScriptFrame_refused {func : Nat} {flags : CallFlags} {f : Failure}
    (h : (t.pushScriptFrame func flags).1 = .error f) : (t.pushScriptFrame func flags).2 = t := by
  unfold pushScriptFrame at h ⊢
  split at h
  · cases h
  · rfl

theorem pushNativeFrame_refused {func : Nat} {f : Failure}
    (h : (t.pushNativeFrame run func).1 = .error f) : (t.pushNativeFrame run func).2 = t := by
  unfold pushNativeFrame at h ⊢
  split at h
  · cases h
  · rfl

/-- Levels and tracebacks of every thread that operations lead to, if callbacks return with as many frames
as they found.  Each frame but the first was called by the one below it, so the frame of a level is found
by counting, and a traceback tells of each frame what its description says.  A call that is refused changes
nothing. -/
theorem levels_and_tracebacks (hrun : KeepsDepth run) (host : W) (ops : List (Operation H W)) :
    let t := (Thread.initial host).operateAll run ops
    0 < t.frames.size ∧
      (∀ id f, t.frame? id = some f →
        f.previous = if id = Machine.baseFrame then none else some (id - 1)) ∧
      (∀ level : Int, t.level? level =
        if 0 ≤ level ∧ level < t.depth then some (t.depth - level.toNat) else none) ∧
      (∀ level : Int, level < 0 → t.traceback level = []) ∧
      (∀ level : Int, 0 ≤ level → (t.traceback level).length = t.depth - level.toNat ∧
        ∀ i < t.depth - level.toNat, ∃ info entry,
          t.describeFrame? (t.depth - level.toNat - i) = some info ∧
          (t.traceback level)[i]? = some entry ∧ entry.source = info.label ∧
          entry.line = info.currentLine ∧ entry.isTailCall = info.isTailCall ∧
          (∀ name, info.name = some name → entry.functionName = some name.name) ∧
          (info.name = none →
            entry.functionName = if info.kind = .main then some "main chunk" else none)) ∧
      ∀ (u : Thread H W) func f,
        (∀ flags, (u.pushScriptFrame func flags).1 = .error f →
          (u.pushScriptFrame func flags).2 = u) ∧
        ((u.pushNativeFrame run func).1 = .error f → (u.pushNativeFrame run func).2 = u) := by
  intro t
  have hinitial : (Thread.initial host : Thread H W).Linked := Machine.Linked.initial
  have hlinked : t.Linked := linked_operateAll (keepsChain_of_keepsDepth hrun) hinitial ops
  refine ⟨hlinked.nonempty, hlinked.previous, hlinked.level?_eq, fun level => hlinked.traceback_of_neg,
    fun level hlevel => ?_, fun u func f =>
      ⟨fun flags => pushScriptFrame_refused, pushNativeFrame_refused⟩⟩
  have hentries := hlinked.traceback_eq hlevel
  refine ⟨by rw [hentries, List.length_map, List.length_range], fun i hi => ?_⟩
  have hid : t.depth - level.toNat - i < t.frames.size := by
    have hpos := hlinked.nonempty
    unfold Machine.depth at hi ⊢
    omega
  obtain ⟨info, hinfo⟩ := Machine.Linked.exists_describeFrame? hid
  have hentry : t.entryAt (t.depth - level.toNat - i) = info.entry := by
    rw [Machine.entryAt, hinfo]
    rfl
  refine ⟨info, info.entry, hinfo, ?_, rfl, rfl, rfl, fun name hname => ?_, fun hname => ?_⟩
  · rw [hentries, List.getElem?_map, List.getElem?_range hi, Option.map_some, hentry]
  · rw [FunctionInfo.entry, FunctionInfo.entryName?, hname]
  · rw [FunctionInfo.entry, FunctionInfo.entryName?, hname]

/-- A callback that does something, unless frames would be missing or left over afterwards. -/
def careful (ops : Thread H W → List (Operation H W)) : Callback H W := fun _ _ t =>
  (.proceed, if (t.operateAll idle (ops t)).frames.size = t.frames.size
    then t.operateAll idle (ops t) else t)

theorem keepsDepth_careful (ops : Thread H W → List (Operation H W)) : KeepsDepth (careful ops) := by
  intro hook record t hforbidden
  unfold careful
  by_cases hsize : (t.operateAll idle (ops t)).frames.size = t.frames.size
  · rw [if_pos hsize]
    exact ⟨ops t, operateAll_of_forbidden hforbidden (ops t), hsize⟩
  · rw [if_neg hsize]
    exact ⟨[], rfl, rfl⟩

/-- Count the call, call a native function, and return from it. -/
def emitting (t : Thread Unit Nat) : List (Operation Unit Nat) :=
  [.step (.note (· + 1)), .step (.stack (.push (.function 1))), .step (.enterNative t.top),
    .step (.leave 0)]

/-- The main function of a source, with a local function that it calls. -/
def emittingProto : Proto where
  code := #[.abc .call 0 1 1, .abc .return0 0 0 0]
  locals := [⟨"emit", 0, 2⟩]
  source := some "@main.sol"
  maxStack := 2

/-- The main function calls a native one under a hook that is told about calls.  A call of what is no
function is refused before. -/
def emittingOps : List (Operation Unit Nat) :=
  [.register (.script emittingProto #[]), .register (.native "emit" 0),
    .step (.stack (.push (.function 0))), .enterScript 1 {}, .step (.setSavedPc 1 1),
    .step (.setHook (some ()) { call := true } 0), .step (.stack (.push (.function 1))),
    .enterScript 0 {}, .enterScript 2 {}, .step (.enterNative 2)]

/-- The hook is told about the one call that is not refused and not its own.  Both calls are in the
traceback, with the name of the local function and as the main function. -/
theorem levels_and_tracebacks_emitting :
    KeepsDepth (careful emitting) ∧
      ((Thread.initial 0).operateAll (careful emitting) emittingOps).host = 1 ∧
      ((Thread.initial 0).operateAll (careful emitting) emittingOps).depth = 2 ∧
      ((Thread.initial 0).operateAll (careful emitting) emittingOps).level? 1 = some 1 ∧
      ((Thread.initial 0).operateAll (careful emitting) emittingOps).level? 2 = none ∧
      (((Thread.initial 0).operateAll (careful emitting) emittingOps).traceback 0).length = 2 ∧
      (((Thread.initial 0).operateAll (careful emitting) emittingOps).traceback 0).map
        TraceEntry.functionName = [some "emit", some "main chunk"] ∧
      ((Thread.initial 0).operateAll (careful emitting) emittingOps).traceback (-1) = [] := by
  have hrun := keepsDepth_careful emitting
  have hdepth : ((Thread.initial 0).operateAll (careful emitting) emittingOps).depth = 2 := by
    decide +kernel
  obtain ⟨-, -, hlevel, hneg, hentries, -⟩ := levels_and_tracebacks hrun 0 emittingOps
  refine ⟨hrun, by decide +kernel, hdepth, ?_, ?_, ?_, by decide +kernel, hneg (-1) (by decide)⟩
  · rw [hlevel, hdepth]
    rfl
  · rw [hlevel, hdepth]
    rfl
  · rw [(hentries 0 (by decide)).1, hdepth]
    rfl

end Thread

end VmInspect
