import VmInspect.Proofs.Machine.Calls
import VmInspect.Proofs.Thread.Logging

/-!
# Calls of a watched thread

A call is reported when its function returns, in the middle of the return.  This file proves that the
caller cannot tell:

* `Thread.reported_hookReturn_calm` — the report touches nothing but the frame that is left and the
  room above the stack.
* `Thread.popFrame_restores` — so a call gives the caller back its frames and its values, with the
  results in place of the function and its arguments.
-/

namespace VmInspect

namespace Thread

variable {H : Type}

/-! ## Reports and the other frames -/

/-- A report touches the current frame, and makes room above the stack. -/
theorem reported_noted (t : Thread H (List HookRecord)) (record : HookRecord) (first count : Nat) :
    t.toMachine.Reported (t.noted record first count).toMachine where
  toUndisturbed := t.undisturbed_endReport first count (t.host ++ [record])
  others id hid := by
    change ((t.toMachine.modifyFrame t.currentId _).modifyFrame t.currentId _).frame? id = _
    rw [Machine.frame?_modifyFrame, Machine.frame?_modifyFrame, if_neg hid.symm, if_neg hid.symm]
  room := by
    change t.stack.size ≤ (t.toMachine.growTo _).stack.size
    rw [Machine.size_growTo]
    exact Nat.le_max_left _ _

theorem reported_report_calm (t : Thread H (List HookRecord)) (event : HookEvent)
    (line : Option Int) (first count : Nat) :
    t.toMachine.Reported (t.report calm event line first count).toMachine := by
  unfold report
  by_cases hsilent : (t.hook.isSome && t.allowHook) = false
  · unfold calm
    rw [fireHook_of_silent _ hsilent]
    exact .refl t.toMachine
  · rw [Bool.not_eq_false] at hsilent
    obtain ⟨hsome, hallow⟩ := Bool.and_eq_true_iff.1 hsilent
    obtain ⟨hook, hhook⟩ := Option.isSome_iff_exists.1 hsome
    rw [fireHook_calm_of_hook hhook hallow]
    exact t.reported_noted _ first count

/-- So does the report of a return. -/
theorem reported_hookReturn_calm (t : Thread H (List HookRecord)) (results : Nat) :
    t.toMachine.Reported (t.hookReturn calm results).toMachine := by
  rw [hookReturn_eq, toMachine_backToCaller]
  split
  · exact t.reported_report_calm .ret none _ results
  · exact .refl t.toMachine

/-! ## Calls -/

/-- A function in a slot is entered without a failure. -/
theorem pushScriptFrame_of_slot {W : Type} {t : Thread H W} {proto : Proto} {func : Nat}
    {upvalues : Array Nat}
    (hslot : t.stack[func]?.bind t.function? = some (.script proto upvalues)) (flags : CallFlags) :
    t.pushScriptFrame func flags =
      (.ok t.frames.size, t.onMachine (·.enterScript proto func flags)) := by
  have hid : (t.enterScript proto func flags).currentId = t.frames.size := by
    rw [Machine.currentId, Machine.frames_enterScript, Array.size_push, Nat.add_sub_cancel]
  unfold pushScriptFrame
  simp only [hslot]
  exact congrArg (fun id => (Except.ok id, t.onMachine (·.enterScript proto func flags))) hid

/-- Enter the interpreted function in a slot, and set its extra arguments apart if it keeps them. -/
def called {W : Type} (t : Thread H W) (proto : Proto) (func : Nat) (flags : CallFlags) :
    Thread H W :=
  if proto.isVararg then
    (t.pushScriptFrame func flags).2.onMachine (·.adjustVarargs proto.paramCount)
  else (t.pushScriptFrame func flags).2

variable {t : Thread H (List HookRecord)} {proto : Proto} {func : Nat} {upvalues : Array Nat}

/-- A function that is called is in the middle of its call. -/
theorem inCall_called (hslot : t.stack[func]?.bind t.function? = some (.script proto upvalues))
    (hfunc : func < t.top) (flags : CallFlags) :
    t.toMachine.InCall func (t.called proto func flags).toMachine := by
  have hpush := congrArg Prod.snd (pushScriptFrame_of_slot hslot flags)
  have hentered := Machine.inCall_enterScript t.toMachine proto hfunc flags
  have hprogress : (t.enterScript proto func flags).current.progress? = some {} := by
    rw [Machine.current_enterScript]
    rfl
  unfold called
  rw [hpush]
  split
  · exact hentered.adjustVarargs hprogress rfl proto.paramCount
  · exact hentered

/-- A frame in the middle of its call is left as the machine leaves it. -/
theorem popFrame_calm (t : Thread H (List HookRecord)) (hid : t.currentId ≠ Machine.baseFrame)
    (results : Nat) :
    ∃ m, t.toMachine.Reported m ∧
      (t.popFrame calm results).1 = some (m.leave t.currentId results).currentId ∧
      (t.popFrame calm results).2.toMachine = m.leave t.currentId results := by
  unfold popFrame
  simp only [hid, if_false]
  split
  · exact ⟨t.toMachine, .refl _, rfl, rfl⟩
  · exact ⟨_, t.reported_hookReturn_calm results, rfl, rfl⟩

/-- **Calls and returns.**  A function is called with any number of arguments, keeping the extra ones
or not, and pushes and pops values above its base, under a hook that logs any events.  When it
returns with a number of values on top, these are where the function was, in order, and end the
stack; the caller is the current frame again; and all frames and the values below the function are as
they were before the call. -/
theorem popFrame_restores (hframes : t.frames.size ≠ 0)
    (hslot : t.stack[func]?.bind t.function? = some (.script proto upvalues)) (hfunc : func < t.top)
    (flags : CallFlags) {ops : List Machine.StackOp}
    (hstays : Machine.StaysAbove (t.called proto func flags).current.base
      (t.called proto func flags).toMachine ops) {results : Nat}
    (hresults : (t.called proto func flags).current.base + results ≤
      ((t.called proto func flags).performAll ops).top) :
    let worked := (t.called proto func flags).onMachine (·.performAll ops)
    let after := worked.popFrame calm results
    after.1 = some t.currentId ∧ after.2.top = func + results ∧
      (∀ i < results, after.2.slot (func + i) = worked.slot (worked.top - results + i)) ∧
      (∀ i < func, after.2.slot i = t.slot i) ∧
      after.2.depth = t.depth ∧ after.2.frames = t.frames := by
  intro worked after
  obtain ⟨hcall, hcurrent⟩ := (inCall_called hslot hfunc flags).performAll hstays
  have hid : worked.currentId ≠ Machine.baseFrame := by
    rw [show worked.currentId = t.frames.size from hcall.currentId]
    exact hframes
  obtain ⟨m, hreported, hfirst, hmachine⟩ := worked.popFrame_calm hid results
  obtain ⟨hreturning, hplace⟩ := hcall.of_reported hreported
  have hsame : m.currentId = worked.currentId := hreported.toUndisturbed.currentId
  have hready : m.current.base + results ≤ m.top := by
    rw [Frame.base, hplace, hcurrent, hreported.top]
    exact hresults
  have hleft := hreturning.leave hready
  rw [hsame] at hleft
  obtain ⟨hframesLeft, htop, hmoved, hbelow⟩ := hleft
  have hafter : after.2.toMachine = m.leave worked.currentId results := hmachine
  refine ⟨?_, ?_, fun i hi => ?_, fun i hi => ?_, ?_, ?_⟩
  · rw [show after.1 = _ from hfirst, Machine.currentId, hframesLeft]
    rfl
  · rw [hafter, htop]
  · rw [hafter, hmoved i hi, hreported.top, hreported.slot]
  · rw [hafter, hbelow i hi]
  · rw [Machine.depth, hafter, hframesLeft]
    rfl
  · rw [hafter, hframesLeft]

/-- A function with a parameter that keeps its extra arguments. -/
def keepingProto : Proto where
  code := #[.abc .varargPrep 1 0 0, .abc .return0 0 0 0]
  isVararg := true
  paramCount := 1
  maxStack := 3

/-- A thread in which the function runs, and is about to call itself with three arguments, under a
hook that is told about everything. -/
def keepingThread : Thread Unit (List HookRecord) :=
  let outer := ((Thread.initial []).onMachine fun m =>
    (m.register (.script keepingProto #[])).push (.function 0)).called keepingProto 1 {}
  (outer.onMachine fun m =>
    m.pushAll [.function 0, .integer 1, .integer 2, .integer 3]).setHook (some ())
      { call := true, ret := true, line := true, count := true } 1

/-- What the function does with its stack. -/
def keepingOps : List Machine.StackOp :=
  [.push (.string "x"), .pop, .push (.string "y"), .push (.string "z")]

/-- The thread before the function that was called in slot 5 returns. -/
def keepingReturn : Thread Unit (List HookRecord) :=
  (keepingThread.called keepingProto 5 {}).onMachine (·.performAll keepingOps)

/-- The function was moved up by four slots and leaves two results, which go where it was found. -/
theorem popFrame_restores_moved :
    keepingReturn.current.func = 9 ∧ keepingReturn.top = 13 ∧
      (keepingReturn.popFrame calm 2).1 = some 1 ∧
      (keepingReturn.popFrame calm 2).2.top = 7 ∧
      (keepingReturn.popFrame calm 2).2.slot 5 = .string "y" ∧
      (keepingReturn.popFrame calm 2).2.slot 6 = .string "z" ∧
      (∀ i < 5, (keepingReturn.popFrame calm 2).2.slot i = keepingThread.slot i) ∧
      (keepingReturn.popFrame calm 2).2.depth = keepingThread.depth ∧
      (keepingReturn.popFrame calm 2).2.frames = keepingThread.frames ∧
      (keepingReturn.popFrame calm 2).2.host.map HookRecord.event = [.ret] := by
  have hframes : keepingThread.frames.size ≠ 0 := by decide +kernel
  have hvalue : keepingThread.stack[5]? = some (.function 0) := by decide +kernel
  have hslot : keepingThread.stack[5]?.bind keepingThread.function? =
      some (.script keepingProto #[]) := by
    rw [hvalue]
    rfl
  have hfunc : 5 < keepingThread.top := by decide +kernel
  have hstays : Machine.StaysAbove (keepingThread.called keepingProto 5 {}).current.base
      (keepingThread.called keepingProto 5 {}).toMachine keepingOps := by decide +kernel
  have hresults : (keepingThread.called keepingProto 5 {}).current.base + 2 ≤
      ((keepingThread.called keepingProto 5 {}).performAll keepingOps).top := by decide +kernel
  have hreturn := popFrame_restores hframes hslot hfunc {} hstays hresults
  have hid : keepingThread.currentId = 1 := by decide +kernel
  have hplace : keepingReturn.current.func = 9 ∧ keepingReturn.top = 13 := by decide +kernel
  have hvalues : keepingReturn.slot 11 = .string "y" ∧ keepingReturn.slot 12 = .string "z" := by
    decide +kernel
  have hlogged : (keepingReturn.popFrame calm 2).2.host.map HookRecord.event = [.ret] := by
    decide +kernel
  rw [← keepingReturn, hid] at hreturn
  obtain ⟨hcaller, htop, hmoved, hbelow, hdepth, hsame⟩ := hreturn
  rw [hplace.2] at hmoved
  have hfirst := (hmoved 0 (by decide)).trans hvalues.1
  have hsecond := (hmoved 1 (by decide)).trans hvalues.2
  exact ⟨hplace.1, hplace.2, hcaller, htop, hfirst, hsecond, hbelow, hdepth, hsame, hlogged⟩

end Thread

end VmInspect
