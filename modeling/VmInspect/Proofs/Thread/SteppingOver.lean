import VmInspect.Proofs.Thread.Callees
import VmInspect.Proofs.Thread.Parts

/-!
# Stepping over calls

A debugger steps over a call by letting the callee run to its return before it goes on with the caller.
The callee looks at lines of its own, and the caller is run once more after it.  This file proves that
the lines of the caller are the same as if nothing had been called:

* `Thread.RunsOn` — a frame runs on for a number of steps, and wherever it has executed a call, a
  function may be called and left again.
* `Thread.Reached.calls` — a caller is where it was when the callee is left.
* `Thread.linesOf_runsOn` — so its line events are those of a run at a stretch.
-/

namespace VmInspect

namespace Thread

variable {H : Type} {t t' u : Thread H (List HookRecord)} {proto : Proto} {id pc steps : Nat}
  {trap : Bool}

/-! ## The lines of a frame -/

/-- The line events of a frame in a log. -/
def linesOf (id : Nat) (log : List HookRecord) : List HookRecord :=
  (lineEvents log).filter fun r => r.frame == id

/-- What is logged for other frames does not matter. -/
theorem linesOf_adds (h : t.Adds (fun r => id < r.frame) t') :
    linesOf id t'.host = linesOf id t.host := by
  obtain ⟨records, hlog, hall⟩ := h.log
  have hnone : linesOf id records = [] := by
    refine List.filter_eq_nil_iff.2 fun r hr => ?_
    have hframe := hall r (List.mem_filter.1 hr).1
    rw [beq_iff_eq]
    exact Nat.ne_of_gt hframe
  rw [hlog, linesOf, lineEvents_append, List.filter_append]
  exact (congrArg (linesOf id t.host ++ ·) hnone).trans (List.append_nil _)

/-- Threads that had the same lines of a frame have them again when the same lines are added. -/
theorem linesOf_eq_of_append {records : List HookRecord} {s s' : Thread H (List HookRecord)}
    (hsame : linesOf id s.host = linesOf id t.host)
    (hs : lineEvents s'.host = lineEvents s.host ++ records)
    (ht : lineEvents t'.host = lineEvents t.host ++ records) :
    linesOf id s'.host = linesOf id t'.host := by
  rw [linesOf, hs, List.filter_append, linesOf, ht, List.filter_append]
  exact congrArg (· ++ records.filter fun r => r.frame == id) hsame

/-! ## Calls in the middle of a run -/

/-- The current frame runs on for a number of steps.  Wherever the last instruction that it has executed
is a call it may be run once more, and a function may be called and left again before that. -/
inductive RunsOn (proto : Proto) : Nat → Thread H (List HookRecord) → Thread H (List HookRecord) → Prop
    where
  | run (steps : Nat) (t : Thread H (List HookRecord)) :
      RunsOn proto steps t (t.runFrame calm steps).thread
  | overCall {steps rest pc : Nat} {i : Instruction} {t u t' : Thread H (List HookRecord)}
      (hlast : (t.runFrame calm steps).executed.getLast? = some pc)
      (hi : proto.code[pc]? = some i) (hop : i.opcode = .call)
      (hcallee : u = (t.runFrame calm steps).thread ∨ (t.runFrame calm steps).thread.Calls u)
      (hrest : RunsOn proto rest u t') : RunsOn proto (steps + rest) t t'

/-! ## The caller when the callee is left -/

namespace Reached

/-- A caller that has put a function and its arguments on the stack is where it was. -/
theorem works (h : t.Reached proto id trap pc) {m : Machine} (hwork : t.toMachine.WorksAbove m) :
    ({ t with toMachine := m } : Thread H (List HookRecord)).Reached proto id trap pc ∧
      m.frame? id = t.frame? id ∧ m.frameProto? id = t.frameProto? id := by
  obtain rfl := h.runs.current
  have hframe := hwork.frame? t.currentId
  have hproto := hwork.frameProto?
  have hplace : ({ t with toMachine := m } : Thread H (List HookRecord)).nextPc t.currentId =
      t.nextPc t.currentId := by
    rw [nextPc, nextPc]
    exact congrArg (fun f => (Option.bind f Frame.savedPc?).getD 0) hframe
  refine ⟨⟨⟨hwork.currentId, ?_, ?_, h.runs.awake⟩, ?_, ?_⟩, hframe, hproto⟩
  · obtain ⟨f, p, hf, hp, htrap⟩ := h.runs.frame
    exact ⟨f, p, hframe.trans hf, hp, htrap⟩
  · intro q hq
    exact h.runs.proto q (hproto.symm.trans hq)
  · rw [hplace]
    exact h.past
  · rcases h.heard with hlost | ⟨htrap, hlistens, hold⟩
    · exact Or.inl (hproto.trans hlost)
    · refine Or.inr ⟨htrap, ⟨hproto.trans hlistens.proto, hlistens.hook, hlistens.line, ?_⟩, hold⟩
      intro f hf
      exact hlistens.unmarked f (hframe.symm.trans hf)

/-- A caller is where it was when the callee is left. -/
theorem afterCallee (h : t.Reached proto t.currentId trap pc) (hnext : t.nextPc t.currentId = pc + 1)
    {slot : Nat} (habove : t.current.func < slot) (ha : t.AfterCallee slot u) :
    u.Reached proto t.currentId trap pc ∧ u.nextPc t.currentId = pc + 1 ∧
      u.frameProto? t.currentId = t.frameProto? t.currentId := by
  obtain ⟨f, p, hf, hp, htrap⟩ := h.runs.frame
  obtain ⟨g, hg, heq⟩ := ha.back.exists_frame hf
  have hfunc : f.func < slot := by
    rw [← Machine.current_eq hf]
    exact habove
  have hproto : u.frameProto? t.currentId = t.frameProto? t.currentId := ha.back.frameProto? hf hfunc
  have hprogress : g.progress? = some p := by
    rw [Frame.progress?, (Frame.eq_of_unreported_eq heq).2.1]
    exact hp
  have hsaved : p.savedPc = pc + 1 := by
    rw [nextPc, hf, Option.bind_some, Frame.savedPc?, hp] at hnext
    exact hnext
  have hplace : u.nextPc t.currentId = pc + 1 := by
    rw [nextPc, hg, Option.bind_some, Frame.savedPc?, hprogress, ← hsaved]
    rfl
  refine ⟨⟨⟨ha.back.currentId, ⟨g, p, hg, hprogress, htrap⟩, ?_, ?_⟩, ?_, ?_⟩, hplace, hproto⟩
  · intro q hq
    exact h.runs.proto q (hproto.symm.trans hq)
  · rw [ha.adds.suspended]
    exact h.runs.awake
  · rw [hplace]
    exact fun _ => Nat.succ_ne_zero pc
  · rcases h.heard with hlost | ⟨htrue, hlistens, -⟩
    · exact Or.inl (hproto.trans hlost)
    · have hold : u.oldPc = p.savedPc - 1 := ha.oldPc (isEmpty_of_line hlistens.line) f p hf hp
      refine Or.inr ⟨htrue, ⟨hproto.trans hlistens.proto, ha.adds.hears hlistens.hook, ?_, ?_⟩, ?_⟩
      · rw [ha.adds.mask]
        exact hlistens.line
      · intro g' hg'
        obtain rfl := Option.some.inj (hg.symm.trans hg')
        rw [(Frame.eq_of_unreported_eq heq).2.2]
        exact hlistens.unmarked f hf
      · rw [hold, hsaved, Nat.add_sub_cancel]

/-- **Callers.**  When a callee is left, its caller is where it was, and none of its lines was reported
meanwhile. -/
theorem calls (h : t.Reached proto id trap pc) (hnext : t.nextPc id = pc + 1) (hcalls : t.Calls u) :
    u.Reached proto id trap pc ∧ u.nextPc id = pc + 1 ∧ u.frameProto? id = t.frameProto? id ∧
      linesOf id u.host = linesOf id t.host := by
  cases hcalls with
  | @call m slot entered u hwork henters hcallee =>
    obtain ⟨hready, hframe, hproto⟩ := h.works hwork
    obtain ⟨s, hs⟩ : ∃ s, ({ t with toMachine := m } : Thread H (List HookRecord)) = s := ⟨_, rfl⟩
    have hlog : s.host = t.host := by rw [← hs]
    have hplace : s.nextPc id = pc + 1 := by
      rw [← hnext, ← hs, nextPc, nextPc]
      exact congrArg (fun f => (Option.bind f Frame.savedPc?).getD 0) hframe
    have hsame : s.frameProto? id = t.frameProto? id := by
      rw [← hs]
      exact hproto
    rw [hs] at hready henters
    obtain rfl := hready.runs.current
    have hcaller : s.frames.size ≠ 0 := by
      obtain ⟨f, -, hf, -, -⟩ := hready.runs.frame
      exact Nat.ne_of_gt (Nat.zero_lt_of_lt (Array.getElem?_eq_some_iff.1 hf).1)
    have hafter := hcallee.afterCallee (henters.inCallee hcaller)
    obtain ⟨hreached, hgoes, hkept⟩ := hready.afterCallee hplace henters.above hafter
    refine ⟨hreached, hgoes, hkept.trans hsame, ?_⟩
    rw [linesOf_adds hafter.adds, hlog]

end Reached

/-! ## Stepping over -/

/-- The lines ahead follow from the places and the function of the frame. -/
theorem Reached.linesAhead_eq (h : t.Reached proto id trap pc) {trap' : Bool}
    (h' : u.Reached proto id trap' pc) (hnext : u.nextPc id = t.nextPc id)
    (hproto : u.frameProto? id = t.frameProto? id) (steps : Nat) :
    u.linesAhead proto id steps = t.linesAhead proto id steps := by
  rw [linesAhead, linesAhead, hproto, hnext]
  rcases h.heard with hlost | ⟨-, -, hold⟩
  · rw [hlost]
    rfl
  · rcases h'.heard with hlost | ⟨-, -, hold'⟩
    · rw [← hproto, hlost]
      rfl
    · rw [hold, hold']

/-- **Stepping over calls.**  A function is run, or run on, under a hook that logs and is told about
lines, for a number of steps in any number of parts.  Between two parts, where it has executed a call, a
native function or a function of any kind may be called, which may itself call functions, run in
parts and keep extra arguments, and is left again.  The line events of the caller are those of a run
for as many steps at a stretch, in the same order. -/
theorem linesOf_runsOn (h : t.Watchful proto) (hshape : proto.PreparesOnce)
    (hruns : RunsOn proto steps t t') :
    linesOf t.currentId t'.host = linesOf t.currentId (t.runFrame calm steps).thread.host := by
  -- a caller may have lost its function by the time that it is run on
  replace h : t.frameProto? t.currentId = none ∨ t.Watchful proto := Or.inr h
  induction hruns with
  | run steps t => rfl
  | @overCall steps rest pc i t u t' hlast hi hop hcallee hrest ih =>
    rcases h with hlost | hwatchful
    · rw [runFrame_of_no_proto _ hlost] at hlast
      cases hlast
    · obtain ⟨b, hreached, hnext, hadd⟩ := hwatchful.runFrame_add hshape hlast hi hop
      obtain ⟨r, hr⟩ : ∃ r, (t.runFrame calm steps).thread = r := ⟨_, rfl⟩
      rw [hr] at hreached hnext hcallee
      obtain ⟨hback, hplace, hproto, hlines⟩ : u.Reached proto t.currentId b pc ∧
          u.nextPc t.currentId = pc + 1 ∧ u.frameProto? t.currentId = r.frameProto? t.currentId ∧
          linesOf t.currentId u.host = linesOf t.currentId r.host := by
        rcases hcallee with rfl | hcalls
        · exact ⟨hreached, hnext, rfl, rfl⟩
        · exact hreached.calls hnext hcalls
      have honward : u.nextPc t.currentId ≠ 0 := by
        rw [hplace]
        exact Nat.succ_ne_zero pc
      have hid : u.currentId = t.currentId := hback.runs.current
      have hahead := hreached.linesAhead_eq hback (hplace.trans hnext.symm) hproto rest
      have hparts := ih (hback.watchful honward)
      have hagain : lineEvents (u.runFrame calm rest).thread.host =
          lineEvents u.host ++ u.linesAhead proto t.currentId rest := by
        rw [← hid] at hback honward ⊢
        exact hback.lineEvents_runFrame hshape honward rest
      rw [hahead] at hagain
      rw [hid] at hparts
      rw [hparts, hadd, hr]
      exact linesOf_eq_of_append hlines hagain (hreached.lineEvents_runFrom hshape rest)

/-- A function that keeps extra arguments and calls twice. -/
def callerProto : Proto :=
  (((Builder.empty.withVararg.withParams 1).withLines 10 13).emitAll
    [(.abc .varargPrep 1 0 0, 10), (.abc .call 0 1 1, 11), (.abc .move 0 1 0, 11),
      (.abc .call 0 1 1, 12), (.abc .move 0 1 0, 13), (.abc .return0 0 0 0, 13)]).build

/-- A function that keeps extra arguments and calls once. -/
def calleeProto : Proto :=
  ((Builder.empty.withVararg.withLines 20 22).emitAll
    [(.abc .varargPrep 0 0 0, 20), (.abc .call 0 1 1, 21), (.abc .return0 0 0 0, 22)]).build

/-- A thread with these functions and a native one.  The first one lies in slot 1 with an argument. -/
def stackedThread : Thread Unit (List HookRecord) :=
  (Thread.initial []).onMachine fun m =>
    (((m.register (.script callerProto #[])).register (.script calleeProto #[])).register
      (.native "print" 0)).pushAll [.function 0, .nil]

/-- The first function was entered, under a hook that is told about everything. -/
def callingThread : Thread Unit (List HookRecord) :=
  stackedThread.enter 1 {} () { call := true, ret := true, line := true, count := true } 3

/-- It has executed its first call, and the second function lies in slot 6 with two arguments. -/
def outerCall : Thread Unit (List HookRecord) :=
  (callingThread.runFrame calm 2).thread.onMachine
    (·.pushAll [.function 1, .integer 1, .integer 2])

/-- The second function has executed its call, and the native one lies in slot 12. -/
def innerCall : Thread Unit (List HookRecord) :=
  ((outerCall.pushScriptFrame 6 {}).2.runFrame calm 2).thread.onMachine (·.pushAll [.function 2])

/-- The native function was left, and the second one has returned. -/
def callingThreadBack : Thread Unit (List HookRecord) :=
  (((innerCall.pushNativeFrame calm 12).2.popFrame calm 0).2.runFrame calm 9).thread

/-- The first function calls the second one, which calls the native one. -/
theorem calls_callingThread : (callingThread.runFrame calm 2).thread.Calls callingThreadBack := by
  have houter : (callingThread.runFrame calm 2).thread.toMachine.WorksAbove
      outerCall.toMachine :=
    Machine.worksAbove_pushAll (by decide +kernel) [.function 1, .integer 1, .integer 2]
  have hcallee : outerCall.stack[6]?.bind outerCall.function? = some (.script calleeProto #[]) := rfl
  have hscript : outerCall.EntersCallee 6 (outerCall.pushScriptFrame 6 {}).2 :=
    .script {} hcallee (by decide +kernel) (by decide +kernel)
  have hinner : ((outerCall.pushScriptFrame 6 {}).2.runFrame calm 2).thread.toMachine.WorksAbove
      innerCall.toMachine :=
    Machine.worksAbove_pushAll (by decide +kernel) [.function 2]
  have hprint : innerCall.stack[12]?.bind innerCall.function? = some (.native "print" 0) := rfl
  have hnative : innerCall.EntersCallee 12 (innerCall.pushNativeFrame calm 12).2 :=
    .native hprint (by decide +kernel) (by decide +kernel)
  have hreturns : (((innerCall.pushNativeFrame calm 12).2.popFrame calm 0).2.runFrame calm 9).ending =
      .returned := by
    decide +kernel
  exact .call houter hscript
    (.runs 2 (by decide +kernel) (.works hinner (.calls hnative (.left _ 0) (.returns 9 hreturns))))

/-- The first function is run in three parts.  It calls another one after the first part and nothing
after the second.  The lines of both functions are logged, and those of the first one are the same as
if it was run at a stretch. -/
theorem linesOf_runsOn_nested :
    let t := ((callingThreadBack.runFrame calm 2).thread.runFrame calm 9).thread
    (lineEvents t.host).map (fun r => (r.frame, r.line)) =
        [(1, some 11), (2, some 21), (2, some 22), (1, some 12), (1, some 13)] ∧
      linesOf callingThread.currentId t.host =
        linesOf callingThread.currentId (callingThread.runFrame calm 13).thread.host := by
  intro t
  have hslot : stackedThread.stack[1]?.bind stackedThread.function? =
      some (.script callerProto #[]) := rfl
  have hlistens : callingThread.EntersListening callerProto :=
    entersListening_enter hslot (by decide) rfl rfl rfl () rfl 3
  have hshape : callerProto.PreparesOnce := ⟨by decide, by decide, by decide⟩
  have hfirst : (callingThread.runFrame calm 2).executed.getLast? = some 1 := by decide +kernel
  have hsecond : (callingThreadBack.runFrame calm 2).executed.getLast? = some 3 := by decide +kernel
  have hrest : RunsOn callerProto 11 callingThreadBack t :=
    .overCall (i := .abc .call 0 1 1) hsecond rfl rfl (Or.inl rfl) (.run 9 _)
  have hruns : RunsOn callerProto 13 callingThread t :=
    .overCall (i := .abc .call 0 1 1) hfirst rfl rfl (Or.inr calls_callingThread) hrest
  exact ⟨by decide +kernel, linesOf_runsOn (.of_entersListening hlistens) hshape hruns⟩

end Thread

end VmInspect
