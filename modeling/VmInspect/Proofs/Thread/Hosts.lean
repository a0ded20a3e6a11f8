import VmInspect.Proofs.Thread.Watching

/-!
# What a callback keeps

A callback keeps something beside the thread, and the thread never looks at it.  So when two callbacks
do the same to a thread, and a map takes what the first one keeps to what the second one keeps, then
the map takes whole runs under the first callback to runs under the second one:

* `Thread.Follows` — the second callback does what the first one does, seen through a map.
* `Thread.fireHook_mapHost`, `Thread.traceExec_mapHost`, `Thread.popFrame_mapHost` — reports, looks at
  instructions and returns agree.
* `Thread.runFrom_mapHost` — so do runs.
* `Thread.host_runFrom_noting` — a callback that only takes notes has the notes of before at the end of a
  run, followed by others.
-/

namespace VmInspect

variable {H W W' : Type}

/-- A run seen through a map of what the callback keeps. -/
def Run.mapThread (r : Run H W) (g : Thread H W → Thread H W') : Run H W' :=
  ⟨g r.thread, r.executed, r.ending⟩

namespace Thread

/-- A thread seen through a map of what the callback keeps. -/
def mapHost (f : W → W') (t : Thread H W) : Thread H W' := { t with host := f t.host }

/-- The second callback does what the first one does, seen through a map of what they keep. -/
def Follows (f : W → W') (run : Callback H W) (run' : Callback H W') : Prop :=
  ∀ hook record t,
    run' hook record (t.mapHost f) = ((run hook record t).1, (run hook record t).2.mapHost f)

section Steps

variable (f : W → W') (t : Thread H W)

@[simp] theorem toMachine_mapHost : (t.mapHost f).toMachine = t.toMachine := rfl

@[simp] theorem host_mapHost : (t.mapHost f).host = f t.host := rfl

@[simp] theorem mask_mapHost : (t.mapHost f).mask = t.mask := rfl

@[simp] theorem suspended_mapHost : (t.mapHost f).suspended = t.suspended := rfl

@[simp] theorem onFrame_mapHost (id : Nat) (change : Frame → Frame) :
    (t.mapHost f).onFrame id change = (t.onFrame id change).mapHost f := rfl

@[simp] theorem onMachine_mapHost (change : Machine → Machine) :
    (t.mapHost f).onMachine change = (t.onMachine change).mapHost f := rfl

@[simp] theorem charged_mapHost (pc : Nat) :
    (t.mapHost f).charged pc = (t.charged pc).mapHost f := rfl

theorem backToCaller_mapHost (id : Nat) :
    (t.mapHost f).backToCaller id = (t.backToCaller id).mapHost f := by
  unfold backToCaller
  rw [toMachine_mapHost]
  split <;> rfl

theorem protectWindow_mapHost (proto : Proto) (pc : Nat) :
    (t.mapHost f).protectWindow proto pc = (t.protectWindow proto pc).mapHost f := by
  unfold protectWindow
  split <;> rfl

theorem afterEvents_mapHost (id : Nat) (countDue : Bool) :
    (t.mapHost f).afterEvents id countDue =
      ((t.afterEvents id countDue).1, (t.afterEvents id countDue).2.mapHost f) := by
  unfold afterEvents
  rw [suspended_mapHost]
  split
  · split <;> rfl
  · rfl

end Steps

variable {f : W → W'} {run : Callback H W} {run' : Callback H W'}

/-! ## Reports -/

theorem fireHook_mapHost (h : Follows f run run') (t : Thread H W) (event : HookEvent)
    (line : Option Int) (first count : Nat) :
    (t.mapHost f).fireHook run' event line first count =
      ((t.fireHook run event line first count).1,
        (t.fireHook run event line first count).2.mapHost f) := by
  unfold fireHook
  cases hhook : t.hook with
  | none =>
    have hnone : (t.mapHost f).hook = none := hhook
    simp only [hnone]
  | some hook =>
    have hsome : (t.mapHost f).hook = some hook := hhook
    have hallow : (t.mapHost f).allowHook = t.allowHook := rfl
    have hready : (t.mapHost f).beginReport first count = (t.beginReport first count).mapHost f := rfl
    have htold := h hook ⟨event, line, t.currentId⟩ (t.beginReport first count)
    simp only [hsome, hallow, hready, htold, toMachine_mapHost]
    split
    · split <;> rfl
    · rfl

theorem report_mapHost (h : Follows f run run') (t : Thread H W) (event : HookEvent)
    (line : Option Int) (first count : Nat) :
    (t.mapHost f).report run' event line first count =
      (t.report run event line first count).mapHost f :=
  congrArg Prod.snd (fireHook_mapHost h t event line first count)

theorem hookCall_mapHost (h : Follows f run run') (t : Thread H W) (id : Nat) :
    (t.mapHost f).hookCall run' id = (t.hookCall run id).mapHost f := by
  cases hf : t.frame? id with
  | none =>
    rw [hookCall_of_no_frame _ hf, hookCall_of_no_frame _ (t := t.mapHost f) hf]
    rfl
  | some frame =>
    by_cases hcall : t.mask.call = true
    · rw [hookCall_of_selected _ hf hcall, hookCall_of_selected _ (t := t.mapHost f) hf hcall]
      exact congrArg (fun t => t.onFrame id (·.setSavedPc (frame.savedPc?.getD 0)))
        (report_mapHost h (({ t with oldPc := 0 } : Thread H W).onFrame id
          (·.setSavedPc (frame.savedPc?.getD 0 + 1))) _ none 1 _)
    · rw [Bool.not_eq_true] at hcall
      rw [hookCall_of_not_selected _ hcall, hookCall_of_not_selected _ (t := t.mapHost f) hcall]
      rfl

theorem hookReturn_mapHost (h : Follows f run run') (t : Thread H W) (results : Nat) :
    (t.mapHost f).hookReturn run' results = (t.hookReturn run results).mapHost f := by
  rw [hookReturn_eq, hookReturn_eq, ← backToCaller_mapHost, mask_mapHost, toMachine_mapHost]
  split
  · rw [report_mapHost h]
  · rfl

theorem hookVarargPrep_mapHost (h : Follows f run run') (t : Thread H W) :
    (t.mapHost f).hookVarargPrep run' = (t.hookVarargPrep run).mapHost f := by
  unfold hookVarargPrep
  rw [toMachine_mapHost, hookCall_mapHost h]
  split <;> rfl

theorem popFrame_mapHost (h : Follows f run run') (t : Thread H W) (results : Nat) :
    (t.mapHost f).popFrame run' results =
      ((t.popFrame run results).1, (t.popFrame run results).2.mapHost f) := by
  unfold popFrame
  rw [toMachine_mapHost, mask_mapHost, hookReturn_mapHost h]
  by_cases hbase : t.currentId = Machine.baseFrame
  · simp only [hbase, if_true]
  · by_cases hempty : t.mask.isEmpty = true
    · simp only [hbase, if_false, hempty, if_true]
      rfl
    · simp only [hbase, if_false, hempty]
      rfl

theorem reportCount_mapHost (h : Follows f run run') (t : Thread H W) (countDue : Bool) :
    (t.mapHost f).reportCount run' countDue = (t.reportCount run countDue).mapHost f := by
  unfold reportCount
  split
  · exact report_mapHost h t .count none 0 0
  · rfl

theorem reportLine_mapHost (h : Follows f run run') (t : Thread H W) (proto : Proto) (pc : Nat) :
    (t.mapHost f).reportLine run' proto pc = (t.reportLine run proto pc).mapHost f := by
  have hbegins : (t.mapHost f).beginsLine proto pc = t.beginsLine proto pc := rfl
  unfold reportLine
  rw [hbegins, report_mapHost h]
  split <;> rfl

theorem reportEvents_mapHost (h : Follows f run run') (t : Thread H W) (proto : Proto) (pc : Nat)
    (mask : HookMask) (countDue : Bool) :
    (t.mapHost f).reportEvents run' proto pc mask countDue =
      (t.reportEvents run proto pc mask countDue).mapHost f := by
  rw [reportEvents_eq, reportEvents_eq, protectWindow_mapHost, reportCount_mapHost h,
    reportLine_mapHost h]
  split <;> rfl

theorem traceExec_mapHost (h : Follows f run run') (t : Thread H W) (pc : Nat) :
    (t.mapHost f).traceExec run' pc =
      ((t.traceExec run pc).1, (t.traceExec run pc).2.mapHost f) := by
  cases hproto : t.frameProto? t.currentId with
  | none => rw [traceExec_of_no_proto _ _ hproto, traceExec_of_no_proto _ (t.mapHost f) hproto]
  | some proto =>
    by_cases hwatch : t.mask.watchesInstructions = true
    · rw [traceExec_eq _ _ hproto hwatch, traceExec_eq _ (t.mapHost f) hproto hwatch,
        charged_mapHost, reportEvents_mapHost h, afterEvents_mapHost]
      have hdue : (t.mapHost f).countIsDue = t.countIsDue := rfl
      simp only [hdue, mask_mapHost, toMachine_mapHost]
      split
      · rfl
      · split <;> rfl
    · rw [Bool.not_eq_true] at hwatch
      rw [traceExec_of_unwatched _ _ hproto hwatch,
        traceExec_of_unwatched _ (t.mapHost f) hproto hwatch]
      rfl

theorem watch_mapHost (h : Follows f run run') (t : Thread H W) (trap : Bool) (pc : Nat) :
    (t.mapHost f).watch run' trap pc =
      ((t.watch run trap pc).1, (t.watch run trap pc).2.mapHost f) := by
  unfold watch
  split
  · exact traceExec_mapHost h t pc
  · rfl

/-! ## Runs -/

theorem prepareVarargs_mapHost (h : Follows f run run') (t : Thread H W) (id pc : Nat)
    (i : Instruction) :
    (t.mapHost f).prepareVarargs run' id pc i =
      ((t.prepareVarargs run id pc i).1, (t.prepareVarargs run id pc i).2.mapHost f) := by
  unfold prepareVarargs
  simp only [onFrame_mapHost, onMachine_mapHost, hookVarargPrep_mapHost h, toMachine_mapHost]

theorem execute_mapHost (h : Follows f run run') (t : Thread H W) (id pc : Nat) (trap : Bool)
    (i : Instruction) :
    (t.mapHost f).execute run' id pc trap i =
      ((t.execute run id pc trap i).1, (t.execute run id pc trap i).2.mapHost f) := by
  unfold execute
  by_cases hop : i.opcode = .varargPrep
  · simp only [hop, if_true, prepareVarargs_mapHost h, onFrame_mapHost]
  · simp only [hop, if_false, onFrame_mapHost]

theorem returnFrom_mapHost (h : Follows f run run') (t : Thread H W) (id pc : Nat) :
    (t.mapHost f).returnFrom run' id pc = (t.returnFrom run id pc).mapHost f :=
  congrArg Prod.snd (popFrame_mapHost h (t.onFrame id (·.setSavedPc (pc + 1))) 0)

/-- The run lemma: runs agree step by step. -/
theorem runFrom_mapHost (h : Follows f run run') (proto : Proto) (id : Nat) (steps : Nat)
    (trap : Bool) (t : Thread H W) :
    runFrom run' proto id steps trap (t.mapHost f) =
      (runFrom run proto id steps trap t).mapThread (mapHost f) := by
  induction steps generalizing trap t with
  | zero => rfl
  | succ steps ih =>
    unfold runFrom
    simp only [toMachine_mapHost]
    cases proto.code[((t.frame? id).bind Frame.savedPc?).getD 0]? with
    | none => rfl
    | some i =>
      simp only [watch_mapHost h]
      rcases t.watch run trap (((t.frame? id).bind Frame.savedPc?).getD 0) with ⟨failure | b, t'⟩
      · rfl
      · simp only
        by_cases hret : isReturn i = true
        · simp only [hret, if_true, returnFrom_mapHost h]
          rfl
        · simp only [hret, Bool.false_eq_true, if_false, execute_mapHost h, ih]
          rfl

/-! ## Callbacks that take notes -/

/-- A callback that notes something about each event and never suspends. -/
def noting {N : Type} (note : HookRecord → Machine → N) : Callback H (List N) :=
  fun _ record t => (.proceed, { t with host := t.host ++ [note record t.toMachine] })

variable {N : Type}

/-- A callback that notes less. -/
theorem follows_noting {N' : Type} (note : HookRecord → Machine → N) (g : N → N') :
    Follows (H := H) (List.map g) (noting note) (noting fun record m => g (note record m)) := by
  intro hook record t
  unfold noting mapHost
  simp only [List.map_append, List.map_cons, List.map_nil]

/-- Notes that were taken before do not matter. -/
theorem follows_noting_append (note : HookRecord → Machine → N) (earlier : List N) :
    Follows (H := H) (earlier ++ ·) (noting note) (noting note) := by
  intro hook record t
  unfold noting mapHost
  simp only [List.append_assoc]

/-- The notes of a run come after those of before. -/
theorem host_runFrom_noting (note : HookRecord → Machine → N) (proto : Proto) (id steps : Nat)
    (trap : Bool) (t : Thread H (List N)) :
    ∃ later, (runFrom (noting note) proto id steps trap t).thread.host = t.host ++ later := by
  have hsame : t = ({ t with host := [] } : Thread H (List N)).mapHost (t.host ++ ·) := by
    unfold mapHost
    simp only [List.append_nil]
  have hruns := runFrom_mapHost (follows_noting_append note t.host) proto id steps trap
    { t with host := [] }
  rw [← hsame] at hruns
  rw [hruns]
  exact ⟨_, rfl⟩

end Thread

end VmInspect
