import VmInspect.Proofs.Thread.Counting
import VmInspect.Proofs.Thread.Observation

/-!
# The count events of a run

This file follows a function from the moment a hook that is told about counts was installed in the frame
that it was just entered in:

* `Thread.Enters.counted` — the hook has its whole budget left.
* `Thread.EntersCounted.begins_plain` — a function without extra arguments is looked at from its first
  instruction on.
* `Thread.EntersCounted.begins_vararg` — otherwise the first instruction sets the extra arguments
  apart, and is not counted.
* `Thread.runFrame_countEvents` — a count is reported at the instructions that have a multiple of the
  budget as their number, before their line, and at no other; and there are none in a function that loses
  itself.
-/

namespace VmInspect

namespace Thread

variable {H : Type} {proto : Proto} {n k : Nat}

/-! ## Calls that are reported -/

variable {t : Thread H (List Stamp)}

/-- While a call is reported, nothing is charged to the budget. -/
theorem hookCall_stamping (t : Thread H (List Stamp)) (j : Nat) :
    (t.hookCall stamping j).mask = t.mask ∧
      (t.Budgeted n k → (t.hookCall stamping j).Budgeted n k) := by
  have hadds : Adds _ t.unstamped (t.hookCall stamping j).unstamped :=
    follows_stamping.adds_hookCall t j
  obtain ⟨-, hbudget, hleft⟩ := (t.unstamped.hookCall_calm j).settings
  rw [unstamped, hookCall_mapHost follows_stamping] at hbudget hleft
  exact ⟨hadds.mask, fun h => Budgeted.unstamped_iff.1
    ((Budgeted.unstamped_iff.2 h).of_adds hadds hbudget hleft)⟩

/-- Nor is the frame marked, or its function lost. -/
theorem Carries.hookCall_stamping {mark : Bool} (h : t.Carries proto mark) (j : Nat) :
    (t.hookCall stamping j).Carries proto mark := by
  have hcalm : ({ t.unstamped with oldPc := 0 } : Thread H (List HookRecord)).Carries proto mark :=
    ⟨h.proto, h.frame⟩
  have hafter := hcalm.of_reports (t.unstamped.hookCall_calm j)
  rw [unstamped, hookCall_mapHost follows_stamping] at hafter
  exact ⟨hafter.proto, hafter.frame⟩

/-! ## Beginnings -/

/-- The first instruction of a function with extra arguments sets them apart, and the next one is looked
at, unless the function gets lost. -/
theorem Enters.execute_varargPrep (h : t.Enters proto) {i : Instruction}
    (hop : i.opcode = .varargPrep) :
    ∃ u, (t.onFrame t.currentId (·.setTrap true)).execute stamping t.currentId 0 false i = (true, u) ∧
      u.Runs proto t.currentId true ∧ u.nextPc t.currentId = 1 ∧
      (t.above t.current.func < i.a → u.frameProto? t.currentId = none) := by
  obtain ⟨f, p, hf, -, -⟩ := h.frame
  have hplace : t.current.func = f.func := by rw [Machine.current_eq hf]
  have hbelow : f.func < t.top := hplace ▸ h.below
  obtain ⟨s, hs⟩ : ∃ s, t.onFrame t.currentId (·.setTrap true) = s := ⟨_, rfl⟩
  have hframe : s.frame? t.currentId = some (f.setTrap true) := by
    rw [← hs, frame?_onFrame_self, hf, Option.map_some]
  have hruns : s.unstamped.Runs proto t.currentId true := (runs_mapHost _).2 (hs ▸ h.marked.1)
  have htop : s.unstamped.top = t.top := by
    rw [← hs]
    rfl
  -- what becomes of the frame is read off from the same instruction under a hook that logs
  obtain ⟨v, hprepare, hv, -, -, hlost, -⟩ :=
    hruns.prepareVarargs_marked hframe (htop ▸ hbelow) 0 i
  rw [unstamped, prepareVarargs_mapHost follows_stamping] at hprepare
  obtain ⟨htrap, rfl⟩ := Prod.mk.inj hprepare
  have hready := (runs_mapHost _).1 hv
  refine ⟨_, ?_, hready.setSavedPc 1, hready.nextPc_setSavedPc 1, fun hless => ?_⟩
  · rw [hs]
    unfold execute
    simp only [hop, if_true, htrap]
    rfl
  · rw [frameProto?_setSavedPc]
    refine hlost ?_
    rw [Machine.above, htop]
    rw [hplace] at hless
    exact hless

/-- A frame that was entered runs its function, and is not marked if it was not suspended before. -/
theorem Enters.carries {W : Type} {t : Thread H W} (h : t.Enters proto)
    (hunmarked : t.current.flags.hookYield = false) : t.Carries proto false := by
  obtain ⟨f, p, hf, -, -⟩ := h.frame
  exact ⟨h.proto, f, hf, by rw [← Machine.current_eq hf]; exact hunmarked⟩

/-- A function that was entered and not suspended before, under a hook that is told about counts and has
its whole budget left. -/
structure EntersCounted {W : Type} (t : Thread H W) (proto : Proto) (n : Nat) : Prop
    extends t.Enters proto, t.Budgeted n 0 where
  unmarked : t.current.flags.hookYield = false

/-- A mask that selects count events is not empty. -/
theorem isEmpty_of_count {mask : HookMask} (h : mask.count = true) : mask.isEmpty = false :=
  HookMask.isEmpty_of_selects (show mask.selects .count = true from h)

/-- A hook that is installed for some events is there to be told about them. -/
theorem setHook_some {W : Type} (t : Thread H W) (hook : H) {mask : HookMask}
    (hmask : mask.isEmpty = false) (count : Int) :
    (t.setHook (some hook) mask count).hook = some hook ∧
      (t.setHook (some hook) mask count).mask = mask := by
  unfold setHook
  simp only [Option.isSome_some, hmask, Bool.not_false, Bool.and_self, if_true, and_self]

/-- A hook that is installed in a frame that was just entered has its whole budget left. -/
theorem Enters.counted {W : Type} {t : Thread H W} (h : t.Enters proto) (hallow : t.allowHook = true)
    (hunmarked : t.current.flags.hookYield = false) (hook : H) {mask : HookMask}
    (hcount : mask.count = true) (hpos : 1 ≤ n) (hword : n < 2147483648) :
    (t.setHook (some hook) mask n).EntersCounted proto n := by
  obtain ⟨hinstalled, hmask⟩ := t.setHook_some hook (isEmpty_of_count hcount) n
  have hentered := h.of_sameButTraps (t.sameButTraps_setHook (some hook) mask n) h.awake
  refine ⟨hentered, ⟨?_, ?_, rfl, ?_, hpos, hword⟩, ?_⟩
  · rw [hinstalled]
    exact hallow
  · rw [hmask]
    exact hcount
  · rw [Nat.zero_mod]
    exact (Int.sub_zero _).symm
  · exact ((h.carries hunmarked).setHook (some hook) mask n).current

namespace EntersCounted

theorem isEmpty_mask (h : t.EntersCounted proto n) : t.mask.isEmpty = false :=
  isEmpty_of_count h.count

/-- A function without extra arguments is looked at from its first instruction on. -/
theorem begins_plain (h : t.EntersCounted proto n) (hvararg : proto.isVararg = false) :
    ∃ u, t.beginRun stamping = (true, u) ∧ u.Counting proto t.currentId n 0 ∧ u.mask = t.mask ∧
      stepStamps u.host = stepStamps t.host := by
  obtain ⟨s, hs⟩ : ∃ s, t.onFrame t.currentId (·.setTrap true) = s := ⟨_, rfl⟩
  have hbegin := h.toEnters.beginRun_plain stamping h.isEmpty_mask hvararg h.unmarked
  have hruns : s.Runs proto t.currentId true := hs ▸ h.marked.1
  have hcarries : s.Carries proto false :=
    hs ▸ (h.toEnters.carries h.unmarked).onFrame (·.setTrap true) (fun _ => rfl) fun _ hflag => hflag
  have hbudgeted : s.Budgeted n 0 := hs ▸ h.toBudgeted.onFrame t.currentId _
  have hreported := ((runs_mapHost (List.map Stamp.record)).2 hruns).hookCall_calm t.currentId
  rw [hookCall_mapHost follows_stamping] at hreported
  rw [hs] at hbegin
  obtain ⟨hmask, hkeeps⟩ := s.hookCall_stamping (n := n) (k := 0) t.currentId
  refine ⟨_, hbegin, ⟨hkeeps hbudgeted, (runs_mapHost _).1 hreported,
    hcarries.hookCall_stamping t.currentId⟩, ?_, ?_⟩
  · rw [hmask, ← hs]
    rfl
  · rw [stepStamps_hookCall, ← hs]
    rfl

/-- Once the extra arguments were set apart, the frame runs its function if there were as many arguments
as parameters are moved. -/
theorem carries_prepared (h : t.EntersCounted proto n) {fixed : Nat}
    (hle : fixed ≤ t.above t.current.func) : (t.prepared fixed).Carries proto false := by
  obtain ⟨hid, ⟨g, hg, -, hflags⟩, -⟩ := h.toEnters.prepared fixed
  obtain ⟨f, p, hf, -, -⟩ := h.frame
  obtain ⟨s, hs⟩ : ∃ s, (t.onFrame t.currentId fun f => (f.setTrap true).setSavedPc 1) = s := ⟨_, rfl⟩
  have hframe : s.frame? s.currentId = some ((f.setTrap true).setSavedPc 1) := by
    rw [← hs, currentId_onFrame, frame?_onFrame_self, hf, Option.map_some]
  have hsame : s.frameProto? t.currentId = some proto := by
    rw [← hs]
    have hfunc : ∀ f : Frame, ((f.setTrap true).setSavedPc 1).func = f.func := fun _ => rfl
    exact (t.toMachine.frameProto?_modifyFrame t.currentId t.currentId hfunc).trans h.proto
  have hplace : t.current.func = f.func := by rw [Machine.current_eq hf]
  have hbelow : f.func < s.top := by
    rw [← hs, ← hplace]
    exact h.below
  have hruns := Machine.frameProto?_adjustVarargs hframe hbelow fixed
  rw [if_neg (Nat.not_lt.2 (by rw [← hs]; rw [hplace] at hle; exact hle))] at hruns
  refine ⟨?_, g, hg, (congrArg CallFlags.hookYield hflags).trans h.unmarked⟩
  rw [hid, prepared, hs]
  rw [show s.currentId = t.currentId by rw [← hs, currentId_onFrame], hsame] at hruns
  exact hruns

/-- The first instruction of a function with extra arguments sets them apart, and nothing is charged to
the budget. -/
theorem begins_vararg (h : t.EntersCounted proto n) {i : Instruction} (hop : i.opcode = .varargPrep) :
    ∃ u, (t.onFrame t.currentId (·.setTrap true)).execute stamping t.currentId 0 false i = (true, u) ∧
      u.Runs proto t.currentId true ∧ u.nextPc t.currentId = 1 ∧ u.mask = t.mask ∧
      stepStamps u.host = stepStamps t.host ∧
      (t.above t.current.func < i.a → u.frameProto? t.currentId = none) ∧
      (i.a ≤ t.above t.current.func → u.Counting proto t.currentId n 0) := by
  obtain ⟨u, hgoes, hruns, hnext, hlost⟩ := h.toEnters.execute_varargPrep hop
  -- the instruction reports the call, and what that leaves alone it leaves alone
  have hready := h.toEnters.execute_prepared stamping hop
  obtain ⟨hmask, hkeeps⟩ :=
    (t.prepared i.a).hookCall_stamping (n := n) (k := 0) (t.prepared i.a).currentId
  have hlog := (t.prepared i.a).stepStamps_hookCall (t.prepared i.a).currentId
  have hcarries := fun hle : i.a ≤ t.above t.current.func =>
    (h.carries_prepared hle).hookCall_stamping (t.prepared i.a).currentId
  rw [hgoes] at hready
  generalize (t.prepared i.a).hookCall stamping (t.prepared i.a).currentId = s
    at hready hmask hkeeps hlog hcarries
  change u = ({ s with oldPc := 1 } : Thread H (List Stamp)).onFrame t.currentId (·.setSavedPc 1)
    at hready
  refine ⟨u, hgoes, hruns, hnext, ?_, ?_, hlost, fun hle => ?_⟩
  · rw [hready]
    exact hmask
  · rw [hready]
    exact hlog
  · have hid : ({ s with oldPc := 1 } : Thread H (List Stamp)).currentId = t.currentId := by
      rw [← hruns.current, hready, currentId_onFrame]
    have hafter := hkeeps ⟨h.hears, h.count, h.budget, h.left, h.pos, h.word⟩
    have hbudgeted : ({ s with oldPc := 1 } : Thread H (List Stamp)).Budgeted n 0 :=
      ⟨hafter.hears, hafter.count, hafter.budget, hafter.left, hafter.pos, hafter.word⟩
    have hkept : ({ s with oldPc := 1 } : Thread H (List Stamp)).Carries proto false :=
      ⟨(hcarries hle).proto, (hcarries hle).frame⟩
    have hplaced := hkept.onFrame (·.setSavedPc 1) (fun _ => rfl) fun _ hflag => hflag
    rw [hid, ← hready] at hplaced
    exact ⟨hready ▸ hbudgeted.onFrame t.currentId _, hruns, hplaced⟩

/-! ## Whole runs -/

/-- A run of a function with extra arguments: its first instruction has no number. -/
theorem runFrame_vararg (h : t.EntersCounted proto n) (hshape : proto.PreparesOnce)
    (hvararg : proto.isVararg = true) (maxSteps : Nat) :
    ∃ lined : Nat → Bool, (∀ j, lined j = true → t.mask.line = true) ∧
      stepStamps (t.runFrame stamping maxSteps).thread.host = stepStamps t.host ++
        if t.above t.current.func < proto.movedParams then []
        else stampsFrom proto t.currentId n lined 1 (t.runFrame stamping maxSteps).executed.tail := by
  obtain ⟨i, hi, hop⟩ := Option.map_eq_some_iff.1 (hshape.first hvararg)
  have hmoved : proto.movedParams = i.a := by rw [Proto.movedParams, hi]; rfl
  rw [hmoved, runFrame_of_proto _ h.proto,
    h.toEnters.beginRun_vararg stamping h.isEmpty_mask hvararg]
  cases maxSteps with
  | zero =>
    refine ⟨fun _ => false, fun _ hfalse => (by cases hfalse), ?_⟩
    refine (List.append_nil _).symm.trans (congrArg (stepStamps t.host ++ ·) ?_)
    exact (ite_self _).symm
  | succ steps =>
    obtain ⟨u, hgoes, hruns, hnext, hmask, hlog, hlost, hkept⟩ := h.begins_vararg hop
    have hpast : proto.isVararg = true → u.nextPc t.currentId ≠ 0 := by
      rw [hnext]
      exact fun _ => Nat.one_ne_zero
    have hfirst : proto.code[(t.onFrame t.currentId (·.setTrap true)).nextPc t.currentId]? =
        some i := by
      rw [h.toEnters.nextPc_marked, hi]
    have hret : isReturn i = false := by
      rw [isReturn, hop]
      rfl
    rw [runFrom_of_ok _ hfirst rfl, h.toEnters.nextPc_marked, stepOn, hret]
    simp only [Bool.false_eq_true, if_false, hgoes]
    by_cases hless : t.above t.current.func < i.a
    · refine ⟨fun _ => false, fun _ hfalse => (by cases hfalse), ?_⟩
      rw [if_pos hless, List.append_nil, ← hlog]
      exact hruns.host_runFrom_of_lost stepStamps_returnFrom hshape steps hpast (hlost hless)
    · obtain ⟨lined, hlined, hrun⟩ :=
        (hkept (Nat.le_of_not_lt hless)).runFrom hshape hpast steps
      refine ⟨lined, fun j hj => hmask ▸ hlined j hj, ?_⟩
      rw [if_neg hless, ← hlog]
      exact hrun

/-- A run of a function under a hook that has its whole budget left. -/
theorem runFrame_stamping (h : t.EntersCounted proto n) (hshape : proto.PreparesOnce)
    (maxSteps : Nat) :
    ∃ lined : Nat → Bool, (∀ j, lined j = true → t.mask.line = true) ∧
      stepStamps (t.runFrame stamping maxSteps).thread.host = stepStamps t.host ++
        if t.losesFunction proto then []
        else stampsFrom proto t.currentId n lined 1
          (proto.watched (t.runFrame stamping maxSteps).executed) := by
  rw [Proto.watched, losesFunction]
  cases hvararg : proto.isVararg with
  | true =>
    obtain ⟨lined, hlined, hrun⟩ := h.runFrame_vararg hshape hvararg maxSteps
    refine ⟨lined, hlined, hrun.trans ?_⟩
    simp only [Bool.true_and, decide_eq_true_eq, if_true]
  | false =>
    obtain ⟨u, hbegin, hcounts, hmask, hlog⟩ := h.begins_plain hvararg
    obtain ⟨lined, hlined, hrun⟩ := hcounts.runFrom hshape
      (fun hv => absurd (hv.symm.trans hvararg) Bool.false_ne_true.symm) maxSteps
    refine ⟨lined, fun j hj => hmask ▸ hlined j hj, ?_⟩
    rw [runFrame_of_proto _ h.proto, hbegin, hrun, hlog]
    simp only [Bool.false_and, Bool.false_eq_true, if_false, Nat.zero_add]

end EntersCounted

/-- Marked frames get lost as others do. -/
theorem Enters.losesFunction_of_sameButTraps {W : Type} {s t : Thread H W} (h : s.Enters proto)
    (hsame : s.toMachine.SameButTraps t.toMachine) :
    t.losesFunction proto = s.losesFunction proto := by
  obtain ⟨f, p, hf, -, -⟩ := h.frame
  obtain ⟨f', hf', heq⟩ := hsame.exists_frame hf
  rw [losesFunction, losesFunction, Machine.above, Machine.above, hsame.top, Machine.current_eq hf,
    Machine.current_eq (hsame.currentId ▸ hf'), (Frame.eq_of_untrapped_eq heq).1]

/-- **Count events.**  A hook that logs is installed for counts, with any budget, in a frame that was
just entered, and the frame is run for any number of steps.  The instructions that the run executes are
numbered from one on, apart from the one where extra arguments are set apart.  A count event is logged
at each instruction that has a multiple of the budget as its number, before its line event if it has
one, and at no other instruction.  A function that is to move more parameters than there are arguments
gets lost, and no event is logged at its instructions. -/
theorem runFrame_countEvents (h : t.Enters proto) (hshape : proto.PreparesOnce)
    (hallow : t.allowHook = true) (hunmarked : t.current.flags.hookYield = false) (hook : H)
    {mask : HookMask} (hcount : mask.count = true) {budget : Nat} (hpos : 1 ≤ budget)
    (hword : budget < 2147483648) (maxSteps : Nat) :
    let run := (t.setHook (some hook) mask budget).runFrame stamping maxSteps
    ∃ lined : Nat → Bool, (∀ j, lined j = true → mask.line = true) ∧
      stepStamps run.thread.host = stepStamps t.host ++
        if t.losesFunction proto then []
        else stampsFrom proto t.currentId budget lined 1 (proto.watched run.executed) := by
  intro run
  obtain ⟨-, hmask⟩ := t.setHook_some hook (isEmpty_of_count hcount) budget
  have hsame := t.sameButTraps_setHook (some hook) mask budget
  obtain ⟨lined, hlined, hrun⟩ :=
    (h.counted hallow hunmarked hook hcount hpos hword).runFrame_stamping hshape maxSteps
  refine ⟨lined, fun j hj => hmask ▸ hlined j hj, ?_⟩
  rw [h.losesFunction_of_sameButTraps hsame, hsame.currentId] at hrun
  exact hrun

/-- A thread with a function and an argument on the stack, and a hook to come that logs places. -/
def stampedThread (proto : Proto) : Thread Unit (List Stamp) :=
  (threadCalling proto).mapHost fun _ => []

/-- Every second instruction of the function that jumps back is counted, the last one before its
line. -/
theorem runFrame_countEvents_winding :
    let t := ((stampedThread windingProto).pushScriptFrame 1 {}).2
    let mask : HookMask := { line := true, count := true }
    ((t.setHook (some ()) mask (2 : Nat)).runFrame stamping 9).executed = [0, 1, 3, 4, 2] ∧
      (stepStamps ((t.setHook (some ()) mask (2 : Nat)).runFrame stamping 9).thread.host).map
          (fun s => (s.record.event, s.place)) =
        [(.line, some 1), (.count, some 3), (.line, some 4), (.count, some 2), (.line, some 2)] ∧
      ∃ lined : Nat → Bool, (∀ j, lined j = true → mask.line = true) ∧
        stepStamps ((t.setHook (some ()) mask (2 : Nat)).runFrame stamping 9).thread.host =
          stepStamps t.host ++ if t.losesFunction windingProto then []
            else stampsFrom windingProto t.currentId 2 lined 1 (windingProto.watched
              ((t.setHook (some ()) mask (2 : Nat)).runFrame stamping 9).executed) := by
  intro t mask
  have hslot : (stampedThread windingProto).stack[1]?.bind (stampedThread windingProto).function? =
      some (.script windingProto #[]) := rfl
  have hentered : t.Enters windingProto := (enters_pushScriptFrame hslot (by decide) rfl {}).1
  have hshape : windingProto.PreparesOnce := ⟨by decide, by decide, by decide⟩
  have hallow : t.allowHook = true := rfl
  have hunmarked : t.current.flags.hookYield = false :=
    congrArg CallFlags.hookYield (enters_pushScriptFrame hslot (by decide) rfl {}).2
  have hcount : mask.count = true := rfl
  exact ⟨by decide +kernel, by decide +kernel, runFrame_countEvents hentered hshape hallow hunmarked
    () hcount (show 1 ≤ 2 by decide) (show 2 < 2147483648 by decide) 9⟩

/-- The function that loses itself executes two instructions past its first one, and none of them is
counted, though each one is a multiple of the budget. -/
theorem runFrame_countEvents_losing :
    let t := ((stampedThread losingProto).pushScriptFrame 1 {}).2
    t.Enters losingProto ∧ t.current.flags.hookYield = false ∧ losingProto.PreparesOnce ∧
      ((t.setHook (some ()) { count := true } 1).runFrame stamping 9).executed = [0, 1, 2] ∧
      stepStamps ((t.setHook (some ()) { count := true } 1).runFrame stamping 9).thread.host = [] ∧
      stampsFrom losingProto t.currentId 1 (fun _ => false) 1 (losingProto.watched
        ((t.setHook (some ()) { count := true } 1).runFrame stamping 9).executed) =
          [⟨⟨.count, none, 1⟩, some 1⟩, ⟨⟨.count, none, 1⟩, some 2⟩] := by
  intro t
  have hslot : (stampedThread losingProto).stack[1]?.bind (stampedThread losingProto).function? =
      some (.script losingProto #[]) := rfl
  obtain ⟨hentered, hflags⟩ := enters_pushScriptFrame hslot (by decide) rfl {}
  have hshape : losingProto.PreparesOnce := ⟨by decide, by decide, by decide⟩
  exact ⟨hentered, by rw [hflags], hshape, by decide +kernel, by decide +kernel, by decide +kernel⟩

end Thread

end VmInspect
