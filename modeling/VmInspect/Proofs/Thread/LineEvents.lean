import VmInspect.Proofs.Thread.Tracking

/-!
# The line events of a run

This file follows a function from the moment it was entered under a hook that is told about lines:

* `Thread.EntersListening.tracks` — a function without extra arguments is looked at from its first
  instruction on.
* `Thread.EntersListening.runFrame_vararg` — otherwise the first instruction sets the extra
  arguments apart, and the next one is looked at as if it was the first.  A function that is to move
  more parameters than it was given loses itself.
* `Thread.runFrame_lineEvents` — the line events of a run are those of the places that it executes,
  and there are none in a function that loses itself.
-/

namespace VmInspect

namespace Thread

variable {H : Type} {t : Thread H (List HookRecord)} {proto : Proto} {id : Nat}

/-! ## Setting extra arguments apart -/

/-- A function that was given the parameters that are moved is not lost. -/
theorem Listens.adjustVarargs (h : t.Listens proto t.currentId) {f : Frame}
    (hf : t.frame? t.currentId = some f) (hfunc : f.func < t.top) {fixed : Nat}
    (hle : fixed ≤ t.above f.func) :
    (t.onMachine (·.adjustVarargs fixed)).Listens proto t.currentId := by
  refine ⟨?_, h.hook, h.line, fun f' hf' => ?_⟩
  · have hafter := Machine.frameProto?_adjustVarargs hf hfunc fixed
    rw [if_neg (Nat.not_lt.2 hle)] at hafter
    exact hafter.trans h.proto
  · obtain rfl := Option.some.inj ((Machine.frame?_adjustVarargs hf fixed).symm.trans hf')
    exact h.unmarked f hf

/-- A frame that is marked and has its extra arguments set apart goes on being looked at.  It has
lost its function when more parameters were to be moved than there are arguments. -/
theorem Runs.prepareVarargs_marked (h : t.Runs proto id true) {f : Frame} (hf : t.frame? id = some f)
    (hfunc : f.func < t.top) (pc : Nat) (i : Instruction) :
    ∃ u, t.prepareVarargs calm id pc i = (true, u) ∧ u.Runs proto id true ∧ u.oldPc = 1 ∧
      lineEvents u.host = lineEvents t.host ∧
      (t.above f.func < i.a → u.frameProto? id = none) ∧
      (i.a ≤ t.above f.func → t.Listens proto id → u.Listens proto id) := by
  obtain rfl := h.current
  obtain ⟨s, hs⟩ : ∃ s, t.onFrame t.currentId (·.setSavedPc (pc + 1)) = s := ⟨_, rfl⟩
  have hid : s.currentId = t.currentId := by rw [← hs, currentId_onFrame]
  have hframe : s.frame? s.currentId = some (f.setSavedPc (pc + 1)) := by
    rw [hid, ← hs, frame?_onFrame_self, hf, Option.map_some]
  have hbelow : (f.setSavedPc (pc + 1)).func < s.top := by
    rw [← hs]
    exact hfunc
  have hruns : s.Runs proto t.currentId true := hs ▸ h.setSavedPc (pc + 1)
  have hadjusted : (s.onMachine (·.adjustVarargs i.a)).Runs proto t.currentId true :=
    hruns.adjustVarargs (by rw [Machine.current_eq hframe]; exact hbelow) i.a
  have htrap : (s.onMachine (·.adjustVarargs i.a)).current.trap = true := by
    obtain ⟨g, p, hg, hp, hmark⟩ := hadjusted.frame
    rw [← hadjusted.current] at hg
    rw [Machine.current_eq hg, Frame.trap, hp]
    exact hmark rfl
  have hready := (hadjusted.hookCall_calm (s.onMachine (·.adjustVarargs i.a)).currentId).setOldPc 1
  have hreports := (s.onMachine (·.adjustVarargs i.a)).hookCall_calm
    (s.onMachine (·.adjustVarargs i.a)).currentId
  refine ⟨_, ?_, hready, rfl, ?_, fun hless => ?_, fun hle hlistens => ?_⟩
  · obtain ⟨g, p, hg, hp, hmark⟩ := hready.frame
    unfold prepareVarargs hookVarargPrep
    simp only [hs, htrap, if_true, hg, Option.map_some, Option.getD_some]
    rw [Frame.trap, hp, Option.any_some, hmark rfl]
  · exact (lineEvents_hookCall_calm _ _).trans (by rw [← hs]; rfl)
  · have hafter := Machine.frameProto?_adjustVarargs hframe hbelow i.a
    have hmany : s.above (f.setSavedPc (pc + 1)).func < i.a := by
      rw [← hs]
      exact hless
    rw [if_pos hmany, hid] at hafter
    exact (hreports.undisturbed.frameProto? t.currentId).trans hafter
  · have hfew : i.a ≤ s.above (f.setSavedPc (pc + 1)).func := by
      rw [← hs]
      exact hle
    have hsaved : s.Listens proto s.currentId := by
      rw [hid, ← hs]
      exact hlistens.setSavedPc t.currentId (pc + 1)
    have hmoved := hsaved.adjustVarargs hframe hbelow hfew
    rw [hid] at hmoved
    exact ((hmoved.setOldPc 0).of_reports hreports).setOldPc 1

/-! ## Beginnings -/

/-- A mask that selects line events is not empty. -/
theorem isEmpty_of_line {mask : HookMask} (h : mask.line = true) : mask.isEmpty = false :=
  HookMask.isEmpty_of_selects (show mask.selects .line = true from h)

/-- A function that was entered under a hook that is told about lines, and was not suspended
before. -/
structure EntersListening (t : Thread H (List HookRecord)) (proto : Proto) : Prop
    extends t.Enters proto where
  hook : t.hook.isSome = true
  allowed : t.allowHook = true
  line : t.mask.line = true
  unmarked : t.current.flags.hookYield = false

namespace EntersListening

theorem isEmpty_mask (h : t.EntersListening proto) : t.mask.isEmpty = false :=
  isEmpty_of_line h.line

/-- Once the frame is marked its lines can be reported. -/
theorem listens (h : t.EntersListening proto) :
    (t.onFrame t.currentId (·.setTrap true)).Listens proto t.currentId := by
  have hlistens : t.Listens proto t.currentId := by
    refine ⟨h.proto, ?_, h.line, fun f hf => ?_⟩
    · rw [h.hook, h.allowed]
      rfl
    · rw [← Machine.current_eq hf]
      exact h.unmarked
  exact hlistens.onFrame t.currentId (fun _ => rfl) fun _ => rfl

/-- A function without extra arguments is looked at from its first instruction on. -/
theorem tracks (h : t.EntersListening proto) (hvararg : proto.isVararg = false) :
    ∃ u, t.beginRun calm = (true, u) ∧ u.Tracks proto t.currentId none ∧
      lineEvents u.host = lineEvents t.host := by
  have hbegin := h.toEnters.beginRun_plain calm h.isEmpty_mask hvararg h.unmarked
  have hproceeds := (h.toEnters.beginRun_calm h.isEmpty_mask).1
  have hreports := (t.onFrame t.currentId (·.setTrap true)).hookCall_calm t.currentId
  rw [hbegin] at hproceeds
  refine ⟨_, hbegin, ⟨hproceeds, (h.listens.setOldPc 0).of_reports hreports, fun _ => ?_⟩, ?_⟩
  · have hfirst : ((t.onFrame t.currentId (·.setTrap true)).hookCall calm t.currentId).nextPc
        t.currentId = 0 := (hreports.nextPc t.currentId).trans h.toEnters.nextPc_marked
    rw [hfirst]
    rfl
  · rw [lineEvents_hookCall_calm]
    rfl

/-- The first instruction sets the extra arguments apart, and the run goes on as if the next one was
the first, unless the function was lost. -/
theorem runFrame_vararg (h : t.EntersListening proto) (hvararg : proto.isVararg = true)
    {i : Instruction} (hi : proto.code[0]? = some i) (hop : i.opcode = .varargPrep) :
    ∃ u, (∀ steps, t.runFrame calm (steps + 1) =
        .execute 0 (Thread.runFrom calm proto t.currentId steps true u)) ∧
      u.Runs proto t.currentId true ∧ u.nextPc t.currentId = 1 ∧ u.oldPc = 1 ∧
      lineEvents u.host = lineEvents t.host ∧
      (t.above t.current.func < i.a → u.frameProto? t.currentId = none) ∧
      (i.a ≤ t.above t.current.func → u.Listens proto t.currentId) := by
  obtain ⟨f, p, hf, -, -⟩ := h.frame
  have hplace : t.current.func = f.func := by rw [Machine.current_eq hf]
  have hmarked : (t.onFrame t.currentId (·.setTrap true)).frame? t.currentId =
      some (f.setTrap true) := by
    rw [frame?_onFrame_self, hf, Option.map_some]
  have hbelow : f.func < t.top := hplace ▸ h.below
  obtain ⟨u, hprepare, hruns, hold, hevents, hlost, hkept⟩ :=
    h.marked.1.prepareVarargs_marked hmarked hbelow 0 i
  have hfirst : proto.code[(t.onFrame t.currentId (·.setTrap true)).nextPc t.currentId]? =
      some i := by
    rw [h.toEnters.nextPc_marked]
    exact hi
  have hret : isReturn i = false := by
    rw [isReturn, hop]
    rfl
  have hgoes : (t.onFrame t.currentId (·.setTrap true)).execute calm t.currentId 0 false i =
      (true, u.onFrame t.currentId (·.setSavedPc 1)) := by
    unfold execute
    simp only [hop, if_true, hprepare]
    rfl
  refine ⟨u.onFrame t.currentId (·.setSavedPc 1), fun steps => ?_, hruns.setSavedPc 1,
    hruns.nextPc_setSavedPc 1, hold, hevents, fun hless => ?_, fun hle => ?_⟩
  · rw [runFrame_of_proto _ h.proto, h.toEnters.beginRun_vararg calm h.isEmpty_mask hvararg,
      runFrom_of_ok _ hfirst rfl, h.toEnters.nextPc_marked, stepOn]
    simp only [hret, Bool.false_eq_true, if_false, hgoes]
  · rw [frameProto?_setSavedPc]
    rw [hplace] at hless
    exact hlost hless
  · rw [hplace] at hle
    exact (hkept hle h.listens).setSavedPc t.currentId 1

end EntersListening

/-! ## Whole runs -/

/-- Whether the function of a frame that was entered gets lost: it moves more fixed parameters than
there are arguments. -/
def losesFunction {W : Type} (t : Thread H W) (proto : Proto) : Bool :=
  proto.isVararg && decide (t.above t.current.func < proto.movedParams)

/-- The events of a function that first sets its extra arguments apart. -/
theorem EntersListening.runFrom_vararg (h : t.EntersListening proto) (hshape : proto.PreparesOnce)
    (hlines : proto.lines.WellFormed) (hvararg : proto.isVararg = true) (steps : Nat) :
    lineEvents (t.runFrame calm steps).thread.host = lineEvents t.host ++
      if t.above t.current.func < proto.movedParams then []
      else proto.recordsFrom t.currentId none (t.runFrame calm steps).executed.tail := by
  obtain ⟨i, hi, hop⟩ := Option.map_eq_some_iff.1 (hshape.first hvararg)
  have hmoved : proto.movedParams = i.a := by rw [Proto.movedParams, hi]; rfl
  rw [hmoved]
  cases steps with
  | zero =>
    rw [runFrame_of_proto _ h.proto, h.toEnters.beginRun_vararg calm h.isEmpty_mask hvararg]
    refine (List.append_nil _).symm.trans (congrArg (lineEvents t.host ++ ·) ?_)
    exact (ite_self _).symm
  | succ steps =>
    obtain ⟨u, hgoes, hruns, hnext, hold, hevents, hlost, hkept⟩ := h.runFrame_vararg hvararg hi hop
    have hpast : proto.isVararg = true → u.nextPc t.currentId ≠ 0 := by
      rw [hnext]
      exact fun _ => Nat.one_ne_zero
    rw [hgoes]
    change lineEvents (Thread.runFrom calm proto t.currentId steps true u).thread.host = _ ++
      if _ then _ else
        proto.recordsFrom _ none (Thread.runFrom calm proto t.currentId steps true u).executed
    split
    · rename_i hless
      rw [lineEvents_runFrom_of_lost hshape steps hruns hpast (hlost hless), hevents,
        List.append_nil]
    · rename_i hle
      have htracks : u.Tracks proto t.currentId none := by
        refine ⟨⟨hruns, fun hv hz => absurd hz (hpast hv)⟩, hkept (Nat.le_of_not_lt hle), ?_⟩
        rw [hnext]
        intro hlt
        unfold beginsLine
        simp only [hold, hlt, if_true]
        rfl
      rw [htracks.runFrom hshape hlines steps, hevents]

/-- **Line events.**  A function is run for any number of steps, under a hook that logs and is told
about lines.  The line events in the log are those of the places that the run executes, apart from
the one where extra arguments are set apart: one at the first place, one after each step that does not
lead onward, and one wherever the line is another one than before.  A function that is to move more
parameters than there are arguments gets lost, and no line event is reported. -/
theorem runFrame_lineEvents (h : t.EntersListening proto) (hshape : proto.PreparesOnce)
    (hlines : proto.lines.WellFormed) (maxSteps : Nat) :
    lineEvents (t.runFrame calm maxSteps).thread.host = lineEvents t.host ++
      if t.losesFunction proto then []
      else proto.lineRecords t.currentId (proto.watched (t.runFrame calm maxSteps).executed) := by
  rw [Proto.lineRecords_eq, Proto.watched, losesFunction]
  cases hvararg : proto.isVararg with
  | true =>
    rw [h.runFrom_vararg hshape hlines hvararg maxSteps]
    simp only [Bool.true_and, decide_eq_true_eq, if_true]
  | false =>
    obtain ⟨u, hbegin, htracks, hevents⟩ := h.tracks hvararg
    rw [runFrame_of_proto _ h.proto, hbegin, htracks.runFrom hshape hlines maxSteps, hevents]
    simp only [Bool.false_and, Bool.false_eq_true, if_false]

/-- A function that is called under a hook that is told about lines. -/
theorem entersListening_enter {func : Nat} {upvalues : Array Nat}
    (hslot : t.stack[func]?.bind t.function? = some (.script proto upvalues))
    (hfunc : func < t.top) (hawake : t.suspended = false) (hallow : t.allowHook = true)
    {flags : CallFlags} (hflags : flags.hookYield = false) (hook : H) {mask : HookMask}
    (hline : mask.line = true) (count : Int) :
    (t.enter func flags hook mask count).EntersListening proto := by
  have hmask := isEmpty_of_line hline
  obtain ⟨m, hpush⟩ := t.pushScriptFrame_rest func flags
  obtain ⟨⟨f, p, hf, -, -, -, hkept⟩, -, -⟩ := frame_enter hslot hfunc flags hook mask count
  refine ⟨enters_enter hslot hfunc hawake flags hook mask count, ?_, ?_, ?_, ?_⟩
  · unfold enter setHook
    simp only [Option.isSome_some, hmask, Bool.not_false, Bool.and_self, if_true]
  · unfold enter setHook
    rw [hpush]
    exact hallow
  · rw [mask_enter t func flags hook hmask]
    exact hline
  · rw [Machine.current_eq hf, hkept]
    exact hflags

/-- A function with a parameter and extra arguments that jumps onward to the line that it comes from,
and back to a far one. -/
def windingProto : Proto :=
  ((((Builder.empty.withVararg.withParams 1).withStride 2).withLines 10 500).emitAll
    [(.abc .varargPrep 1 0 0, 10), (.ofJumpDistance .jump 1, 11), (.abc .return0 0 0 0, 500),
      (.abc .move 0 1 0, 11), (.ofJumpDistance .jump (-3), 12)]).build

/-- A thread with a function and an argument on the stack. -/
def threadCalling (proto : Proto) : Thread Unit (List HookRecord) :=
  (Thread.initial []).onMachine fun m =>
    ((m.register (.script proto #[])).push (.function 0)).push .nil

/-- The run goes through four watched places and reaches three lines. -/
theorem runFrame_lineEvents_winding :
    let t := (threadCalling windingProto).enter 1 {} () { line := true, count := true } 2
    (t.runFrame calm 9).executed = [0, 1, 3, 4, 2] ∧
      (lineEvents (t.runFrame calm 9).thread.host).map HookRecord.line =
        [some 11, some 12, some 500] ∧
      lineEvents (t.runFrame calm 9).thread.host = lineEvents t.host ++
        if t.losesFunction windingProto then []
        else windingProto.lineRecords t.currentId
          (windingProto.watched (t.runFrame calm 9).executed) := by
  intro t
  have hslot : (threadCalling windingProto).stack[1]?.bind (threadCalling windingProto).function? =
      some (.script windingProto #[]) := rfl
  have hlisten : t.EntersListening windingProto :=
    entersListening_enter hslot (by decide) rfl rfl rfl () rfl 2
  have hshape : windingProto.PreparesOnce := ⟨by decide, by decide, by decide⟩
  have hlines : windingProto.lines.WellFormed :=
    Builder.wellFormed_build (LineTable.wellFormed_of_empty rfl rfl) _
  exact ⟨by decide +kernel, by decide +kernel, runFrame_lineEvents hlisten hshape hlines 9⟩

/-- A function that is to move two parameters though it has none. -/
def losingProto : Proto :=
  ((Builder.empty.withVararg.withLines 1 3).emitAll
    [(.abc .varargPrep 2 0 0, 1), (.abc .move 0 0 0, 2), (.abc .return0 0 0 0, 3)]).build

/-- Called with one argument, it executes all its instructions and no line is reported. -/
theorem runFrame_lineEvents_losing :
    let t := (threadCalling losingProto).enter 1 {} () { line := true } 0
    t.EntersListening losingProto ∧ losingProto.PreparesOnce ∧ losingProto.lines.WellFormed ∧
      (t.runFrame calm 9).executed = [0, 1, 2] ∧
      lineEvents (t.runFrame calm 9).thread.host = [] ∧
      losingProto.lineRecords t.currentId (losingProto.watched (t.runFrame calm 9).executed) =
        [⟨.line, some 2, 1⟩, ⟨.line, some 3, 1⟩] := by
  intro t
  have hslot : (threadCalling losingProto).stack[1]?.bind (threadCalling losingProto).function? =
      some (.script losingProto #[]) := rfl
  have hlisten : t.EntersListening losingProto :=
    entersListening_enter hslot (by decide) rfl rfl rfl () rfl 0
  have hshape : losingProto.PreparesOnce := ⟨by decide, by decide, by decide⟩
  have hlines : losingProto.lines.WellFormed :=
    Builder.wellFormed_build (LineTable.wellFormed_of_empty rfl rfl) _
  exact ⟨hlisten, hshape, hlines, by decide +kernel, by decide +kernel, by decide +kernel⟩

end Thread

end VmInspect
