import VmInspect.Proofs.Thread.LineEvents

/-!
# Runs in parts

A function need not be run at a stretch: it can be run for some instructions, and run on later.  This
file takes a run apart, under a hook that logs and is told about lines:

* `Thread.Attends`, `Thread.Watchful` — a frame whose lines are reported when it is run, or run on.
* `Thread.Midway` — the invariant of a run that is past its beginning, which each instruction keeps.
* `Thread.Reached` — the thread that has just executed the instruction at a place.
* `Thread.Watchful.runFrame_add` — a run goes on from where a shorter one has come to.
* `Thread.Reached.lineEvents_runFrom`, `Thread.Reached.lineEvents_runFrame` — and its line events from there
  on follow from the two places that were looked at last and come next, whether the frame runs on or is
  run once more.
-/

namespace VmInspect

/-! ## Lines ahead -/

/-- Whether a line begins at a place, when another one was looked at before. -/
def Proto.beginsAfter (p : Proto) (old pc : Nat) : Bool :=
  let old := if old < p.code.size then old else 0
  decide (pc ≤ old) || p.lines.changed old pc

/-- The line events of a frame for a number of steps, when a place was looked at last and another one
comes next. -/
def Proto.linesAlong (p : Proto) (id : Nat) : Nat → Nat → Nat → List HookRecord
  | 0, _, _ => []
  | steps + 1, old, pc =>
    match p.code[pc]? with
    | none => []
    | some i =>
      (if p.beginsAfter old pc then [⟨.line, p.line? pc, id⟩] else []) ++
        if Thread.isReturn i then [] else p.linesAlong id steps pc (Thread.nextPlace pc i)

namespace Thread

variable {H : Type} {t t' : Thread H (List HookRecord)} {proto : Proto} {id pc : Nat} {trap : Bool}

/-- The line events that are to come in a frame.  There are none when it has lost its function. -/
def linesAhead (t : Thread H (List HookRecord)) (proto : Proto) (id steps : Nat) : List HookRecord :=
  if (t.frameProto? id).isSome then proto.linesAlong id steps t.oldPc (t.nextPc id) else []

/-- The run lemma: the line events of a run follow from the places that were looked at last and come
next. -/
theorem Listens.runFrom (h : t.Listens proto id) (hruns : t.Runs proto id true)
    (hshape : proto.PreparesOnce) (hpast : proto.isVararg = true → t.nextPc id ≠ 0) (steps : Nat) :
    lineEvents (Thread.runFrom calm proto id steps true t).thread.host =
      lineEvents t.host ++ proto.linesAlong id steps t.oldPc (t.nextPc id) := by
  induction steps generalizing t with
  | zero => exact (List.append_nil _).symm
  | succ steps ih =>
    rw [Proto.linesAlong]
    cases hi : proto.code[t.nextPc id]? with
    | none =>
      rw [runFrom_of_none _ hi]
      exact (List.append_nil _).symm
    | some i =>
      obtain ⟨u, hlook, hnext, hlistens, hold, hevents⟩ := h.look hruns (t.nextPc id)
      have hbegins : t.beginsLine proto (t.nextPc id) =
          proto.beginsAfter t.oldPc (t.nextPc id) := rfl
      rw [hbegins] at hevents
      rw [runFrom_of_ok _ hi hlook, stepOn]
      by_cases hret : isReturn i = true
      · simp only [hret, if_true, List.append_nil]
        exact (u.lineEvents_returnFrom_calm id _).trans hevents
      · have hgoes := u.execute_of_not_varargPrep calm id (t.nextPc id) true
          (opcode_ne_varargPrep hshape hpast hi)
        have hplace := hnext.nextPc_setSavedPc (nextPlace (t.nextPc id) i)
        simp only [hret, Bool.false_eq_true, if_false, hgoes]
        have hrest := ih (hlistens.setSavedPc id _) (hnext.setSavedPc _) fun hvararg => by
          rw [hplace]
          exact nextPlace_ne_zero hshape hvararg hi
        rw [hplace] at hrest
        change _ = lineEvents u.host ++ proto.linesAlong id steps u.oldPc _ at hrest
        rw [hold, hevents, List.append_assoc] at hrest
        exact hrest

/-! ## Frames whose lines are reported -/

/-- A frame whose lines are reported.  If it is marked by a suspension, it was looked at in front of
its next instruction. -/
structure Attends (t : Thread H (List HookRecord)) (proto : Proto) (id : Nat) : Prop where
  proto : t.frameProto? id = some proto
  hook : (t.hook.isSome && t.allowHook) = true
  line : t.mask.line = true
  settled : ∀ f, t.frame? id = some f → f.flags.hookYield = true → t.oldPc = t.nextPc id

theorem Listens.attends (h : t.Listens proto id) : t.Attends proto id := by
  refine ⟨h.proto, h.hook, h.line, ?_⟩
  intro f hf hmark
  rw [h.unmarked f hf] at hmark
  cases hmark

/-- A frame that is not marked has no other condition to meet. -/
theorem Attends.listens (h : t.Attends proto id)
    (hunmarked : ∀ f, t.frame? id = some f → f.flags.hookYield = false) : t.Listens proto id :=
  ⟨h.proto, h.hook, h.line, hunmarked⟩

/-- After a look at its next instruction the frame is not marked, and the place is noted. -/
theorem Attends.look (h : t.Attends proto id) (hruns : t.Runs proto id true) :
    ∃ u, t.watch calm true (t.nextPc id) = (.ok true, u) ∧ u.Runs proto id true ∧
      u.Listens proto id ∧ u.oldPc = t.nextPc id := by
  obtain ⟨f, p, hf, -, -⟩ := hruns.frame
  cases hmark : f.flags.hookYield with
  | false =>
    have hlistens : t.Listens proto id := h.listens fun g hg => by
      obtain rfl := Option.some.inj (hf.symm.trans hg)
      exact hmark
    obtain ⟨u, hlook, hnext, hkept, hold, -⟩ := hlistens.look hruns (t.nextPc id)
    exact ⟨u, hlook, hnext, hkept, hold⟩
  | true =>
    have hcharged := hruns.charged (t.nextPc id)
    have hframe : (t.charged (t.nextPc id)).frame? id = some (f.setSavedPc (t.nextPc id + 1)) := by
      show (t.onFrame t.currentId _).frame? id = _
      rw [hruns.current, frame?_onFrame_self, hf, Option.map_some]
    have hcurrent : (t.charged (t.nextPc id)).current.flags.hookYield = true := by
      have hsaved : (t.charged (t.nextPc id)).current = f.setSavedPc (t.nextPc id + 1) := by
        refine Machine.current_eq ?_
        rw [hcharged.current]
        exact hframe
      rw [hsaved]
      exact hmark
    have hwatch : t.mask.watchesInstructions = true := by
      rw [HookMask.watchesInstructions, h.line, Bool.true_or]
    have hproto : t.frameProto? t.currentId = some proto := by
      rw [hruns.current]
      exact h.proto
    have hfunc : ∀ f : Frame, (f.removeFlags yieldFlag).func = f.func := fun _ => rfl
    refine ⟨(t.charged (t.nextPc id)).onFrame id (·.removeFlags yieldFlag), ?_,
      hcharged.removeFlags yieldFlag, ⟨?_, h.hook, h.line, fun g hg => ?_⟩, h.settled f hf hmark⟩
    · rw [watch, if_pos rfl, traceExec_eq _ _ hproto hwatch, h.line, hcurrent, hruns.current]
      simp only [Bool.not_true, Bool.and_false, Bool.false_eq_true, if_false, if_true]
    · have hsaved : ∀ f : Frame, (f.setSavedPc (t.nextPc id + 1)).func = f.func := fun _ => rfl
      have hsame := (t.charged (t.nextPc id)).toMachine.frameProto?_modifyFrame id id hfunc
      exact (hsame.trans (t.toMachine.frameProto?_modifyFrame t.currentId id hsaved)).trans h.proto
    · rw [frame?_onFrame_self, hframe, Option.map_some] at hg
      obtain rfl := Option.some.inj hg
      exact Bool.and_false _

/-! ## Past the beginning -/

/-- A thread between two instructions of a run, past its beginning: the frame is looked at, or has
lost its function. -/
structure Midway (t : Thread H (List HookRecord)) (proto : Proto) (id : Nat) (trap : Bool) :
    Prop where
  runs : t.Runs proto id trap
  past : proto.isVararg = true → t.nextPc id ≠ 0
  heard : t.frameProto? id = none ∨ trap = true ∧ t.Attends proto id

/-- A thread that has just executed the instruction at a place. -/
structure Reached (t : Thread H (List HookRecord)) (proto : Proto) (id : Nat) (trap : Bool)
    (pc : Nat) : Prop where
  runs : t.Runs proto id trap
  past : proto.isVararg = true → t.nextPc id ≠ 0
  heard : t.frameProto? id = none ∨ trap = true ∧ t.Listens proto id ∧ t.oldPc = pc

theorem Reached.midway (h : t.Reached proto id trap pc) : t.Midway proto id trap := by
  refine ⟨h.runs, h.past, ?_⟩
  rcases h.heard with hlost | ⟨htrap, hlistens, -⟩
  · exact Or.inl hlost
  · exact Or.inr ⟨htrap, hlistens.attends⟩

/-- The step lemma: an instruction is looked at and executed, and the thread is at the next place. -/
theorem Midway.step (h : t.Midway proto id trap) (hshape : proto.PreparesOnce) {i : Instruction}
    (hi : proto.code[t.nextPc id]? = some i) :
    ∃ b u, t.watch calm trap (t.nextPc id) = (.ok b, u) ∧
      (u.execute calm id (t.nextPc id) b i).1 = b ∧
      (u.execute calm id (t.nextPc id) b i).2.Reached proto id b (t.nextPc id) ∧
      (u.execute calm id (t.nextPc id) b i).2.nextPc id = nextPlace (t.nextPc id) i := by
  have hop := opcode_ne_varargPrep hshape h.past hi
  have hplace : ∀ {b : Bool} {u : Thread H (List HookRecord)}, u.Runs proto id b →
      (u.onFrame id (·.setSavedPc (nextPlace (t.nextPc id) i))).nextPc id =
        nextPlace (t.nextPc id) i := fun hruns => hruns.nextPc_setSavedPc _
  have hpast : ∀ {b : Bool} {u : Thread H (List HookRecord)}, u.Runs proto id b →
      proto.isVararg = true →
        (u.onFrame id (·.setSavedPc (nextPlace (t.nextPc id) i))).nextPc id ≠ 0 := by
    intro b u hruns hvararg
    rw [hplace hruns]
    exact nextPlace_ne_zero hshape hvararg hi
  rcases h.heard with hlost | ⟨rfl, hattends⟩
  · have hlook : t.watch calm trap (t.nextPc id) = (.ok false, t) :=
      t.watch_of_no_proto calm (by rw [h.runs.current]; exact hlost) trap _
    have hunwatched := h.runs.unwatched
    refine ⟨false, t, hlook, ?_⟩
    rw [execute_of_not_varargPrep calm t id _ false hop]
    refine ⟨rfl, ⟨hunwatched.setSavedPc _, hpast hunwatched, Or.inl ?_⟩, hplace hunwatched⟩
    rw [frameProto?_setSavedPc]
    exact hlost
  · obtain ⟨u, hlook, hruns, hlistens, hold⟩ := hattends.look h.runs
    refine ⟨true, u, hlook, ?_⟩
    rw [execute_of_not_varargPrep calm u id _ true hop]
    exact ⟨rfl, ⟨hruns.setSavedPc _, hpast hruns, Or.inr ⟨rfl, hlistens.setSavedPc id _, hold⟩⟩,
      hplace hruns⟩

theorem thread_execute {W : Type} (pc : Nat) (r : Run H W) : (r.execute pc).thread = r.thread := rfl

/-- The last instruction of a run is that of what follows its first one, if anything does. -/
theorem getLast?_execute {W : Type} (pc : Nat) (r : Run H W) :
    (r.execute pc).executed.getLast? = some (r.executed.getLast?.getD pc) := List.getLast?_cons

/-- A run that executes nothing leaves the thread as it is. -/
theorem Midway.runFrom_idle (h : t.Midway proto id trap) (hshape : proto.PreparesOnce) {n : Nat}
    (hidle : (runFrom calm proto id n trap t).executed = []) :
    (runFrom calm proto id n trap t).thread = t ∧
      ∀ k, (runFrom calm proto id (n + k) trap t).thread = (runFrom calm proto id k trap t).thread := by
  cases n with
  | zero =>
    refine ⟨rfl, fun k => ?_⟩
    rw [Nat.zero_add]
  | succ n =>
    cases hi : proto.code[t.nextPc id]? with
    | none =>
      refine ⟨by rw [runFrom_of_none _ hi]; rfl, fun k => ?_⟩
      rw [Nat.succ_add, runFrom_of_none _ hi]
      cases k with
      | zero => rfl
      | succ k => rw [runFrom_of_none _ hi]
    | some i =>
      obtain ⟨b, u, hlook, -, -, -⟩ := h.step hshape hi
      rw [runFrom_of_ok _ hi hlook] at hidle
      cases hidle

/-- A run goes on from where a shorter one has come to: at the place after the instruction that was
executed last. -/
theorem Midway.runFrom_add (h : t.Midway proto id trap) (hshape : proto.PreparesOnce) {n : Nat}
    {i : Instruction} (hlast : (runFrom calm proto id n trap t).executed.getLast? = some pc)
    (hi : proto.code[pc]? = some i) (hret : isReturn i = false) :
    ∃ b, (runFrom calm proto id n trap t).thread.Reached proto id b pc ∧
      (runFrom calm proto id n trap t).thread.nextPc id = nextPlace pc i ∧
      ∀ k, (runFrom calm proto id (n + k) trap t).thread =
        (runFrom calm proto id k b (runFrom calm proto id n trap t).thread).thread := by
  induction n generalizing t trap with
  | zero => cases hlast
  | succ n ih =>
    cases hfirst : proto.code[t.nextPc id]? with
    | none =>
      rw [runFrom_of_none _ hfirst] at hlast
      cases hlast
    | some j =>
      obtain ⟨b, u, hlook, hsame, hreached, hplace⟩ := h.step hshape hfirst
      by_cases hreturn : isReturn j = true
      · -- a return is the last instruction, and is none of those that are gone on from
        rw [runFrom_of_ok _ hfirst hlook, stepOn, if_pos hreturn] at hlast
        obtain rfl : t.nextPc id = pc := Option.some.inj hlast
        obtain rfl := Option.some.inj (hfirst.symm.trans hi)
        rw [hret] at hreturn
        cases hreturn
      · obtain ⟨s, hs⟩ : ∃ s, (u.execute calm id (t.nextPc id) b j).2 = s := ⟨_, rfl⟩
        rw [hs] at hreached hplace
        have hrun : ∀ steps, runFrom calm proto id (steps + 1) trap t =
            .execute (t.nextPc id) (runFrom calm proto id steps b s) := by
          intro steps
          rw [runFrom_of_ok _ hfirst hlook, stepOn, if_neg hreturn, hsame, hs]
        rw [hrun n] at hlast ⊢
        have hadd : ∀ k, (runFrom calm proto id (n + 1 + k) trap t).thread =
            (runFrom calm proto id (n + k) b s).thread := by
          intro k
          rw [Nat.succ_add, hrun, thread_execute]
        simp only [hadd, thread_execute]
        rw [getLast?_execute] at hlast
        cases hrest : (runFrom calm proto id n b s).executed.getLast? with
        | none =>
          obtain ⟨hstays, hgoes⟩ :=
            hreached.midway.runFrom_idle hshape (List.getLast?_eq_none_iff.1 hrest)
          have hpc : t.nextPc id = pc := by
            rw [hrest] at hlast
            exact Option.some.inj hlast
          rw [hpc] at hreached hplace hfirst
          obtain rfl := Option.some.inj (hfirst.symm.trans hi)
          rw [hstays]
          exact ⟨b, hreached, hplace, hgoes⟩
        | some last =>
          rw [hrest] at hlast
          obtain rfl : last = pc := Option.some.inj hlast
          exact ih hreached.midway hrest

/-! ## Beginnings -/

/-- A thread whose current frame is to be run, or to be run on, under a hook that is told about lines.
Before it sets extra arguments apart it has them, and was not suspended. -/
structure Watchful (t : Thread H (List HookRecord)) (proto : Proto) : Prop where
  frame : ∃ f p, t.frame? t.currentId = some f ∧ f.progress? = some p
  attends : t.Attends proto t.currentId
  awake : t.suspended = false
  entering : proto.isVararg = true → t.nextPc t.currentId = 0 →
    t.current.func < t.top ∧ t.current.flags.hookYield = false

namespace Watchful

/-- A function that was just entered is to be run. -/
theorem of_entersListening (h : t.EntersListening proto) : t.Watchful proto := by
  obtain ⟨f, p, hf, hp, -⟩ := h.frame
  refine ⟨⟨f, p, hf, hp⟩, ⟨h.proto, ?_, h.line, fun g hg hmark => ?_⟩, h.awake,
    fun _ _ => ⟨h.below, h.unmarked⟩⟩
  · rw [h.hook, h.allowed]
    rfl
  · rw [← Machine.current_eq hg, h.unmarked] at hmark
    cases hmark

/-- If it has not begun yet, and is not marked, it was just entered. -/
theorem entersListening (h : t.Watchful proto) (hnext : t.nextPc t.currentId = 0)
    (hfunc : t.current.func < t.top) (hunmarked : t.current.flags.hookYield = false) :
    t.EntersListening proto := by
  obtain ⟨f, p, hf, hp⟩ := h.frame
  obtain ⟨hsome, hallow⟩ := Bool.and_eq_true_iff.1 h.attends.hook
  have hzero : p.savedPc = 0 := by
    rw [nextPc, hf, Option.bind_some, Frame.savedPc?, hp] at hnext
    exact hnext
  exact ⟨⟨h.attends.proto, ⟨f, p, hf, hp, hzero⟩, hfunc, h.awake⟩, hsome, hallow, h.attends.line,
    hunmarked⟩

/-- The frame is marked when its run begins. -/
theorem marked (h : t.Watchful proto) :
    (t.onFrame t.currentId (·.setTrap true)).Runs proto t.currentId true ∧
      (t.onFrame t.currentId (·.setTrap true)).nextPc t.currentId = t.nextPc t.currentId ∧
      (t.onFrame t.currentId (·.setTrap true)).Attends proto t.currentId := by
  obtain ⟨f, p, hf, hp⟩ := h.frame
  have hfunc : ∀ f : Frame, (f.setTrap true).func = f.func := fun _ => rfl
  have hframe : (t.onFrame t.currentId (·.setTrap true)).frame? t.currentId =
      some (f.setTrap true) := by
    rw [frame?_onFrame_self, hf, Option.map_some]
  have hplace : (t.onFrame t.currentId (·.setTrap true)).nextPc t.currentId =
      t.nextPc t.currentId := by
    rw [nextPc, hframe, Option.bind_some, Frame.savedPc?_setTrap, nextPc, hf, Option.bind_some]
  refine ⟨runs_marked hf hp h.attends.proto h.awake, hplace, ?_, h.attends.hook, h.attends.line,
    fun g hg hmark => ?_⟩
  · exact (t.toMachine.frameProto?_modifyFrame _ _ hfunc).trans h.attends.proto
  · obtain rfl := Option.some.inj (hframe.symm.trans hg)
    rw [hplace]
    exact h.attends.settled f hf hmark

/-- How a run begins: the frame is marked, and reported if it was just entered. -/
theorem beginRun_eq (h : t.Watchful proto) :
    t.beginRun calm =
      if t.nextPc t.currentId = 0 then
        if proto.isVararg then (false, t.onFrame t.currentId (·.setTrap true))
        else if t.current.flags.hookYield then (true, t.onFrame t.currentId (·.setTrap true))
        else (true, (t.onFrame t.currentId (·.setTrap true)).hookCall calm t.currentId)
      else (true, t.onFrame t.currentId (·.setTrap true)) := by
  obtain ⟨f, p, hf, hp⟩ := h.frame
  have hcurrent := current_onFrame t hf (·.setTrap true)
  have hflag : (f.setTrap true).flags.hookYield = t.current.flags.hookYield := by
    rw [Machine.current_eq hf]
    rfl
  have hplace : (f.setTrap true).savedPc? = some (t.nextPc t.currentId) := by
    rw [Frame.savedPc?_setTrap, nextPc, hf, Option.bind_some, Frame.savedPc?, hp]
    rfl
  rw [beginRun_of_events _ _ (isEmpty_of_line h.attends.line), traceCall_eq _ _ h.attends.proto]
  simp only [hcurrent, hplace, hflag, Option.some.injEq]

/-- A run that does not begin with the first instruction only marks the frame. -/
theorem beginRun_onward (h : t.Watchful proto) (hnext : t.nextPc t.currentId ≠ 0) :
    t.beginRun calm = (true, t.onFrame t.currentId (·.setTrap true)) := by
  rw [h.beginRun_eq, if_neg hnext]

/-- A run whose first instruction sets nothing apart begins past its beginning. -/
theorem beginRun (h : t.Watchful proto)
    (hpast : proto.isVararg = true → t.nextPc t.currentId ≠ 0) :
    ∃ u, t.beginRun calm = (true, u) ∧ u.Midway proto t.currentId true := by
  obtain ⟨hruns, hplace, hattends⟩ := h.marked
  have hmidway : (t.onFrame t.currentId (·.setTrap true)).Midway proto t.currentId true := by
    refine ⟨hruns, ?_, Or.inr ⟨rfl, hattends⟩⟩
    rw [hplace]
    exact hpast
  rw [h.beginRun_eq]
  by_cases hnext : t.nextPc t.currentId = 0
  · have hvararg : ¬proto.isVararg = true := fun hv => hpast hv hnext
    rw [if_pos hnext, if_neg hvararg]
    split
    · exact ⟨_, rfl, hmidway⟩
    · -- the frame was just entered and is reported, which leaves it unmarked
      rename_i hunmarked
      obtain ⟨f, p, hf, -⟩ := h.frame
      have hreports := (t.onFrame t.currentId (·.setTrap true)).hookCall_calm t.currentId
      have hlistens := hattends.listens fun g hg => by
        rw [frame?_onFrame_self, hf, Option.map_some] at hg
        obtain rfl := Option.some.inj hg
        rw [Machine.current_eq hf, Bool.not_eq_true] at hunmarked
        exact hunmarked
      refine ⟨_, rfl, hruns.hookCall_calm _, fun hv => absurd hv hvararg, Or.inr ⟨rfl, ?_⟩⟩
      exact ((hlistens.setOldPc 0).of_reports hreports).attends
  · rw [if_neg hnext]
    exact ⟨_, rfl, hmidway⟩

/-- A run goes on from where a shorter one has come to, behind a call. -/
theorem runFrame_add (h : t.Watchful proto) (hshape : proto.PreparesOnce) {n : Nat}
    {i : Instruction} (hlast : (t.runFrame calm n).executed.getLast? = some pc)
    (hi : proto.code[pc]? = some i) (hop : i.opcode = .call) :
    ∃ b, (t.runFrame calm n).thread.Reached proto t.currentId b pc ∧
      (t.runFrame calm n).thread.nextPc t.currentId = pc + 1 ∧
      ∀ k, (t.runFrame calm (n + k)).thread =
        (runFrom calm proto t.currentId k b (t.runFrame calm n).thread).thread := by
  have hret : isReturn i = false := by
    rw [isReturn, hop]
    rfl
  have hplace : nextPlace pc i = pc + 1 := by
    rw [nextPlace, hop]
    rfl
  rw [← hplace]
  by_cases hfirst : proto.isVararg = true ∧ t.nextPc t.currentId = 0
  · obtain ⟨hvararg, hnext⟩ := hfirst
    obtain ⟨hfunc, hunmarked⟩ := h.entering hvararg hnext
    obtain ⟨j, hj, hprepares⟩ := Option.map_eq_some_iff.1 (hshape.first hvararg)
    obtain ⟨u, hgoes, hruns, hone, hold, -, hlost, hkept⟩ :=
      (h.entersListening hnext hfunc hunmarked).runFrame_vararg hvararg hj hprepares
    have hmidway : u.Midway proto t.currentId true := by
      refine ⟨hruns, fun _ => by rw [hone]; exact Nat.one_ne_zero, ?_⟩
      rcases Nat.lt_or_ge (t.above t.current.func) j.a with hless | hle
      · exact Or.inl (hlost hless)
      · exact Or.inr ⟨rfl, (hkept hle).attends⟩
    cases n with
    | zero =>
      rw [runFrame_of_proto _ h.attends.proto] at hlast
      cases hlast
    | succ n =>
      rw [hgoes] at hlast ⊢
      have hadd : ∀ k, (t.runFrame calm (n + 1 + k)).thread =
          (runFrom calm proto t.currentId (n + k) true u).thread := by
        intro k
        rw [Nat.succ_add, hgoes, thread_execute]
      simp only [hadd, thread_execute]
      rw [getLast?_execute] at hlast
      refine hmidway.runFrom_add hshape ?_ hi hret
      cases hrest : (runFrom calm proto t.currentId n true u).executed.getLast? with
      | none =>
        -- the call is not the instruction that sets the extra arguments apart
        rw [hrest] at hlast
        obtain rfl : 0 = pc := Option.some.inj hlast
        obtain rfl := Option.some.inj (hj.symm.trans hi)
        rw [hop] at hprepares
        cases hprepares
      | some last =>
        rw [hrest] at hlast
        exact hlast
  · have hpast : proto.isVararg = true → t.nextPc t.currentId ≠ 0 :=
      fun hvararg hnext => hfirst ⟨hvararg, hnext⟩
    obtain ⟨u, hbegin, hmidway⟩ := h.beginRun hpast
    simp only [runFrame_of_proto _ h.attends.proto, hbegin] at hlast ⊢
    exact hmidway.runFrom_add hshape hlast hi hret

end Watchful

/-! ## Line events from a place on -/

namespace Reached

/-- A run that goes on reports the lines ahead. -/
theorem lineEvents_runFrom (h : t.Reached proto id trap pc) (hshape : proto.PreparesOnce)
    (steps : Nat) :
    lineEvents (runFrom calm proto id steps trap t).thread.host =
      lineEvents t.host ++ t.linesAhead proto id steps := by
  rw [linesAhead]
  rcases h.heard with hlost | ⟨rfl, hlistens, -⟩
  · rw [hlost, lineEvents_runFrom_of_lost hshape steps h.runs h.past hlost]
    exact (List.append_nil _).symm
  · rw [hlistens.proto, hlistens.runFrom h.runs hshape h.past steps]
    rfl

/-- Such a thread can be run on, unless it has lost its function. -/
theorem watchful (h : t.Reached proto id trap pc) (hnext : t.nextPc id ≠ 0) :
    t.frameProto? t.currentId = none ∨ t.Watchful proto := by
  obtain rfl := h.runs.current
  rcases h.heard with hlost | ⟨-, hlistens, -⟩
  · exact Or.inl hlost
  · obtain ⟨f, p, hf, hp, -⟩ := h.runs.frame
    exact Or.inr ⟨⟨f, p, hf, hp⟩, hlistens.attends, h.runs.awake, fun _ hzero => absurd hzero hnext⟩

/-- So does a run of the frame that begins there. -/
theorem lineEvents_runFrame (h : t.Reached proto t.currentId trap pc) (hshape : proto.PreparesOnce)
    (hnext : t.nextPc t.currentId ≠ 0) (steps : Nat) :
    lineEvents (t.runFrame calm steps).thread.host =
      lineEvents t.host ++ t.linesAhead proto t.currentId steps := by
  rcases h.watchful hnext with hlost | hwatchful
  · rw [runFrame_of_no_proto _ hlost, linesAhead, hlost]
    exact (List.append_nil _).symm
  · obtain ⟨hruns, hplace, hattends⟩ := hwatchful.marked
    have hlistens : (t.onFrame t.currentId (·.setTrap true)).Listens proto t.currentId := by
      rcases h.heard with hlost | ⟨-, hlistens, -⟩
      · rw [hwatchful.attends.proto] at hlost
        cases hlost
      · exact hlistens.onFrame t.currentId (fun _ => rfl) fun _ => rfl
    rw [runFrame_of_proto _ hwatchful.attends.proto, hwatchful.beginRun_onward hnext,
      hlistens.runFrom hruns hshape (fun _ => by rw [hplace]; exact hnext), hplace, linesAhead,
      hwatchful.attends.proto]
    rfl

end Reached

end Thread

end VmInspect
