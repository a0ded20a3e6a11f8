import VmInspect.Proofs.Thread.Suspension
import VmInspect.Proofs.Lines.Lookup

/-!
# Lines that are reached

A hook that is told about lines is told where a run reaches one: at the first instruction that is
looked at, after each step that does not lead onward, and wherever the line is another one than
before.  This file proves it for a frame in the middle of a run:

* `Proto.lineRecords_eq` — the records on the way through some places, written down one by one.
* `Thread.Listens.look`, `Thread.Tracks.look` — a look at an instruction reports its line exactly if it
  begins there, that is if it is reached.
* `Thread.Tracks.step` — then the next instruction is looked at in view of this one.
* `Thread.Tracks.runFrom` — so the line events of a run are those of the places it executes.
* `Thread.lineEvents_runFrom_of_lost` — a frame that has lost its function reports no line.
-/

namespace VmInspect

/-! ## Lines on the way through places -/

namespace Proto

variable (p : Proto)

/-- Whether a line is reached at a step through places: at the first one, when a step does not lead
onward, and when the line is another one than before. -/
def reachesLine (places : List Nat) (k : Nat) : Bool :=
  k == 0 || decide (places.getD k 0 ≤ places.getD (k - 1) 0) ||
    p.line? (places.getD (k - 1) 0) != p.line? (places.getD k 0)

/-- The line events of a frame on its way through places. -/
def lineRecords (id : Nat) (places : List Nat) : List HookRecord :=
  ((List.range places.length).filter (p.reachesLine places)).map fun k =>
    ⟨.line, p.line? (places.getD k 0), id⟩

/-- The places of a run whose events are looked for: all but the one where the extra arguments are
set apart. -/
def watched (executed : List Nat) : List Nat := if p.isVararg then executed.tail else executed

/-- How many fixed parameters are moved when the extra arguments are set apart. -/
def movedParams : Nat := (p.code[0]?.map Instruction.a).getD 0

/-- Whether a line is reached at a place, after a last one if there was any. -/
def startsLine : Option Nat → Nat → Bool
  | none, _ => true
  | some old, pc => decide (pc ≤ old) || p.line? old != p.line? pc

/-- The line event of a place, if its line is reached. -/
def recordsAt (id : Nat) (last : Option Nat) (pc : Nat) : List HookRecord :=
  if p.startsLine last pc then [⟨.line, p.line? pc, id⟩] else []

/-- The line events on the way through places, one place after the other. -/
def recordsFrom (id : Nat) : Option Nat → List Nat → List HookRecord
  | _, [] => []
  | last, pc :: places => p.recordsAt id last pc ++ recordsFrom id (some pc) places

variable {p}

/-- From the second place on, what is reached depends on the place before. -/
theorem recordsFrom_some (id old : Nat) (places : List Nat) :
    p.recordsFrom id (some old) places =
      ((List.range places.length).filter fun k => p.reachesLine (old :: places) (k + 1)).map fun k =>
        ⟨.line, p.line? (places.getD k 0), id⟩ := by
  induction places generalizing old with
  | nil => rfl
  | cons pc places ih =>
    have hrest : ((List.range places.length).map Nat.succ).filter
        (fun k => p.reachesLine (old :: pc :: places) (k + 1)) =
          ((List.range places.length).filter fun k => p.reachesLine (pc :: places) (k + 1)).map
            Nat.succ := by
      rw [List.filter_map]
      rfl
    rw [recordsFrom, ih pc, List.length_cons, List.range_succ_eq_map, List.filter_cons, hrest]
    have hhead : p.reachesLine (old :: pc :: places) (0 + 1) = p.startsLine (some old) pc := rfl
    rw [hhead, recordsAt]
    split
    · rw [List.map_cons, List.map_map]
      rfl
    · rw [List.map_map]
      rfl

/-- The line events on the way through places can be written down one place after the other. -/
theorem lineRecords_eq (id : Nat) (places : List Nat) :
    p.lineRecords id places = p.recordsFrom id none places := by
  cases places with
  | nil => rfl
  | cons pc places =>
    rw [recordsFrom, recordsFrom_some, lineRecords, List.length_cons, List.range_succ_eq_map,
      List.filter_cons_of_pos rfl, List.filter_map, List.map_cons, List.map_map]
    rfl

end Proto

namespace Thread

variable {H : Type}

/-! ## Line events in a log -/

/-- The line events of a log. -/
def lineEvents (log : List HookRecord) : List HookRecord := log.filter fun r => r.event == .line

theorem lineEvents_append (log log' : List HookRecord) :
    lineEvents (log ++ log') = lineEvents log ++ lineEvents log' :=
  List.filter_append ..

variable {t t' : Thread H (List HookRecord)} {records : List HookRecord} {proto : Proto}
  {id pc : Nat} {trap : Bool} {last : Option Nat}

/-- What a report adds to the line events. -/
theorem Reports.lineEvents (hr : Reports t t' records) :
    Thread.lineEvents t'.host = Thread.lineEvents t.host ++ Thread.lineEvents records := by
  obtain ⟨m, rfl, -⟩ := hr
  exact lineEvents_append _ _

theorem Reports.oldPc (hr : Reports t t' records) : t'.oldPc = t.oldPc := by
  obtain ⟨m, rfl, -⟩ := hr
  rfl

/-- Other events are no line events. -/
theorem lineEvents_logged (t : Thread H (List HookRecord)) {event : HookEvent}
    (hevent : event ≠ .line) (line : Option Int) : lineEvents (t.logged event line) = [] := by
  unfold logged lineEvents
  split
  · rw [List.filter_cons_of_neg, List.filter_nil]
    rw [beq_iff_eq]
    exact hevent
  · rfl

/-- That a frame was entered is no line event. -/
theorem lineEvents_callLogged (t : Thread H (List HookRecord)) (id : Nat) :
    lineEvents (t.callLogged id) = [] := by
  unfold callLogged
  split
  · rfl
  · split
    · refine t.lineEvents_logged ?_ none
      split
      · intro h
        cases h
      · intro h
        cases h
    · rfl

theorem lineEvents_hookCall_calm (t : Thread H (List HookRecord)) (id : Nat) :
    lineEvents (t.hookCall calm id).host = lineEvents t.host := by
  rw [(t.hookCall_calm id).lineEvents, lineEvents_callLogged, List.append_nil]

/-- Nor is a return. -/
theorem lineEvents_returnFrom_calm (t : Thread H (List HookRecord)) (id pc : Nat) :
    lineEvents (t.returnFrom calm id pc).host = lineEvents t.host := by
  have hreturn : ∀ t : Thread H (List HookRecord),
      lineEvents (t.hookReturn calm 0).host = lineEvents t.host := by
    intro t
    rw [hookReturn_eq, host_backToCaller]
    split
    · rw [(t.report_calm .ret none _ 0).lineEvents,
        t.lineEvents_logged (fun h => by cases h), List.append_nil]
    · rfl
  unfold returnFrom popFrame
  simp only
  split
  · rfl
  · split
    · rfl
    · exact hreturn (t.onFrame id (·.setSavedPc (pc + 1)))

/-! ## Threads whose lines are looked at -/

/-- A frame whose lines are reported: it runs its function and was not suspended, and a hook is there
to be told. -/
structure Listens (t : Thread H (List HookRecord)) (proto : Proto) (id : Nat) : Prop where
  proto : t.frameProto? id = some proto
  hook : (t.hook.isSome && t.allowHook) = true
  line : t.mask.line = true
  unmarked : ∀ f, t.frame? id = some f → f.flags.hookYield = false

namespace Listens

/-- A change of a frame that leaves its function and its mark alone. -/
theorem onFrame (h : t.Listens proto id) (j : Nat) {change : Frame → Frame}
    (hfunc : ∀ f, (change f).func = f.func) (hflags : ∀ f, (change f).flags = f.flags) :
    (t.onFrame j change).Listens proto id where
  proto := (t.toMachine.frameProto?_modifyFrame j id hfunc).trans h.proto
  hook := h.hook
  line := h.line
  unmarked f' hf' := by
    have hframe := t.toMachine.frame?_modifyFrame j id change
    rw [show (t.toMachine.modifyFrame j change).frame? id = some f' from hf'] at hframe
    split at hframe
    · obtain ⟨f, hf, rfl⟩ := Option.map_eq_some_iff.1 hframe.symm
      rw [hflags]
      exact h.unmarked f hf
    · exact h.unmarked f' hframe.symm

theorem setSavedPc (h : t.Listens proto id) (j pc : Nat) :
    (t.onFrame j (·.setSavedPc pc)).Listens proto id :=
  h.onFrame j (fun _ => rfl) fun _ => rfl

theorem setOldPc (h : t.Listens proto id) (pc : Nat) :
    ({ t with oldPc := pc } : Thread H (List HookRecord)).Listens proto id :=
  ⟨h.proto, h.hook, h.line, h.unmarked⟩

theorem charged (h : t.Listens proto id) (pc : Nat) : (t.charged pc).Listens proto id := by
  have hsaved := h.setSavedPc t.currentId (pc + 1)
  exact ⟨hsaved.proto, hsaved.hook, hsaved.line, hsaved.unmarked⟩

theorem protectWindow (h : t.Listens proto id) (p : Proto) (pc : Nat) :
    (t.protectWindow p pc).Listens proto id := by
  obtain ⟨top, hwindow, -⟩ := t.exists_protectWindow p pc
  rw [hwindow]
  exact ⟨h.proto, h.hook, h.line, h.unmarked⟩

theorem of_reports (h : t.Listens proto id) (hr : Reports t t' records) :
    t'.Listens proto id := by
  have hsame := hr.undisturbed
  refine ⟨?_, ?_, ?_, ?_⟩
  · rw [hsame.frameProto?]
    exact h.proto
  · obtain ⟨m, rfl, -⟩ := hr
    exact h.hook
  · rw [hr.settings.1]
    exact h.line
  · intro f' hf'
    have hframe := hsame.frame id
    rw [hf', Option.map_some, eq_comm, Option.map_eq_some_iff] at hframe
    obtain ⟨f, hf, heq⟩ := hframe
    rw [(Frame.eq_of_unreported_eq heq.symm).2.2]
    exact h.unmarked f hf

/-- A line event is reported in the frame that runs. -/
theorem logged_line (h : t.Listens proto id) (hid : t.currentId = id) (line : Option Int) :
    t.logged .line line = [⟨.line, line, id⟩] := by
  rw [logged, h.hook, if_pos rfl, hid]

/-- The line events of an instruction. -/
theorem lineEvents_eventsAt (h : t.Listens proto id) (hid : t.currentId = id) (mask : HookMask)
    (hmask : mask.line = true) (pc : Nat) (countDue : Bool) :
    Thread.lineEvents (t.eventsAt proto pc mask countDue) =
      if t.beginsLine proto pc then [⟨.line, proto.line? pc, id⟩] else [] := by
  have hcount : Thread.lineEvents (if countDue then t.logged .count none else []) = [] := by
    split
    · exact t.lineEvents_logged (fun h => by cases h) none
    · rfl
  rw [eventsAt, lineEvents_append, hcount, List.nil_append, hmask, Bool.true_and]
  split
  · rw [h.logged_line hid]
    rfl
  · rfl

end Listens

/-- A look at an instruction reports its line if one begins there, and notes the place. -/
theorem Listens.look (h : t.Listens proto id) (hruns : t.Runs proto id true) (pc : Nat) :
    ∃ t', t.watch calm true pc = (.ok true, t') ∧ t'.Runs proto id true ∧ t'.Listens proto id ∧
      t'.oldPc = pc ∧ lineEvents t'.host = lineEvents t.host ++
        if t.beginsLine proto pc then [⟨.line, proto.line? pc, id⟩] else [] := by
  have hcharged := hruns.charged pc
  have hlistens := h.charged pc
  have hproto : t.frameProto? t.currentId = some proto := by
    rw [hruns.current]
    exact h.proto
  have hwatch : t.mask.watchesInstructions = true := by
    rw [HookMask.watchesInstructions, h.line, Bool.true_or]
  have hunmarked : (t.charged pc).current.flags.hookYield = false := by
    obtain ⟨f, p, hf, -, -⟩ := hcharged.frame
    have hcurrent : (t.charged pc).current = f := by
      refine Machine.current_eq ?_
      rw [hcharged.current]
      exact hf
    rw [hcurrent]
    exact hlistens.unmarked f hf
  have hreports := (t.charged pc).reportEvents_calm proto pc t.mask t.countIsDue
  have hafter := hcharged.reportEvents_calm proto pc t.mask t.countIsDue
  rw [h.line, if_pos rfl] at hreports
  refine ⟨(t.charged pc).reportEvents calm proto pc t.mask t.countIsDue, ?_, hafter, ?_, ?_, ?_⟩
  · rw [watch, if_pos rfl, traceExec_eq _ _ hproto hwatch, h.line, Bool.not_true, Bool.and_false,
      hunmarked]
    simp only [Bool.false_eq_true, if_false]
    exact afterEvents_of_awake _ hafter.awake _ _
  · exact ((hlistens.protectWindow _ _).setOldPc _).of_reports hreports
  · exact hreports.oldPc
  · have hhost : ((t.charged pc).protectWindow proto pc).host = t.host := by
      obtain ⟨top, hwindow, -⟩ := (t.charged pc).exists_protectWindow proto pc
      rw [hwindow]
      rfl
    have hbegins : (t.charged pc).beginsLine proto pc = t.beginsLine proto pc := rfl
    rw [hreports.lineEvents, hlistens.lineEvents_eventsAt hcharged.current _ h.line, hbegins]
    exact congrArg (lineEvents · ++ _) hhost

/-- A thread in front of an instruction that is to be looked at, after a last one if there was
any. -/
structure Tracks (t : Thread H (List HookRecord)) (proto : Proto) (id : Nat) (last : Option Nat) :
    Prop where
  proceeds : t.Proceeds proto id true
  listens : t.Listens proto id
  last : t.nextPc id < proto.code.size →
    t.beginsLine proto (t.nextPc id) = proto.startsLine last (t.nextPc id)

/-- A look at an instruction reports its line if it is reached, and notes the place. -/
theorem Tracks.look (h : t.Tracks proto id last) (hpc : t.nextPc id < proto.code.size) :
    ∃ t', t.watch calm true (t.nextPc id) = (.ok true, t') ∧ t'.Runs proto id true ∧
      t'.Listens proto id ∧ t'.oldPc = t.nextPc id ∧
      lineEvents t'.host = lineEvents t.host ++ proto.recordsAt id last (t.nextPc id) := by
  obtain ⟨t', hlook, hruns, hlistens, hold, hevents⟩ :=
    h.listens.look h.proceeds.runs (t.nextPc id)
  rw [h.last hpc] at hevents
  exact ⟨t', hlook, hruns, hlistens, hold, hevents⟩

/-! ## Runs -/

/-- An instruction that sets no extra arguments apart only leads to another place. -/
theorem execute_of_not_varargPrep {W : Type} (run : Callback H W) (t : Thread H W) (id pc : Nat)
    (trap : Bool) {i : Instruction} (hop : i.opcode ≠ .varargPrep) :
    t.execute run id pc trap i = (trap, t.onFrame id (·.setSavedPc (nextPlace pc i))) := by
  unfold execute nextPlace
  simp only [hop, if_false]

/-- Past its beginning a run sets no extra arguments apart. -/
theorem opcode_ne_varargPrep (hshape : proto.PreparesOnce)
    (hpast : proto.isVararg = true → pc ≠ 0) {i : Instruction} (hi : proto.code[pc]? = some i) :
    i.opcode ≠ .varargPrep := by
  intro hop
  obtain ⟨hlt, rfl⟩ := Array.getElem?_eq_some_iff.1 hi
  obtain ⟨hvararg, hzero⟩ := hshape.only pc hlt hop
  exact hpast hvararg hzero

/-- A place that was looked at before decides where a line begins. -/
theorem beginsLine_eq (hlines : proto.lines.WellFormed) {old : Nat} (hold : t.oldPc = old)
    (hlt : old < proto.code.size) (pc : Nat) :
    t.beginsLine proto pc = proto.startsLine (some old) pc := by
  unfold beginsLine
  simp only [hold, hlt, if_true, LineTable.changed_eq hlines]
  rfl

/-- Where a run under a hook that is told about lines has come past its beginning. -/
theorem Tracks.past (h : t.Tracks proto id last) : proto.isVararg = true → t.nextPc id ≠ 0 := by
  intro hvararg hzero
  cases (h.proceeds.entering hvararg hzero).1

/-- The step lemma: after an instruction was looked at and executed, the next one is looked at in
view of it. -/
theorem Tracks.step (h : t.Tracks proto id last) (hshape : proto.PreparesOnce)
    (hlines : proto.lines.WellFormed) {i : Instruction} (hi : proto.code[t.nextPc id]? = some i)
    (hlook : t.watch calm true (t.nextPc id) = (.ok true, t')) (hruns : t'.Runs proto id true)
    (hlistens : t'.Listens proto id) (hold : t'.oldPc = t.nextPc id) :
    t'.execute calm id (t.nextPc id) true i =
        (true, t'.onFrame id (·.setSavedPc (nextPlace (t.nextPc id) i))) ∧
      (t'.onFrame id (·.setSavedPc (nextPlace (t.nextPc id) i))).Tracks proto id
        (some (t.nextPc id)) := by
  have hgoes := t'.execute_of_not_varargPrep calm id (t.nextPc id) true
    (opcode_ne_varargPrep hshape h.past hi)
  have hnext := h.proceeds.step hshape hi hlook hruns
  rw [hgoes] at hnext
  have hlt : t.nextPc id < proto.code.size := (Array.getElem?_eq_some_iff.1 hi).1
  exact ⟨hgoes, hnext, hlistens.setSavedPc id _, fun _ => beginsLine_eq hlines hold hlt _⟩

/-- The run lemma: the line events of a run are those of the places that it executes. -/
theorem Tracks.runFrom (h : t.Tracks proto id last) (hshape : proto.PreparesOnce)
    (hlines : proto.lines.WellFormed) (steps : Nat) :
    lineEvents (Thread.runFrom calm proto id steps true t).thread.host = lineEvents t.host ++
      proto.recordsFrom id last (Thread.runFrom calm proto id steps true t).executed := by
  induction steps generalizing t last with
  | zero => exact (List.append_nil _).symm
  | succ steps ih =>
    cases hi : proto.code[t.nextPc id]? with
    | none =>
      rw [runFrom_of_none _ hi]
      exact (List.append_nil _).symm
    | some i =>
      have hlt : t.nextPc id < proto.code.size := (Array.getElem?_eq_some_iff.1 hi).1
      obtain ⟨t', hlook, hruns, hlistens, hold, hevents⟩ := h.look hlt
      rw [runFrom_of_ok _ hi hlook, stepOn]
      by_cases hret : isReturn i = true
      · simp only [hret, if_true]
        change lineEvents (t'.returnFrom calm id (t.nextPc id)).host =
          _ ++ (proto.recordsAt id last (t.nextPc id) ++ [])
        rw [lineEvents_returnFrom_calm, hevents, List.append_nil]
      · obtain ⟨hgoes, hnext⟩ := h.step hshape hlines hi hlook hruns hlistens hold
        simp only [hret, Bool.false_eq_true, if_false, hgoes]
        have hrest := ih hnext
        rw [show (t'.onFrame id (·.setSavedPc (nextPlace (t.nextPc id) i))).host = t'.host from rfl,
          hevents, List.append_assoc] at hrest
        exact hrest

/-- A frame that goes to another place runs the same function. -/
theorem frameProto?_setSavedPc {W : Type} (t : Thread H W) (j pc : Nat) :
    (t.onFrame j (·.setSavedPc pc)).frameProto? id = t.frameProto? id := by
  have hfunc : ∀ f : Frame, (f.setSavedPc pc).func = f.func := fun _ => rfl
  exact t.toMachine.frameProto?_modifyFrame j id hfunc

/-- A frame that has lost its function reports only that it returns: what a return leaves alone of what
the callback keeps, a whole run leaves alone. -/
theorem Runs.host_runFrom_of_lost {W Kept : Type} {run : Callback H W} {kept : W → Kept}
    (hreturn : ∀ (t : Thread H W) id pc, kept (t.returnFrom run id pc).host = kept t.host)
    (hshape : proto.PreparesOnce) (steps : Nat) {t : Thread H W} (h : t.Runs proto id trap)
    (hpast : proto.isVararg = true → t.nextPc id ≠ 0) (hlost : t.frameProto? id = none) :
    kept (runFrom run proto id steps trap t).thread.host = kept t.host := by
  induction steps generalizing t trap with
  | zero => rfl
  | succ steps ih =>
    cases hi : proto.code[t.nextPc id]? with
    | none => rw [runFrom_of_none _ hi]; rfl
    | some i =>
      have hlook : t.watch run trap (t.nextPc id) = (.ok false, t) :=
        t.watch_of_no_proto run (by rw [h.current]; exact hlost) trap _
      rw [runFrom_of_ok _ hi hlook, stepOn]
      by_cases hret : isReturn i = true
      · simp only [hret, if_true]
        exact hreturn t id _
      · have hgoes := t.execute_of_not_varargPrep run id (t.nextPc id) false
          (opcode_ne_varargPrep hshape hpast hi)
        simp only [hret, Bool.false_eq_true, if_false, hgoes]
        refine ih (h.unwatched.setSavedPc _) (fun hvararg => ?_) ?_
        · rw [h.nextPc_setSavedPc]
          exact nextPlace_ne_zero hshape hvararg hi
        · rw [frameProto?_setSavedPc]
          exact hlost

/-- A run of a frame that has lost its function reports no line. -/
theorem lineEvents_runFrom_of_lost (hshape : proto.PreparesOnce) (steps : Nat)
    (h : t.Runs proto id trap) (hpast : proto.isVararg = true → t.nextPc id ≠ 0)
    (hlost : t.frameProto? id = none) :
    lineEvents (runFrom calm proto id steps trap t).thread.host = lineEvents t.host :=
  h.host_runFrom_of_lost lineEvents_returnFrom_calm hshape steps hpast hlost

end Thread

end VmInspect
