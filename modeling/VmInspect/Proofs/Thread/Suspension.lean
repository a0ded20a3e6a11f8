import VmInspect.Proofs.Thread.Running

/-!
# Suspension is transparent

A hook may suspend its thread at a line or count event.  This file proves that a thread that is
resumed after each suspension does what it would have done without any:

* `Thread.Spares` — which rules leave the budget alone: all of them if only line events or only count
  events are selected.
* `Thread.traceExec_logging` — at each instruction a logging hook lets the thread go on as a calm hook
  does, or suspends it in a state from which it can be resumed.
* `Thread.Suspends.resume` — a thread that was suspended is resumed in front of the same instruction,
  whose events are not reported again.
* `Thread.drive_logging` — so driving a function to its end executes, logs and leaves behind what a
  single run under a calm hook does.
-/

namespace VmInspect

/-! ## Frames of suspended threads -/

theorem Frame.modifyProgress_eq_self {f : Frame} {change : Progress → Progress}
    (h : ∀ p, f.progress? = some p → change p = p) : f.modifyProgress change = f := by
  obtain ⟨func, top, previous, flags, code, transfer⟩ := f
  cases code with
  | script progress => simp only [modifyProgress, FrameCode.modify, h progress rfl]
  | native => rfl

/-- The mark of a suspension is taken off again. -/
theorem Frame.removeFlags_insertFlags {f : Frame} (h : f.flags.hookYield = false) :
    (f.insertFlags Thread.yieldFlag).removeFlags Thread.yieldFlag = f := by
  obtain ⟨func, top, previous, ⟨hooked, tailCall, hookYield, finalizer, transferred⟩, code, transfer⟩ := f
  simp only at h
  subst h
  simp [Frame.insertFlags, Frame.removeFlags, Thread.yieldFlag, CallFlags.insert, CallFlags.remove]

/-- A frame that was marked and set back to a place. -/
def Frame.rewound (pc : Nat) (f : Frame) : Frame := (f.insertFlags Thread.yieldFlag).setSavedPc pc

namespace Thread

variable {H : Type}

/-! ## Threads that differ in the budget -/

/-- Two threads that are not suspended differ at most in the instructions left up to the next count
event, and only if there are no count events. -/
def Alike (s t : Thread H (List HookRecord)) : Prop :=
  ∃ left, s = t.tuned left false ∧ (t.mask.count = true → left = t.countLeft)

/-- The second thread is the first one, suspended in front of the instruction at a place. -/
structure Suspends (t y : Thread H (List HookRecord)) (proto : Proto) (id pc : Nat) : Prop where
  runs : t.Runs proto id true
  proto : t.frameProto? id = some proto
  frame : ∃ f, t.frame? id = some f ∧ f.savedPc? = some (pc + 1) ∧ f.flags.hookYield = false
  /-- a count event was due here, if there are any -/
  due : t.mask.count = true → t.countLeft = t.countBudget
  suspended : ∃ left, y = (t.onFrame id (·.insertFlags yieldFlag)).tuned left true ∧
    (t.mask.count = true → left = 1)

variable (rule : H → HookRecord → Thread H (List HookRecord) → HookAnswer)
  {s t t' y : Thread H (List HookRecord)} {proto : Proto} {id pc : Nat} {trap : Bool}

/-- A thread that is resumed is set back to the instruction in front of which it was suspended. -/
theorem Suspends.resume_eq (h : t.Suspends y proto id pc) :
    ∃ left, y.resume = (t.onFrame id (Frame.rewound pc)).tuned left false ∧
      (t.mask.count = true → left = 1) := by
  obtain ⟨left, rfl, hleft⟩ := h.suspended
  obtain ⟨f, hf, hpc, -⟩ := h.frame
  refine ⟨left, ?_, hleft⟩
  have hresume : ((t.onFrame id (·.insertFlags yieldFlag)).tuned left true).resume =
      ((t.onFrame id (·.insertFlags yieldFlag)).onFrame
        (t.onFrame id (·.insertFlags yieldFlag)).currentId
        fun f => (f.currentPc?.map f.setSavedPc).getD f).tuned left false := rfl
  rw [hresume, currentId_onFrame, h.runs.current, onFrame_onFrame]
  refine congrArg (fun t => tuned t left false) (onFrame_congr t id fun frame hframe => ?_)
  obtain rfl : f = frame := Option.some.inj (hf.symm.trans hframe)
  have hcurrent : (f.insertFlags yieldFlag).currentPc? = some pc := by
    rw [Frame.currentPc?]
    change f.savedPc?.map (· - 1) = some pc
    rw [hpc]
    rfl
  rw [hcurrent]
  rfl

/-- The frame of a thread that is resumed. -/
theorem Suspends.frame_rewound (h : t.Suspends y proto id pc) :
    ∃ f p, t.frame? id = some f ∧ f.progress? = some p ∧ p.trap = true ∧ p.savedPc = pc + 1 ∧
      f.flags.hookYield = false := by
  obtain ⟨f, hf, hpc, hclear⟩ := h.frame
  obtain ⟨f', p, hf', hp, htrap⟩ := h.runs.frame
  obtain rfl : f = f' := Option.some.inj (hf.symm.trans hf')
  refine ⟨f, p, hf, hp, htrap rfl, ?_, hclear⟩
  rw [Frame.savedPc?, hp] at hpc
  exact Option.some.inj hpc

/-- Line or count events are some events. -/
theorem isEmpty_of_watches {m : HookMask} (hwatch : m.watchesInstructions = true) :
    m.isEmpty = false := by
  rcases Bool.or_eq_true_iff.1 hwatch with hline | hcount
  · exact HookMask.isEmpty_of_selects (show m.selects .line = true from hline)
  · exact HookMask.isEmpty_of_selects (show m.selects .count = true from hcount)

/-- Which masks are meant: one of the two events that can suspend a thread is selected. -/
theorem watches_of_ne {m : HookMask} (hone : m.line ≠ m.count) :
    m.watchesInstructions = true ∧ m.isEmpty = false := by
  obtain ⟨call, ret, line, count⟩ := m
  revert hone
  cases line <;> cases count <;> cases call <;> cases ret <;> decide

/-- A run of a frame that is marked, and was suspended, begins without a report. -/
theorem beginRun_of_marked {W : Type} (run : Callback H W) {t : Thread H W}
    (hmask : t.mask.isEmpty = false) (hproto : t.frameProto? t.currentId = some proto)
    (hmarked : t.onFrame t.currentId (·.setTrap true) = t)
    (hflag : t.current.flags.hookYield = true) (hplace : t.current.savedPc? = some pc)
    (hpc : proto.isVararg = true → pc ≠ 0) : t.beginRun run = (true, t) := by
  rw [beginRun_of_events _ _ hmask, traceCall_eq _ _ hproto]
  simp only [hmarked, hplace, hflag, if_true, Option.some.injEq]
  by_cases hzero : pc = 0
  · have hfixed : proto.isVararg ≠ true := fun hvararg => hpc hvararg hzero
    simp only [hzero, if_true, hfixed, Bool.false_eq_true, if_false]
  · simp only [hzero, if_false]

/-- The run of a thread that is resumed begins at the instruction in front of which it was
suspended, and no call is reported. -/
theorem Suspends.beginRun (h : t.Suspends y proto id pc)
    (hwatch : t.mask.watchesInstructions = true)
    (hpc : proto.isVararg = true → pc ≠ 0) :
    y.resume.frameProto? y.resume.currentId = some proto ∧ y.resume.currentId = id ∧
      y.resume.nextPc id = pc ∧ y.resume.beginRun (logging rule) = (true, y.resume) := by
  obtain ⟨left, hresume, -⟩ := h.resume_eq
  obtain ⟨f, p, hf, hp, htrap, hsaved, hclear⟩ := h.frame_rewound
  have hid : (t.onFrame id (Frame.rewound pc)).currentId = id := by
    rw [currentId_onFrame, h.runs.current]
  have hframe : (t.onFrame id (Frame.rewound pc)).frame? id = some (Frame.rewound pc f) := by
    rw [frame?_onFrame_self, hf, Option.map_some]
  have hprogress : (Frame.rewound pc f).progress? = some { p with savedPc := pc } := by
    rw [Frame.rewound, Frame.setSavedPc, Frame.progress?_modifyProgress]
    change f.progress?.map _ = _
    rw [hp]
    rfl
  have hproto : (t.onFrame id (Frame.rewound pc)).frameProto? id = some proto := by
    have hfunc : ∀ f, (Frame.rewound pc f).func = f.func := fun _ => rfl
    exact (t.toMachine.frameProto?_modifyFrame id id hfunc).trans h.proto
  have hplace : (Frame.rewound pc f).savedPc? = some pc := by
    rw [Frame.savedPc?, hprogress]
    rfl
  have hmarked : (t.onFrame id (Frame.rewound pc)).onFrame id (·.setTrap true) =
      t.onFrame id (Frame.rewound pc) := by
    refine onFrame_eq_self _ _ fun frame hsame => ?_
    obtain rfl : Frame.rewound pc f = frame := Option.some.inj (hframe.symm.trans hsame)
    refine Frame.modifyProgress_eq_self fun q hq => ?_
    obtain rfl : { p with savedPc := pc } = q := Option.some.inj (hprogress.symm.trans hq)
    rw [← htrap]
  rw [hresume]
  refine ⟨?_, hid, ?_, ?_⟩
  · rw [toMachine_tuned, hid]
    exact hproto
  · change ((Machine.frame? (t.onFrame id (Frame.rewound pc)).toMachine id).bind _).getD 0 = pc
    rw [hframe, Option.bind_some, hplace]
    rfl
  · have hcurrent : (t.onFrame id (Frame.rewound pc)).current = Frame.rewound pc f := by
      refine Machine.current_eq ?_
      rw [hid]
      exact hframe
    have hflag : (Frame.rewound pc f).flags.hookYield = true := Bool.or_true _
    have hbegin := beginRun_of_marked calm (t := t.onFrame id (Frame.rewound pc))
      (isEmpty_of_watches hwatch) (hid.symm ▸ hproto) (hid.symm ▸ hmarked) (hcurrent.symm ▸ hflag)
      (hcurrent.symm ▸ hplace) hpc
    rw [beginRun_logging, hbegin]

/-- With one instruction left a count event is due. -/
theorem countIsDue_tuned_one (t : Thread H (List HookRecord)) (suspended : Bool)
    (hcount : t.mask.count = true) : (t.tuned 1 suspended).countIsDue = true := by
  unfold countIsDue
  rw [mask_tuned, hcount]
  rfl

/-- The budget of a thread that is resumed is charged for the instruction once more, with the same
outcome. -/
theorem Suspends.charged_resume (h : t.Suspends y proto id pc)
    (hwatch : t.mask.watchesInstructions = true) :
    ∃ left, y.resume.charged pc = (t.onFrame id (·.insertFlags yieldFlag)).tuned left false ∧
      (t.mask.count = true → left = t.countLeft) ∧
      (!y.resume.countIsDue && !y.resume.mask.line) = false := by
  obtain ⟨left, hresume, hleft⟩ := h.resume_eq
  obtain ⟨f, hf, hpc, -⟩ := h.frame
  have hback : (t.onFrame id (Frame.rewound pc)).onFrame id (·.setSavedPc (pc + 1)) =
      t.onFrame id (·.insertFlags yieldFlag) := by
    rw [onFrame_onFrame]
    refine onFrame_congr t id fun frame hsame => ?_
    obtain rfl : f = frame := Option.some.inj (hf.symm.trans hsame)
    have hplace : (f.insertFlags yieldFlag).savedPc? = some (pc + 1) := hpc
    have hput := (f.insertFlags yieldFlag).setSavedPc_setSavedPc_savedPc? pc
    rw [hplace] at hput
    exact hput
  have hcharged : ((t.onFrame id (Frame.rewound pc)).tuned left false).charged pc =
      (((t.onFrame id (Frame.rewound pc)).onFrame (t.onFrame id (Frame.rewound pc)).currentId
        (·.setSavedPc (pc + 1))).tuned left false).chargeCount := rfl
  rw [hresume, hcharged, currentId_onFrame, h.runs.current, hback]
  refine ⟨_, rfl, fun hcount => ?_, ?_⟩
  · obtain rfl := hleft hcount
    have hdue : ((t.onFrame id (·.insertFlags yieldFlag)).tuned 1 false).countIsDue = true :=
      countIsDue_tuned_one _ false hcount
    rw [hdue, h.due hcount]
    rfl
  · by_cases hcount : t.mask.count = true
    · obtain rfl := hleft hcount
      have hdue : ((t.onFrame id (Frame.rewound pc)).tuned 1 false).countIsDue = true :=
        countIsDue_tuned_one _ false hcount
      rw [hdue]
      rfl
    · have hline : t.mask.line = true := by
        rw [Bool.not_eq_true] at hcount
        rwa [HookMask.watchesInstructions, hcount, Bool.or_false] at hwatch
      have hmask : ((t.onFrame id (Frame.rewound pc)).tuned left false).mask = t.mask := rfl
      rw [hmask, hline, Bool.not_true, Bool.and_false]

/-- The events of the instruction are not reported again, and the thread goes on as if it had not
been suspended. -/
theorem Suspends.traceExec (h : t.Suspends y proto id pc)
    (hwatch : t.mask.watchesInstructions = true)
    (hproto : y.resume.frameProto? y.resume.currentId = some proto)
    (hid : y.resume.currentId = id) (hmask : y.resume.mask = t.mask) :
    ∃ s, y.resume.traceExec (logging rule) pc = (.ok true, s) ∧ Alike s t := by
  obtain ⟨left, hcharged, hleft, hlooks⟩ := h.charged_resume hwatch
  obtain ⟨f, hf, -, hclear⟩ := h.frame
  rw [← hmask] at hwatch
  have hflag : ((t.onFrame id (·.insertFlags yieldFlag)).tuned left false).current.flags.hookYield =
      true := by
    rw [toMachine_tuned, ← h.runs.current]
    rw [← h.runs.current] at hf
    rw [current_onFrame t hf]
    exact Bool.or_true _
  have hoff : (t.onFrame id (·.insertFlags yieldFlag)).onFrame id (·.removeFlags yieldFlag) = t := by
    rw [onFrame_onFrame]
    refine onFrame_eq_self t id fun frame hsame => ?_
    obtain rfl : f = frame := Option.some.inj (hf.symm.trans hsame)
    exact Frame.removeFlags_insertFlags hclear
  refine ⟨t.tuned left false, ?_, left, rfl, hleft⟩
  rw [traceExec_eq _ _ hproto hwatch, hlooks, hcharged, hflag, hid, onFrame_tuned, hoff]
  rfl

/-! ## Rules that spare the budget -/

/-- Within its range the budget is counted down. -/
theorem decrement_eq {n : Int} (hpos : 1 ≤ n) (hword : n < 2147483648) : decrement n = n - 1 := by
  unfold decrement Int.bmod
  have hmod : (n - 1) % ((4294967296 : Nat) : Int) = n - 1 := by omega
  rw [hmod, if_pos (by omega)]

/-- A rule spares the budget of a thread that is told about both lines and counts: it does not suspend
the thread by a line event unless the budget has just been used up as well. -/
structure Spares (rule : H → HookRecord → Thread H (List HookRecord) → HookAnswer)
    (t : Thread H (List HookRecord)) : Prop where
  watches : t.mask.watchesInstructions = true
  /-- the budget is in use, and within its range -/
  inUse : t.mask.line = true → t.mask.count = true →
    1 ≤ t.countLeft ∧ t.countLeft ≤ t.countBudget ∧ t.countBudget < 2147483648
  atCount : t.mask.line = true → t.mask.count = true → ∀ hook record u, record.event = .line →
    rule hook record u = .yield → u.countLeft = u.countBudget

variable {rule}

/-- So does every rule if only one of the two is selected. -/
theorem Spares.of_ne (hone : t.mask.line ≠ t.mask.count) : Spares rule t where
  watches := (watches_of_ne hone).1
  inUse hline hcount := absurd (hline.trans hcount.symm) hone
  atCount hline hcount := absurd (hline.trans hcount.symm) hone

/-- The budget stays in use when an instruction is charged to it. -/
theorem Spares.charges (h : Spares rule t) (hc : t.Charges t') : Spares rule t' := by
  refine ⟨hc.mask ▸ h.watches, fun hline hcount => ?_, hc.mask ▸ h.atCount⟩
  rw [hc.mask] at hline hcount
  obtain ⟨hpos, hle, hword⟩ := h.inUse hline hcount
  rw [hc.budget]
  rcases hc.left with hleft | hleft
  · rw [hleft]
    exact ⟨hpos, hle, hword⟩
  · rw [hleft, chargeCount]
    by_cases hdue : t.countIsDue = true
    · simp only [hdue, if_true]
      omega
    · have hnonzero : decrement t.countLeft ≠ 0 := by
        intro hzero
        rw [countIsDue, hzero, hcount] at hdue
        exact hdue rfl
      rw [decrement_eq hpos (by omega)] at hnonzero
      simp only [hdue, Bool.false_eq_true, if_false]
      rw [decrement_eq hpos (by omega)]
      omega

/-- Where such a rule suspends a thread a count event is due, if they are selected. -/
theorem Spares.due (h : Spares rule t) {left : Int}
    (hleft : t.mask.count = true → left = (t.charged pc).countLeft)
    (hquiet : ¬ (!t.countIsDue && !t.mask.line) = true)
    (hyield : (((t.charged pc).tuned left false).reportEvents (logging rule) proto pc t.mask
      t.countIsDue).suspended = true) (hcount : t.mask.count = true) : t.countIsDue = true := by
  refine Decidable.byContradiction fun hdue => ?_
  rw [Bool.not_eq_true] at hdue
  have hline : t.mask.line = true := by
    rw [hdue, Bool.not_false, Bool.true_and, Bool.not_eq_true', Bool.not_eq_false] at hquiet
    exact hquiet
  rw [hdue] at hyield
  obtain ⟨hook, record, u, hevent, hanswer, hsame, hbudget⟩ :=
    yields_of_reportEvents rule (t := (t.charged pc).tuned left false) rfl hyield
  have hfull := h.atCount hline hcount hook record u hevent hanswer
  rw [hsame, hbudget] at hfull
  obtain ⟨hpos, hle, hword⟩ := h.inUse hline hcount
  have hcharged : (t.charged pc).countLeft = t.countLeft - 1 := by
    rw [← decrement_eq hpos (by omega)]
    change (if t.countIsDue then t.countBudget else decrement t.countLeft) = _
    rw [hdue]
    rfl
  have hback : left = t.countBudget := hfull
  rw [hleft hcount, hcharged] at hback
  omega

variable (rule)

/-! ## One instruction -/

/-- A thread that is suspended after its events were reported can be resumed. -/
theorem suspends_reportEvents (h : t.Runs proto id true) (hproto : t.frameProto? id = some proto)
    (hflag : (t.charged pc).current.flags.hookYield = false)
    (hdue : t.mask.count = true → t.countIsDue = true) {left : Int} :
    ((t.charged pc).reportEvents calm proto pc t.mask t.countIsDue).Suspends
      ((if t.countIsDue then
          { ((t.charged pc).reportEvents calm proto pc t.mask t.countIsDue).tuned left true with
            countLeft := 1 }
        else ((t.charged pc).reportEvents calm proto pc t.mask t.countIsDue).tuned left true).onFrame
          id (·.insertFlags yieldFlag)) proto id pc := by
  obtain ⟨f, p, hf, hp, -⟩ := h.frame
  have hcharged : (t.charged pc).frame? id = some (f.setSavedPc (pc + 1)) := by
    unfold charged
    rw [h.current]
    change (t.onFrame id (·.setSavedPc (pc + 1))).frame? id = _
    rw [frame?_onFrame_self, hf, Option.map_some]
  have hcurrent : (t.charged pc).current = f.setSavedPc (pc + 1) := by
    refine Machine.current_eq ?_
    rw [(h.charged pc).current]
    exact hcharged
  have hsame : (t.charged pc).frameProto? id = t.frameProto? id := by
    have hfunc : ∀ f : Frame, (f.setSavedPc (pc + 1)).func = f.func := fun _ => rfl
    exact t.toMachine.frameProto?_modifyFrame t.currentId id hfunc
  obtain ⟨⟨f', hf', heq⟩, hreported⟩ :=
    frame?_reportEvents_calm hcharged proto pc t.mask t.countIsDue
  obtain ⟨-, hcode, hyield⟩ := Frame.eq_of_unreported_eq heq
  obtain ⟨hmask, hbudget, hcount⟩ :=
    settings_reportEvents_calm (t.charged pc) proto pc t.mask t.countIsDue
  refine ⟨(h.charged pc).reportEvents_calm proto pc t.mask t.countIsDue, ?_, ⟨f', hf', ?_, ?_⟩,
    ?_, ?_⟩
  · rw [hreported, hsame, hproto]
  · rw [Frame.savedPc?, Frame.progress?, hcode]
    change (f.setSavedPc (pc + 1)).savedPc? = _
    rw [Frame.savedPc?_setSavedPc, Frame.savedPc?, hp]
    rfl
  · rw [hyield, ← hcurrent, hflag]
  · intro hselected
    rw [hmask] at hselected
    rw [hcount, hbudget]
    change (if t.countIsDue then t.countBudget else decrement t.countLeft) = t.countBudget
    rw [hdue hselected, if_pos rfl]
  · by_cases hnow : t.countIsDue = true
    · rw [hnow, if_pos rfl]
      exact ⟨1, rfl, fun _ => rfl⟩
    · refine ⟨left, ?_, fun hselected => ?_⟩
      · simp only [hnow, Bool.false_eq_true, if_false]
        rfl
      · rw [hmask] at hselected
        exact absurd (hdue hselected) hnow

/-- At each instruction a logging hook lets the thread go on as a calm hook does, or suspends it in
front of the instruction. -/
theorem traceExec_logging (h : t.Runs proto id true) (hspares : Spares rule t) (hs : Alike s t)
    (pc : Nat) :
    ∃ b t', t.traceExec calm pc = (.ok b, t') ∧
      ((∃ s', s.traceExec (logging rule) pc = (.ok b, s') ∧ Alike s' t') ∨
        (b = true ∧ ∃ y, s.traceExec (logging rule) pc = (.error .yielded, y) ∧
          t'.Suspends y proto id pc)) := by
  obtain ⟨left, rfl, hleft⟩ := hs
  cases hproto : t.frameProto? t.currentId with
  | none =>
    refine ⟨false, t, traceExec_of_no_proto _ _ hproto pc, Or.inl ⟨_, ?_, left, rfl, hleft⟩⟩
    exact traceExec_of_no_proto _ (t.tuned left false) hproto pc
  | some q =>
    obtain rfl : q = proto := by
      refine h.proto q ?_
      rw [← h.current]
      exact hproto
    obtain ⟨left', hcharged, hleft'⟩ := charged_tuned t left false hleft pc
    have hwatch := hspares.watches
    rw [traceExec_eq _ _ hproto hwatch, traceExec_eq _ (t.tuned left false) hproto hwatch,
      countIsDue_tuned t left false hleft, hcharged, toMachine_tuned, toMachine_tuned, mask_tuned]
    by_cases hquiet : (!t.countIsDue && !t.mask.line) = true
    · simp only [hquiet, if_true]
      exact ⟨true, _, rfl, Or.inl ⟨_, rfl, left', rfl, hleft'⟩⟩
    · by_cases hflag : (t.charged pc).current.flags.hookYield = true
      · simp only [hquiet, hflag, if_true, Bool.false_eq_true, if_false]
        exact ⟨true, _, rfl, Or.inl ⟨_, rfl, left', rfl, hleft'⟩⟩
      · simp only [hquiet, hflag, Bool.false_eq_true, if_false]
        obtain ⟨suspended, hevents⟩ :=
          reportEvents_logging rule (t.charged pc) left' false q pc t.mask t.countIsDue
        have hawake := ((h.charged pc).reportEvents_calm q pc t.mask t.countIsDue).awake
        obtain ⟨hmask, -, hcount⟩ :=
          settings_reportEvents_calm (t.charged pc) q pc t.mask t.countIsDue
        refine ⟨true, (t.charged pc).reportEvents calm q pc t.mask t.countIsDue, ?_, ?_⟩
        · exact afterEvents_of_awake _ hawake _ _
        · rw [hevents]
          cases suspended with
          | false =>
            refine Or.inl ⟨_, rfl, left', rfl, fun hselected => ?_⟩
            rw [hmask] at hselected
            rw [hcount]
            exact hleft' hselected
          | true =>
            refine Or.inr ⟨rfl, _, rfl, ?_⟩
            rw [h.current] at hproto ⊢
            rw [Bool.not_eq_true] at hflag
            have hyield : (((t.charged pc).tuned left' false).reportEvents (logging rule) q pc
                t.mask t.countIsDue).suspended = true := by
              rw [hevents]
              rfl
            exact suspends_reportEvents h hproto hflag (hspares.due hleft' hquiet hyield)

/-! ## Driving a thread -/

section Driving

variable {W : Type} (run : Callback H W) (maxSteps : Nat)

/-- Resume a run that was suspended, and again for a number of rounds. -/
def goOn : Nat → Run H W → Run H W
  | 0, r => r
  | rounds + 1, r =>
    if r.ending = .failed .yielded then
      let rest := goOn rounds (r.thread.resume.runFrame run maxSteps)
      { rest with executed := r.executed ++ rest.executed }
    else r

/-- Run the current frame, and resume it after each suspension, for a number of rounds. -/
def drive (t : Thread H W) (rounds : Nat) : Run H W :=
  goOn run maxSteps rounds (t.runFrame run maxSteps)

theorem goOn_execute (rounds pc : Nat) (r : Run H W) :
    goOn run maxSteps rounds (r.execute pc) = (goOn run maxSteps rounds r).execute pc := by
  cases rounds with
  | zero => rfl
  | succ rounds =>
    unfold goOn
    by_cases hyield : r.ending = .failed .yielded
    · have hyield' : (r.execute pc).ending = .failed .yielded := hyield
      rw [if_pos hyield, if_pos hyield']
      rfl
    · have hyield' : (r.execute pc).ending ≠ .failed .yielded := hyield
      rw [if_neg hyield, if_neg hyield']

theorem goOn_stop {ending : RunEnd} (hend : ending ≠ .failed .yielded) (rounds : Nat)
    (t : Thread H W) : goOn run maxSteps rounds (.stop ending t) = .stop ending t := by
  cases rounds with
  | zero => rfl
  | succ rounds =>
    unfold goOn
    exact if_neg hend

theorem goOn_yield (rounds : Nat) (t : Thread H W) :
    goOn run maxSteps (rounds + 1) (.stop (.failed .yielded) t) =
      goOn run maxSteps rounds (t.resume.runFrame run maxSteps) :=
  if_pos rfl

/-- What follows a look at an instruction: the instruction, and the rest of the run. -/
def stepOn (proto : Proto) (id pc : Nat) (i : Instruction) (steps : Nat) (trap : Bool)
    (t : Thread H W) : Run H W :=
  .execute pc <|
    if isReturn i then .stop .returned (t.returnFrom run id pc)
    else runFrom run proto id steps (t.execute run id pc trap i).1 (t.execute run id pc trap i).2

theorem runFrom_of_none {proto : Proto} {id : Nat} {t : Thread H W} {trap : Bool}
    (hi : proto.code[t.nextPc id]? = none) (steps : Nat) :
    runFrom run proto id (steps + 1) trap t = .stop .outOfCode t := by
  unfold nextPc at hi
  unfold runFrom
  simp only [hi]

theorem runFrom_of_ok {proto : Proto} {id : Nat} {t t' : Thread H W} {trap b : Bool}
    {i : Instruction} (hi : proto.code[t.nextPc id]? = some i)
    (hwatch : t.watch run trap (t.nextPc id) = (.ok b, t')) (steps : Nat) :
    runFrom run proto id (steps + 1) trap t = stepOn run proto id (t.nextPc id) i steps b t' := by
  unfold nextPc at hi hwatch
  unfold runFrom
  simp only [hi, hwatch]
  rfl

theorem runFrom_of_error {proto : Proto} {id : Nat} {t t' : Thread H W} {trap : Bool}
    {i : Instruction} {f : Failure} (hi : proto.code[t.nextPc id]? = some i)
    (hwatch : t.watch run trap (t.nextPc id) = (.error f, t')) (steps : Nat) :
    runFrom run proto id (steps + 1) trap t = .stop (.failed f) t' := by
  unfold nextPc at hi hwatch
  unfold runFrom
  simp only [hi, hwatch]

theorem runFrame_of_proto {proto : Proto} {t : Thread H W}
    (hproto : t.frameProto? t.currentId = some proto) (steps : Nat) :
    t.runFrame run steps =
      runFrom run proto t.currentId steps (t.beginRun run).1 (t.beginRun run).2 := by
  unfold runFrame
  simp only [hproto]

theorem runFrame_of_no_proto {t : Thread H W} (hproto : t.frameProto? t.currentId = none)
    (steps : Nat) :
    t.runFrame run steps = .stop (.failed (.runtime "not an interpreted frame")) t := by
  unfold runFrame
  simp only [hproto]

end Driving

/-! ## Whole runs -/

/-- A look at an instruction, or none, under a logging hook. -/
theorem watch_logging (h : t.Runs proto id trap) (hspares : Spares rule t) (hs : Alike s t)
    (pc : Nat) :
    ∃ b t', t.watch calm trap pc = (.ok b, t') ∧ t'.Runs proto id b ∧ t.Charges t' ∧
      ((∃ s', s.watch (logging rule) trap pc = (.ok b, s') ∧ Alike s' t') ∨
        (trap = true ∧ b = true ∧ ∃ y, s.watch (logging rule) trap pc = (.error .yielded, y) ∧
          t'.Suspends y proto id pc)) := by
  obtain ⟨b, t', hcalm, hruns, hcharges⟩ := h.watch_calm pc
  refine ⟨b, t', hcalm, hruns, hcharges, ?_⟩
  cases trap with
  | false =>
    obtain ⟨rfl, rfl⟩ : false = b ∧ t = t' := by simpa [watch] using hcalm
    exact Or.inl ⟨s, rfl, hs⟩
  | true =>
    obtain ⟨b₁, t₁, hcalm₁, hrule⟩ := traceExec_logging rule h hspares hs pc
    have hsame : (Except.ok b, t') = (Except.ok b₁, t₁) := hcalm.symm.trans hcalm₁
    obtain ⟨rfl, rfl⟩ : b = b₁ ∧ t' = t₁ := by simpa using hsame
    rcases hrule with hgoes | hyields
    · exact Or.inl hgoes
    · exact Or.inr ⟨rfl, hyields⟩

/-- Two runs end the same way, have executed the same instructions, and leave the same behind, apart
from the budget. -/
structure Agrees (r' r : Run H (List HookRecord)) : Prop where
  executed : r'.executed = r.executed
  ending : r'.ending = r.ending
  thread : ∃ left, r'.thread = r.thread.tuned left false

theorem Agrees.execute {r' r : Run H (List HookRecord)} (h : Agrees r' r) (pc : Nat) :
    Agrees (r'.execute pc) (r.execute pc) :=
  ⟨congrArg (pc :: ·) h.executed, h.ending, h.thread⟩

/-- A thread that is resumed looks at the instruction in front of which it was suspended, and then
is alike to the thread that was not suspended. -/
theorem Suspends.runFrame_resume (h : t.Suspends y proto id pc)
    (hwatch : t.mask.watchesInstructions = true)
    (hpc : proto.isVararg = true → pc ≠ 0) {i : Instruction} (hi : proto.code[pc]? = some i)
    (steps : Nat) :
    ∃ s, y.resume.runFrame (logging rule) (steps + 1) =
        stepOn (logging rule) proto id pc i steps true s ∧ Alike s t := by
  obtain ⟨hproto, hid, hplace, hbegin⟩ := h.beginRun rule hwatch hpc
  have hmask : y.resume.mask = t.mask := by
    obtain ⟨left, hresume, -⟩ := h.resume_eq
    rw [hresume]
    rfl
  obtain ⟨s, hlook, hs⟩ := h.traceExec rule hwatch hproto hid hmask
  refine ⟨s, ?_, hs⟩
  have hi' : proto.code[y.resume.nextPc id]? = some i := by rw [hplace, hi]
  have hlook' : y.resume.watch (logging rule) true (y.resume.nextPc id) = (.ok true, s) := by
    rw [hplace]
    exact hlook
  rw [runFrame_of_proto _ hproto, hbegin, hid, runFrom_of_ok _ hi' hlook', hplace]

/-- An instruction that both sides execute: what follows it decides, however the run is resumed. -/
theorem Agrees.stepOn {goOn goOn' : Run H (List HookRecord) → Run H (List HookRecord)}
    (hexecute : ∀ r, goOn' (r.execute pc) = (goOn r).execute pc)
    (hstop : ∀ u, goOn (.stop .returned u) = .stop .returned u) {slice steps : Nat} {left : Int}
    {i : Instruction}
    (hrest : ¬ isReturn i = true →
      Agrees (goOn (runFrom (logging rule) proto id slice (t.execute calm id pc trap i).1
            ((t.execute calm id pc trap i).2.tuned left false)))
        (runFrom calm proto id steps (t.execute calm id pc trap i).1
          (t.execute calm id pc trap i).2)) :
    Agrees (goOn' (stepOn (logging rule) proto id pc i slice trap (t.tuned left false)))
      (stepOn calm proto id pc i steps trap t) := by
  unfold Thread.stepOn
  rw [hexecute]
  refine Agrees.execute ?_ _
  by_cases hret : isReturn i = true
  · simp only [hret, if_true]
    rw [hstop, returnFrom_logging]
    exact ⟨rfl, rfl, left, rfl⟩
  · simp only [hret, Bool.false_eq_true, if_false]
    rw [execute_logging]
    exact hrest hret

/-- The run lemma: from threads that are alike on, a run that is resumed after each suspension agrees
with the run under a calm hook. -/
theorem goOn_runFrom_logging (hshape : proto.PreparesOnce) (maxSteps steps : Nat)
    (h : t.Proceeds proto id trap) (hspares : Spares rule t) (hs : Alike s t)
    {slice rounds : Nat} (hslice : steps ≤ slice) (hmax : steps ≤ maxSteps)
    (hends : (runFrom calm proto id steps trap t).ending ≠ .outOfSteps)
    (hrounds : (runFrom calm proto id steps trap t).executed.length ≤ rounds) :
    Agrees (goOn (logging rule) maxSteps rounds (runFrom (logging rule) proto id slice trap s))
      (runFrom calm proto id steps trap t) := by
  induction steps generalizing t s trap slice rounds with
  | zero => exact absurd rfl hends
  | succ steps ih =>
    obtain ⟨slice, rfl⟩ := Nat.exists_eq_succ_of_ne_zero (n := slice) (by omega)
    have hplace : s.nextPc id = t.nextPc id := by
      obtain ⟨left, rfl, -⟩ := hs
      rfl
    cases hi : proto.code[t.nextPc id]? with
    | none =>
      have hi' : proto.code[s.nextPc id]? = none := by rw [hplace, hi]
      rw [runFrom_of_none _ hi, runFrom_of_none _ hi', goOn_stop]
      · obtain ⟨left, rfl, -⟩ := hs
        exact ⟨rfl, rfl, left, rfl⟩
      · intro hfalse
        cases hfalse
    | some i =>
      obtain ⟨b, t', hcalm, hruns, hcharges, hrule⟩ :=
        watch_logging rule h.runs hspares hs (t.nextPc id)
      have hspares' := hspares.charges hcharges
      rw [runFrom_of_ok _ hi hcalm] at hends hrounds ⊢
      -- after the look both sides execute the instruction, and the rest follows by induction
      have hrest : ∀ (s' : Thread H (List HookRecord)) (slice rounds : Nat), Alike s' t' →
          steps ≤ slice →
          (stepOn calm proto id (t.nextPc id) i steps b t').executed.length ≤ rounds + 1 →
          Agrees (goOn (logging rule) maxSteps rounds
              (stepOn (logging rule) proto id (t.nextPc id) i slice b s'))
            (stepOn calm proto id (t.nextPc id) i steps b t') := by
        intro s' slice rounds hs' hslice hrounds
        obtain ⟨left, rfl, hleft⟩ := hs'
        refine Agrees.stepOn rule (goOn_execute _ _ _ _)
          (goOn_stop _ _ (fun hfalse => by cases hfalse) _) fun hret => ?_
        unfold stepOn at hends hrounds
        simp only [hret, Bool.false_eq_true, if_false] at hends hrounds
        obtain ⟨hsame, hbudget, hcount⟩ := settings_execute_calm t' id (t.nextPc id) b i
        refine ih (h.step hshape hi hcalm hruns) (hspares'.charges ⟨hsame, hbudget, Or.inl hcount⟩)
          ⟨left, rfl, ?_⟩ hslice (by omega) hends (Nat.le_of_succ_le_succ hrounds)
        rw [hsame, hcount]
        exact hleft
      rcases hrule with ⟨s', hlook, hs'⟩ | ⟨rfl, rfl, y, hlook, hsuspends⟩
      · have hi' : proto.code[s.nextPc id]? = some i := by rw [hplace, hi]
        rw [← hplace] at hlook
        rw [runFrom_of_ok _ hi' hlook, hplace]
        exact hrest s' slice rounds hs' (by omega) (by omega)
      · have hi' : proto.code[s.nextPc id]? = some i := by rw [hplace, hi]
        rw [← hplace] at hlook
        rw [runFrom_of_error _ hi' hlook]
        obtain ⟨rounds, rfl⟩ := Nat.exists_eq_succ_of_ne_zero (n := rounds) (by
          rintro rfl
          exact Nat.not_succ_le_zero _ hrounds)
        obtain ⟨maxSteps, rfl⟩ := Nat.exists_eq_succ_of_ne_zero (n := maxSteps) (by omega)
        have hpc : proto.isVararg = true → t.nextPc id ≠ 0 := by
          intro hvararg hzero
          cases (h.entering hvararg hzero).1
        obtain ⟨s', hresumed, hs'⟩ := hsuspends.runFrame_resume rule hspares'.watches hpc hi maxSteps
        rw [goOn_yield, hresumed]
        exact hrest s' maxSteps rounds hs' (by omega) hrounds

/-- A run under a calm hook does not fail. -/
theorem ending_runFrom_calm (hshape : proto.PreparesOnce) (steps : Nat)
    (h : t.Proceeds proto id trap) (f : Failure) :
    (runFrom calm proto id steps trap t).ending ≠ .failed f := by
  induction steps generalizing t trap with
  | zero =>
    intro hfalse
    cases hfalse
  | succ steps ih =>
    cases hi : proto.code[t.nextPc id]? with
    | none =>
      rw [runFrom_of_none _ hi]
      intro hfalse
      cases hfalse
    | some i =>
      obtain ⟨b, t', hcalm, hruns, -⟩ := h.runs.watch_calm (t.nextPc id)
      rw [runFrom_of_ok _ hi hcalm]
      unfold stepOn
      by_cases hret : isReturn i = true
      · simp only [hret, if_true]
        intro hfalse
        cases hfalse
      · simp only [hret, Bool.false_eq_true, if_false]
        exact ih (h.step hshape hi hcalm hruns)

/-- A run begins the same way under any rule. -/
theorem Enters.beginRun_logging (h : t.Enters proto) (hspares : Spares rule t) :
    ∃ trap s t', t.beginRun (logging rule) = (trap, s) ∧ t.beginRun calm = (trap, t') ∧
      t'.Proceeds proto t.currentId trap ∧ Spares rule t' ∧ Alike s t' := by
  obtain ⟨hproceeds, hmask, hbudget, hcount⟩ :=
    h.beginRun_calm (isEmpty_of_watches hspares.watches)
  have hself : t.tuned t.countLeft false = t := by
    rw [← h.awake, tuned_self]
  have hbegin := Thread.beginRun_logging rule t t.countLeft false
  rw [hself] at hbegin
  exact ⟨_, _, _, hbegin, rfl, hproceeds, hspares.charges ⟨hmask, hbudget, Or.inl hcount⟩,
    t.countLeft, rfl, fun _ => hcount.symm⟩

/-- Driving a frame that was entered agrees with its run under a calm hook. -/
theorem drive_agrees (hshape : proto.PreparesOnce) (h : t.Enters proto)
    (hone : t.mask.line ≠ t.mask.count) (maxSteps rounds : Nat)
    (hends : (t.runFrame calm maxSteps).ending ≠ .outOfSteps)
    (hrounds : (t.runFrame calm maxSteps).executed.length ≤ rounds) :
    Agrees (t.drive (logging rule) maxSteps rounds) (t.runFrame calm maxSteps) := by
  obtain ⟨trap, s, t', hbegin, hcalm, hproceeds, hspares, hs⟩ := h.beginRun_logging rule (.of_ne hone)
  rw [runFrame_of_proto _ h.proto, hcalm] at hends hrounds
  rw [drive, runFrame_of_proto _ h.proto, hbegin, runFrame_of_proto _ h.proto, hcalm]
  exact goOn_runFrom_logging rule hshape maxSteps maxSteps hproceeds hspares hs (Nat.le_refl _)
    (Nat.le_refl _) hends hrounds

/-- **Suspension is transparent.**  A function is called, and a hook that logs is told about line
events or about count events, and about calls and returns or not.  If the run of the function ends
under a calm hook, then under a hook that answers by any rule the thread, resumed after each
suspension, returns as well: it has executed the same instructions and logged the same events, and
the machine, with its calls, its top and its stack, is the same. -/
theorem drive_logging (hshape : proto.PreparesOnce) {func : Nat} {upvalues : Array Nat}
    (hslot : t.stack[func]?.bind t.function? = some (.script proto upvalues))
    (hfunc : func < t.top) (hawake : t.suspended = false) (flags : CallFlags) (hook : H)
    {mask : HookMask} (hone : mask.line ≠ mask.count) (count : Int) (maxSteps rounds : Nat)
    (hends : ((t.enter func flags hook mask count).runFrame calm maxSteps).ending ≠ .outOfSteps)
    (hrounds :
      ((t.enter func flags hook mask count).runFrame calm maxSteps).executed.length ≤ rounds) :
    let calmRun := (t.enter func flags hook mask count).runFrame calm maxSteps
    let driven := (t.enter func flags hook mask count).drive (logging rule) maxSteps rounds
    driven.result = .ok calmRun.executed.length ∧ driven.executed = calmRun.executed ∧
      driven.thread.host = calmRun.thread.host ∧
      driven.thread.toMachine = calmRun.thread.toMachine := by
  intro calmRun driven
  have henters := enters_enter hslot hfunc hawake flags hook mask count
  have hmask := mask_enter t func flags hook (watches_of_ne hone).2 count
  rw [← hmask] at hone
  have hagrees := drive_agrees rule hshape henters hone maxSteps rounds hends hrounds
  obtain ⟨left, hthread⟩ := hagrees.thread
  refine ⟨?_, hagrees.executed, ?_, ?_⟩
  · have hok : ∀ f, calmRun.ending ≠ .failed f := by
      obtain ⟨hproceeds, -⟩ := henters.beginRun_calm (watches_of_ne hone).2
      intro f
      have hcalmRun := runFrame_of_proto calm henters.proto maxSteps
      rw [show calmRun = _ from hcalmRun]
      exact ending_runFrom_calm hshape maxSteps hproceeds f
    unfold Run.result
    rw [show driven.ending = calmRun.ending from hagrees.ending,
      show driven.executed = calmRun.executed from hagrees.executed]
    cases hending : calmRun.ending with
    | failed f => exact absurd hending (hok f)
    | outOfSteps => rfl
    | outOfCode => rfl
    | returned => rfl
  · rw [show driven.thread = _ from hthread]
    rfl
  · rw [show driven.thread = _ from hthread]
    rfl

/-- A function that keeps extra arguments, jumps forward and jumps back. -/
def hopProto : Proto where
  code := #[.abc .varargPrep 1 0 0, .ofJumpDistance .jump 1, .abc .return0 0 0 0,
    .ofJumpDistance .jump (-2)]
  isVararg := true
  paramCount := 1
  maxStack := 2

/-- A thread with the function and its argument on the stack. -/
def hopThread : Thread Unit (List HookRecord) :=
  (Thread.initial []).onMachine fun m =>
    ((m.register (.script hopProto #[])).push (.function 0)).push .nil

/-- The function is suspended in front of each of its instructions but the first. -/
theorem drive_logging_hop :
    let t := hopThread.enter 1 {} () { call := true, ret := true, count := true } 1
    let calmRun := t.runFrame calm 9
    let driven := t.drive (logging fun _ _ _ => .yield) 9 4
    calmRun.executed = [0, 1, 3, 2] ∧
      calmRun.thread.host.map HookRecord.event = [.call, .count, .count, .count, .ret] ∧
      (t.runFrame (logging fun _ _ _ => .yield) 9).result = .error .yielded ∧
      driven.result = .ok calmRun.executed.length ∧ driven.executed = calmRun.executed ∧
      driven.thread.host = calmRun.thread.host ∧
      driven.thread.toMachine = calmRun.thread.toMachine := by
  have hshape : hopProto.PreparesOnce := ⟨by decide, by decide, by decide⟩
  have hslot : hopThread.stack[1]?.bind hopThread.function? = some (.script hopProto #[]) := rfl
  have hfunc : 1 < hopThread.top := by decide
  have hawake : hopThread.suspended = false := rfl
  have hone : ({ call := true, ret := true, count := true } : HookMask).line ≠
      ({ call := true, ret := true, count := true } : HookMask).count := by decide
  have hexecuted : ((hopThread.enter 1 {} () { call := true, ret := true, count := true }
      1).runFrame calm 9).executed = [0, 1, 3, 2] := rfl
  have hevents : ((hopThread.enter 1 {} () { call := true, ret := true, count := true }
      1).runFrame calm 9).thread.host.map HookRecord.event =
        [.call, .count, .count, .count, .ret] := rfl
  have hyields : ((hopThread.enter 1 {} () { call := true, ret := true, count := true }
      1).runFrame (logging fun _ _ _ => .yield) 9).result = .error .yielded := rfl
  have hends : ((hopThread.enter 1 {} () { call := true, ret := true, count := true }
      1).runFrame calm 9).ending ≠ .outOfSteps := by decide
  have hlength : ((hopThread.enter 1 {} () { call := true, ret := true, count := true }
      1).runFrame calm 9).executed.length ≤ 4 := by decide
  have hdriven := drive_logging (fun _ _ _ => .yield) hshape hslot hfunc hawake {} () hone 1 9 4
    hends hlength
  exact ⟨hexecuted, hevents, hyields, hdriven⟩

end Thread

end VmInspect
