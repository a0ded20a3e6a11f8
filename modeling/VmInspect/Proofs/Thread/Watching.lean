import VmInspect.Proofs.Thread.Logging

/-!
# Instructions under a hook that logs

This file takes the look at a single instruction apart, and the beginning of a run:

* `Thread.traceExec_eq` — the instruction is charged to the budget; its events are reported unless
  none can be due or the thread was suspended here; and the thread may be suspended.
* `Thread.Look`, `Thread.Opening` — the ways a look and the beginning of a run can go.  Whatever they
  keep is proved by these cases.
* `Thread.reportEvents_calm` — with a calm hook the events of an instruction are some records in the
  log.
* `Thread.reportEvents_logging` — with any other rule the same is reported, and the thread may be
  suspended.
-/

namespace VmInspect

namespace Thread

variable {H : Type}

/-! ## A look, part by part -/

section Parts

variable {W : Type} (run : Callback H W) (t : Thread H W)

/-- The thread with the instruction at a place charged to the budget. -/
def charged (pc : Nat) : Thread H W := (t.onFrame t.currentId (·.setSavedPc (pc + 1))).chargeCount

/-- What comes of the events of an instruction: a suspension, or the instruction itself. -/
def afterEvents (id : Nat) (countDue : Bool) : Except Failure Bool × Thread H W :=
  if t.suspended then
    (.error .yielded,
      (if countDue then { t with countLeft := 1 } else t).onFrame id (·.insertFlags yieldFlag))
  else (.ok true, t)

/-- The look at an instruction, part by part. -/
theorem traceExec_eq {proto : Proto} (hproto : t.frameProto? t.currentId = some proto)
    (hwatch : t.mask.watchesInstructions = true) (pc : Nat) :
    t.traceExec run pc =
      if (!t.countIsDue && !t.mask.line) = true then (.ok true, t.charged pc)
      else if (t.charged pc).current.flags.hookYield then
        (.ok true, (t.charged pc).onFrame t.currentId (·.removeFlags yieldFlag))
      else
        ((t.charged pc).reportEvents run proto pc t.mask t.countIsDue).afterEvents t.currentId
          t.countIsDue := by
  unfold traceExec
  simp only [hproto, hwatch, Bool.not_true, Bool.false_eq_true, if_false]
  rfl

/-- A frame that runs no function is not watched any longer. -/
theorem traceExec_of_no_proto (hproto : t.frameProto? t.currentId = none) (pc : Nat) :
    t.traceExec run pc = (.ok false, t) := by
  unfold traceExec
  simp only [hproto]

theorem watch_of_no_proto (hproto : t.frameProto? t.currentId = none) (trap : Bool) (pc : Nat) :
    t.watch run trap pc = (.ok false, t) := by
  unfold watch
  split
  · exact traceExec_of_no_proto run t hproto pc
  · rfl

/-- When neither lines nor counts are selected, the frame loses its mark. -/
theorem traceExec_of_unwatched {proto : Proto} (hproto : t.frameProto? t.currentId = some proto)
    (hwatch : t.mask.watchesInstructions = false) (pc : Nat) :
    t.traceExec run pc = (.ok false, t.onFrame t.currentId (·.setTrap false)) := by
  unfold traceExec
  simp only [hproto, hwatch, Bool.not_false, if_true]

/-- What the thread is after its events have suspended it. -/
theorem afterEvents_of_suspended (hsuspended : t.suspended = true) (id : Nat) (countDue : Bool) :
    t.afterEvents id countDue =
      (.error .yielded, ({ t with countLeft := if countDue then 1 else t.countLeft } : Thread H W).onFrame
        id (·.insertFlags yieldFlag)) := by
  unfold afterEvents
  rw [if_pos hsuspended]
  cases countDue with
  | true => rfl
  | false => rfl

theorem afterEvents_of_awake (hawake : t.suspended = false) (id : Nat) (countDue : Bool) :
    t.afterEvents id countDue = (.ok true, t) := by
  unfold afterEvents
  rw [hawake, if_neg Bool.false_ne_true]

/-- Report a count event, if it is due. -/
def reportCount (countDue : Bool) : Thread H W :=
  if countDue then t.report run .count none 0 0 else t

theorem reportEvents_eq (proto : Proto) (pc : Nat) (mask : HookMask) (countDue : Bool) :
    t.reportEvents run proto pc mask countDue =
      if mask.line then ((t.protectWindow proto pc).reportCount run countDue).reportLine run proto pc
      else (t.protectWindow proto pc).reportCount run countDue := rfl

/-- The window that is kept ends at the top, or where the frame ends. -/
theorem exists_protectWindow (proto : Proto) (pc : Nat) :
    ∃ top, t.protectWindow proto pc = { t with top := top } ∧ (top = t.top ∨ top = t.current.top) := by
  unfold protectWindow
  split
  · exact ⟨t.top, rfl, Or.inl rfl⟩
  · exact ⟨t.current.top, rfl, Or.inr rfl⟩

/-! ### The ways it can go -/

/-- The ways a look at an instruction can go: what it answers, and the thread afterwards. -/
inductive Look (trap : Bool) (pc : Nat) : Except Failure Bool × Thread H W → Prop where
  /-- instructions are not watched, or the frame runs no function -/
  | idle (hidle : trap = false ∨ t.frameProto? t.currentId = none) : Look trap pc (.ok false, t)
  /-- neither lines nor counts are selected -/
  | unwatched (hwatch : t.mask.watchesInstructions = false) :
      Look trap pc (.ok false, t.onFrame t.currentId (·.setTrap false))
  /-- the instruction is charged, and nothing can be due -/
  | quiet (hwatch : t.mask.watchesInstructions = true)
      (hquiet : (!t.countIsDue && !t.mask.line) = true) : Look trap pc (.ok true, t.charged pc)
  /-- its events were reported before, when the thread was suspended in front of it -/
  | resumed (hbusy : (!t.countIsDue && !t.mask.line) = false)
      (hflag : (t.charged pc).current.flags.hookYield = true) :
      Look trap pc (.ok true, (t.charged pc).onFrame t.currentId (·.removeFlags yieldFlag))
  /-- its events are reported -/
  | reported {proto : Proto} {told : Thread H W} (hproto : t.frameProto? t.currentId = some proto)
      (htold : (t.charged pc).reportEvents run proto pc t.mask t.countIsDue = told)
      (hbusy : (!t.countIsDue && !t.mask.line) = false)
      (hflag : (t.charged pc).current.flags.hookYield = false) (hawake : told.suspended = false) :
      Look trap pc (.ok true, told)
  /-- its events are reported, and suspend the thread -/
  | suspended {proto : Proto} {told : Thread H W} (hproto : t.frameProto? t.currentId = some proto)
      (htold : (t.charged pc).reportEvents run proto pc t.mask t.countIsDue = told)
      (hbusy : (!t.countIsDue && !t.mask.line) = false)
      (hflag : (t.charged pc).current.flags.hookYield = false) (hasleep : told.suspended = true) :
      Look trap pc (.error .yielded,
        ({ told with countLeft := if t.countIsDue then 1 else told.countLeft } : Thread H W).onFrame
          t.currentId (·.insertFlags yieldFlag))

theorem look_traceExec (pc : Nat) : t.Look run true pc (t.traceExec run pc) := by
  cases hproto : t.frameProto? t.currentId with
  | none =>
    rw [traceExec_of_no_proto _ _ hproto]
    exact .idle (Or.inr hproto)
  | some proto =>
    cases hwatch : t.mask.watchesInstructions with
    | false =>
      rw [traceExec_of_unwatched _ _ hproto hwatch]
      exact .unwatched hwatch
    | true =>
      rw [traceExec_eq _ _ hproto hwatch]
      cases hquiet : !t.countIsDue && !t.mask.line with
      | true => exact .quiet hwatch hquiet
      | false =>
        rw [if_neg Bool.false_ne_true]
        cases hflag : (t.charged pc).current.flags.hookYield with
        | true => exact .resumed hquiet hflag
        | false =>
          rw [if_neg Bool.false_ne_true]
          cases hstate : ((t.charged pc).reportEvents run proto pc t.mask t.countIsDue).suspended with
          | false =>
            rw [afterEvents_of_awake _ hstate]
            exact .reported hproto rfl hquiet hflag hstate
          | true =>
            rw [afterEvents_of_suspended _ hstate]
            exact .suspended hproto rfl hquiet hflag hstate

theorem look_watch (trap : Bool) (pc : Nat) : t.Look run trap pc (t.watch run trap pc) := by
  cases trap with
  | false => exact .idle (Or.inl rfl)
  | true => exact t.look_traceExec run pc

/-! ## The beginning of a run, part by part -/

/-- No events are selected, and a run begins without a look at its frame. -/
theorem beginRun_of_no_events (hmask : t.mask.isEmpty = true) : t.beginRun run = (false, t) := by
  unfold beginRun
  rw [if_pos hmask]

theorem beginRun_of_events (hmask : t.mask.isEmpty = false) : t.beginRun run = t.traceCall run := by
  unfold beginRun
  rw [hmask, if_neg Bool.false_ne_true]

theorem traceCall_of_no_proto (hproto : t.frameProto? t.currentId = none) :
    t.traceCall run = (false, t) := by
  unfold traceCall
  simp only [hproto]

/-- The beginning of a run, part by part: the frame is marked, and reported if it is new, now or once
its extra arguments are set apart. -/
theorem traceCall_eq {proto : Proto} (hproto : t.frameProto? t.currentId = some proto) :
    t.traceCall run =
      if (t.onFrame t.currentId (·.setTrap true)).current.savedPc? = some 0 then
        if proto.isVararg then (false, t.onFrame t.currentId (·.setTrap true))
        else if (t.onFrame t.currentId (·.setTrap true)).current.flags.hookYield then
          (true, t.onFrame t.currentId (·.setTrap true))
        else (true, (t.onFrame t.currentId (·.setTrap true)).hookCall run t.currentId)
      else (true, t.onFrame t.currentId (·.setTrap true)) := by
  unfold traceCall
  simp only [hproto]

/-! ### The ways it can go -/

/-- The ways the beginning of a run can go: whether instructions are watched, and the thread
afterwards. -/
inductive Opening : Bool × Thread H W → Prop where
  /-- no events are selected, or the frame runs no function -/
  | idle (hidle : t.mask.isEmpty = true ∨ t.frameProto? t.currentId = none) : Opening (false, t)
  /-- the frame is new, and is reported once its extra arguments are set apart -/
  | vararg {proto : Proto} {marked : Thread H W} (hproto : t.frameProto? t.currentId = some proto)
      (hmarked : t.onFrame t.currentId (·.setTrap true) = marked)
      (hplace : marked.current.savedPc? = some 0) (hvararg : proto.isVararg = true) :
      Opening (false, marked)
  /-- the frame was reported before -/
  | onward {proto : Proto} {marked : Thread H W} (hproto : t.frameProto? t.currentId = some proto)
      (hmarked : t.onFrame t.currentId (·.setTrap true) = marked)
      (hpast : marked.current.savedPc? = some 0 →
        proto.isVararg = false ∧ marked.current.flags.hookYield = true) :
      Opening (true, marked)
  /-- the frame is new, and is reported -/
  | entered {proto : Proto} {marked : Thread H W} (hproto : t.frameProto? t.currentId = some proto)
      (hmarked : t.onFrame t.currentId (·.setTrap true) = marked)
      (hplace : marked.current.savedPc? = some 0) (hvararg : proto.isVararg = false)
      (hflag : marked.current.flags.hookYield = false) :
      Opening (true, marked.hookCall run t.currentId)

theorem opening_traceCall : t.Opening run (t.traceCall run) := by
  cases hproto : t.frameProto? t.currentId with
  | none =>
    rw [traceCall_of_no_proto _ _ hproto]
    exact .idle (Or.inr hproto)
  | some proto =>
    rw [traceCall_eq _ _ hproto]
    by_cases hplace : (t.onFrame t.currentId (·.setTrap true)).current.savedPc? = some 0
    · rw [if_pos hplace]
      cases hvararg : proto.isVararg with
      | true => exact .vararg hproto rfl hplace hvararg
      | false =>
        rw [if_neg Bool.false_ne_true]
        cases hflag : (t.onFrame t.currentId (·.setTrap true)).current.flags.hookYield with
        | true => exact .onward hproto rfl fun _ => ⟨hvararg, hflag⟩
        | false => exact .entered hproto rfl hplace hvararg hflag
    · rw [if_neg hplace]
      exact .onward hproto rfl fun h => absurd h hplace

theorem opening_beginRun : t.Opening run (t.beginRun run) := by
  cases hmask : t.mask.isEmpty with
  | true =>
    rw [beginRun_of_no_events _ _ hmask]
    exact .idle (Or.inl hmask)
  | false =>
    rw [beginRun_of_events _ _ hmask]
    exact t.opening_traceCall run

end Parts

/-! ## A calm hook -/

variable {t t' : Thread H (List HookRecord)} {records : List HookRecord}

theorem Reports.setOldPc (h : Reports t t' records) (pc : Nat) :
    Reports { t with oldPc := pc } { t' with oldPc := pc } records := by
  obtain ⟨m, rfl, hm⟩ := h
  exact ⟨m, rfl, hm⟩

theorem Reports.beginsLine (h : Reports t t' records) (proto : Proto) (pc : Nat) :
    t'.beginsLine proto pc = t.beginsLine proto pc := by
  obtain ⟨m, rfl, -⟩ := h
  rfl

/-- The records of an instruction. -/
def eventsAt (t : Thread H (List HookRecord)) (proto : Proto) (pc : Nat) (mask : HookMask)
    (countDue : Bool) : List HookRecord :=
  (if countDue then t.logged .count none else []) ++
    if (mask.line && t.beginsLine proto pc) = true then t.logged .line (proto.line? pc) else []

theorem reportLine_calm (t : Thread H (List HookRecord)) (proto : Proto) (pc : Nat) :
    Reports { t with oldPc := pc } (t.reportLine calm proto pc)
      (if t.beginsLine proto pc then t.logged .line (proto.line? pc) else []) := by
  unfold reportLine
  split
  · exact (t.report_calm .line (proto.line? pc) 0 0).setOldPc pc
  · exact .refl _

theorem reportCount_calm (t : Thread H (List HookRecord)) (countDue : Bool) :
    Reports t (t.reportCount calm countDue) (if countDue then t.logged .count none else []) := by
  unfold reportCount
  split
  · exact t.report_calm .count none 0 0
  · exact .refl t

theorem logged_protectWindow (t : Thread H (List HookRecord)) (proto : Proto) (pc : Nat)
    (event : HookEvent) (line : Option Int) :
    (t.protectWindow proto pc).logged event line = t.logged event line := by
  obtain ⟨top, hwindow, -⟩ := t.exists_protectWindow proto pc
  rw [hwindow]
  rfl

theorem beginsLine_protectWindow (t : Thread H (List HookRecord)) (proto : Proto) (pc : Nat) :
    (t.protectWindow proto pc).beginsLine proto pc = t.beginsLine proto pc := by
  obtain ⟨top, hwindow, -⟩ := t.exists_protectWindow proto pc
  rw [hwindow]
  rfl

/-- The events of an instruction are reported to a calm hook: the count before the line. -/
theorem reportEvents_calm (t : Thread H (List HookRecord)) (proto : Proto) (pc : Nat)
    (mask : HookMask) (countDue : Bool) :
    Reports
      (if mask.line then { t.protectWindow proto pc with oldPc := pc }
        else t.protectWindow proto pc)
      (t.reportEvents calm proto pc mask countDue) (t.eventsAt proto pc mask countDue) := by
  have hcount := (t.protectWindow proto pc).reportCount_calm countDue
  have hline := ((t.protectWindow proto pc).reportCount calm countDue).reportLine_calm proto pc
  rw [hcount.logged, hcount.beginsLine, logged_protectWindow, beginsLine_protectWindow] at hline
  rw [logged_protectWindow] at hcount
  unfold eventsAt
  rw [reportEvents_eq]
  by_cases hmask : mask.line = true
  · simp only [hmask, if_true, Bool.true_and]
    exact (hcount.setOldPc pc).trans hline
  · simp only [hmask, Bool.false_eq_true, if_false, Bool.false_and, List.append_nil]
    exact hcount

/-- The top and the line that was reached are set, and then some records are logged. -/
theorem exists_reportEvents_calm (t : Thread H (List HookRecord)) (proto : Proto) (pc : Nat)
    (mask : HookMask) (countDue : Bool) :
    ∃ top oldPc, (top = t.top ∨ top = t.current.top) ∧
      Reports { t with top := top, oldPc := oldPc } (t.reportEvents calm proto pc mask countDue)
        (t.eventsAt proto pc mask countDue) := by
  have hreports := t.reportEvents_calm proto pc mask countDue
  obtain ⟨top, hwindow, htop⟩ := t.exists_protectWindow proto pc
  rw [hwindow] at hreports
  split at hreports
  · exact ⟨top, pc, htop, hreports⟩
  · exact ⟨top, t.oldPc, htop, hreports⟩

/-! ## Any rule -/

section Rule

variable (rule : H → HookRecord → Thread H (List HookRecord) → HookAnswer)
  (t : Thread H (List HookRecord)) (left : Int) (suspended : Bool)

theorem reportCount_logging (countDue : Bool) :
    ∃ suspended', (t.tuned left suspended).reportCount (logging rule) countDue =
      (t.reportCount calm countDue).tuned left suspended' := by
  unfold reportCount
  split
  · obtain ⟨suspended', heq, -⟩ := fireHook_logging rule t left suspended .count none 0 0
    exact ⟨suspended', heq⟩
  · exact ⟨suspended, rfl⟩

theorem reportLine_logging (proto : Proto) (pc : Nat) :
    ∃ suspended', (t.tuned left suspended).reportLine (logging rule) proto pc =
      (t.reportLine calm proto pc).tuned left suspended' := by
  obtain ⟨suspended', heq, -⟩ := fireHook_logging rule t left suspended .line (proto.line? pc) 0 0
  have hbegins : (t.tuned left suspended).beginsLine proto pc = t.beginsLine proto pc := rfl
  unfold reportLine
  rw [hbegins]
  by_cases hline : t.beginsLine proto pc = true
  · refine ⟨suspended', ?_⟩
    simp only [hline, if_true]
    exact congrArg (fun t => ({ t with oldPc := pc } : Thread H (List HookRecord))) heq
  · refine ⟨suspended, ?_⟩
    simp only [hline, Bool.false_eq_true, if_false]
    rfl

/-- Whatever the rule answers, the same events are reported. -/
theorem reportEvents_logging (proto : Proto) (pc : Nat) (mask : HookMask) (countDue : Bool) :
    ∃ suspended', (t.tuned left suspended).reportEvents (logging rule) proto pc mask countDue =
      (t.reportEvents calm proto pc mask countDue).tuned left suspended' := by
  have hprotect : (t.tuned left suspended).protectWindow proto pc =
      (t.protectWindow proto pc).tuned left suspended := by
    unfold protectWindow
    split <;> rfl
  obtain ⟨counted, hcount⟩ :=
    reportCount_logging rule (t.protectWindow proto pc) left suspended countDue
  rw [reportEvents_eq, reportEvents_eq, hprotect, hcount]
  split
  · exact reportLine_logging rule _ left counted proto pc
  · exact ⟨counted, rfl⟩

/-- If no count event is due and the thread is suspended, the rule has answered so to the line
event. -/
theorem yields_of_reportEvents {t : Thread H (List HookRecord)} (hawake : t.suspended = false)
    {proto : Proto} {pc : Nat} {mask : HookMask}
    (h : (t.reportEvents (logging rule) proto pc mask false).suspended = true) :
    ∃ hook record u, record.event = .line ∧ rule hook record u = .yield ∧
      u.countLeft = t.countLeft ∧ u.countBudget = t.countBudget := by
  have hprotect : (t.protectWindow proto pc).suspended = false ∧
      (t.protectWindow proto pc).countLeft = t.countLeft ∧
      (t.protectWindow proto pc).countBudget = t.countBudget := by
    obtain ⟨top, hwindow, -⟩ := t.exists_protectWindow proto pc
    rw [hwindow]
    exact ⟨hawake, rfl, rfl⟩
  rw [reportEvents_eq, reportCount, if_neg Bool.false_ne_true] at h
  split at h
  · unfold reportLine at h
    split at h
    · rw [← hprotect.2.1, ← hprotect.2.2]
      exact yields_of_fireHook rule hprotect.1 h
    · exact absurd (hprotect.1.symm.trans h) Bool.false_ne_true
  · exact absurd (hprotect.1.symm.trans h) Bool.false_ne_true

/-- The number of instructions left matters only if count events are selected. -/
theorem countIsDue_tuned (hleft : t.mask.count = true → left = t.countLeft) :
    (t.tuned left suspended).countIsDue = t.countIsDue := by
  by_cases hcount : t.mask.count = true
  · obtain rfl := hleft hcount
    rfl
  · unfold countIsDue
    rw [mask_tuned]
    simp only [hcount, Bool.and_false]

theorem charged_tuned (hleft : t.mask.count = true → left = t.countLeft) (pc : Nat) :
    ∃ left', (t.tuned left suspended).charged pc = (t.charged pc).tuned left' suspended ∧
      (t.mask.count = true → left' = (t.charged pc).countLeft) := by
  by_cases hcount : t.mask.count = true
  · obtain rfl := hleft hcount
    exact ⟨_, rfl, fun _ => rfl⟩
  · exact ⟨_, rfl, fun h => absurd h hcount⟩

end Rule

end Thread

end VmInspect
