import VmInspect.Proofs.Thread.Suspension

/-!
# The mark of a suspension

A frame that a hook has suspended is marked, so that the events of the instruction in front of which it
stands are not reported again.  While the thread is suspended other hooks may be installed, and then
the mark may outlive that instruction.  This file says when it does and what that costs:

* `Thread.suspendedFrom_of_traceExec`, `Thread.SuspendedFrom.looksFor_resume` — a thread that a hook
  suspends is marked, and under the same hook the mark is taken off when the thread is resumed.
* `Thread.Carries.traceExec_marked` — a look at an instruction of a marked frame reports nothing, and
  takes the mark off exactly if there is something to look for.
* `Thread.Carries.watchAll_calm` — a frame without a mark is told about all events that are due.
* `Thread.Carries.watchAll_marked` — a frame with a mark misses those of the first instruction at which
  there is something to look for.
* `Thread.mark_cleared_iff` — so no later event is lost if there is something to look for when the
  thread is resumed.
-/

namespace VmInspect

namespace Thread

variable {H : Type}

/-! ## Marked frames -/

/-- The current frame runs a function, and carries the mark of a suspension or not. -/
structure Carries {W : Type} (t : Thread H W) (proto : Proto) (mark : Bool) : Prop where
  proto : t.frameProto? t.currentId = some proto
  frame : ∃ f, t.frame? t.currentId = some f ∧ f.flags.hookYield = mark

namespace Carries

variable {W : Type} {t : Thread H W} {proto : Proto} {mark : Bool}

/-- The mark is that of the current frame. -/
theorem current (h : t.Carries proto mark) : t.current.flags.hookYield = mark := by
  obtain ⟨f, hf, hmark⟩ := h.frame
  rw [Machine.current_eq hf, hmark]

/-- A change of the current frame that leaves its function alone. -/
theorem onFrame (h : t.Carries proto mark) (change : Frame → Frame) {mark' : Bool}
    (hfunc : ∀ f, (change f).func = f.func)
    (hmark : ∀ f, f.flags.hookYield = mark → (change f).flags.hookYield = mark') :
    (t.onFrame t.currentId change).Carries proto mark' := by
  obtain ⟨f, hf, hflag⟩ := h.frame
  refine ⟨?_, change f, ?_, hmark f hflag⟩
  · rw [currentId_onFrame]
    exact (t.toMachine.frameProto?_modifyFrame t.currentId t.currentId hfunc).trans h.proto
  · rw [currentId_onFrame, frame?_onFrame_self, hf, Option.map_some]

/-- What is installed makes no difference to the mark. -/
theorem setHook (h : t.Carries proto mark) (hook : Option H) (mask : HookMask) (count : Int) :
    (t.setHook hook mask count).Carries proto mark := by
  obtain ⟨f, hf, hflag⟩ := h.frame
  obtain ⟨⟨f', hf', -, -, hflags⟩, hproto, hid⟩ :=
    Machine.exists_frame_armTraps (t.callers t.currentId) hf
  unfold Thread.setHook
  by_cases hinstalls : (hook.isSome && !mask.isEmpty) = true
  · simp only [hinstalls, if_true]
    refine ⟨?_, f', ?_, (congrArg CallFlags.hookYield hflags).trans hflag⟩
    · rw [hid]
      exact hproto.trans h.proto
    · rw [hid]
      exact hf'
  · simp only [hinstalls]
    exact ⟨h.proto, f, hf, hflag⟩

/-- Nor does it when the thread is resumed. -/
theorem resume (h : t.Carries proto mark) : t.resume.Carries proto mark := by
  unfold Thread.resume
  split
  · have hawake : ({ t with suspended := false } : Thread H W).Carries proto mark :=
      ⟨h.proto, h.frame⟩
    refine hawake.onFrame _ (fun f => ?_) fun f hflag => ?_
    · cases f.currentPc? with
      | none => rfl
      | some pc => rfl
    · cases f.currentPc? with
      | none => exact hflag
      | some pc => exact hflag
  · exact h

theorem charged (h : t.Carries proto mark) (pc : Nat) : (t.charged pc).Carries proto mark := by
  have hsaved := h.onFrame (·.setSavedPc (pc + 1)) (fun _ => rfl) fun _ hflag => hflag
  exact ⟨hsaved.proto, hsaved.frame⟩

end Carries

/-- A thread that is resumed is not suspended. -/
theorem suspended_resume {W : Type} (t : Thread H W) : t.resume.suspended = false := by
  unfold resume
  split
  · rfl
  · rename_i h
    rwa [Bool.not_eq_true] at h

/-- Whether there is something to look for at the next instruction. -/
def looksFor {W : Type} (t : Thread H W) : Bool := t.mask.line || t.countIsDue

/-- Where there is something to look for, line or count events are selected. -/
theorem watches_of_looksFor {W : Type} {t : Thread H W} (hlooks : t.looksFor = true) :
    t.mask.watchesInstructions = true := by
  rcases Bool.or_eq_true_iff.1 hlooks with hline | hdue
  · rw [HookMask.watchesInstructions, hline, Bool.true_or]
  · have hcount : t.mask.count = true := (Bool.and_eq_true_iff.1 hdue).2
    rw [HookMask.watchesInstructions, hcount, Bool.or_true]

theorem looksFor_eq_false_iff {W : Type} (t : Thread H W) :
    t.looksFor = false ↔ (!t.countIsDue && !t.mask.line) = true := by
  unfold looksFor
  cases t.countIsDue <;> cases t.mask.line <;> decide

/-! ## Looks at instructions -/

section Looks

variable {W : Type} (run : Callback H W) {t : Thread H W} {proto : Proto} {mark : Bool}

/-- A look at an instruction without anything to look for charges it, if instructions are looked at
at all. -/
theorem Carries.traceExec_of_not_looksFor (h : t.Carries proto mark) (hlooks : t.looksFor = false)
    (pc : Nat) :
    ∃ b t', t.traceExec run pc = (.ok b, t') ∧ t'.Carries proto mark ∧ t'.host = t.host ∧
      t'.suspended = t.suspended ∧
      (t.mask.watchesInstructions = true → t'.countLeft = t.chargeCount.countLeft) := by
  by_cases hwatch : t.mask.watchesInstructions = true
  · rw [traceExec_eq _ _ h.proto hwatch, if_pos ((looksFor_eq_false_iff t).1 hlooks)]
    exact ⟨true, _, rfl, h.charged pc, rfl, rfl, fun _ => rfl⟩
  · have hunwatched := h.onFrame (·.setTrap false) (fun _ => rfl) fun _ hflag => hflag
    rw [Bool.not_eq_true] at hwatch
    rw [traceExec_of_unwatched _ _ h.proto hwatch]
    exact ⟨false, _, rfl, hunwatched, rfl, rfl, fun htrue =>
      absurd (hwatch.symm.trans htrue) Bool.false_ne_true⟩

/-- A look at an instruction with something to look for takes a mark off, or reports the events. -/
theorem Carries.traceExec_of_looksFor (h : t.Carries proto mark) (hlooks : t.looksFor = true)
    (pc : Nat) :
    t.traceExec run pc =
      if mark then (.ok true, (t.charged pc).onFrame t.currentId (·.removeFlags yieldFlag))
      else ((t.charged pc).reportEvents run proto pc t.mask t.countIsDue).afterEvents t.currentId
        t.countIsDue := by
  have hbusy : ¬ (!t.countIsDue && !t.mask.line) = true := by
    rw [← looksFor_eq_false_iff, hlooks]
    intro hfalse
    cases hfalse
  rw [traceExec_eq _ _ h.proto (watches_of_looksFor hlooks), if_neg hbusy, (h.charged pc).current]

/-- The look at an instruction of a marked frame, with any hook: nothing is reported, and the mark is
taken off if there was something to look for.  The instruction is charged to the budget. -/
theorem Carries.traceExec_marked (h : t.Carries proto true) (pc : Nat) :
    ∃ b t', t.traceExec run pc = (.ok b, t') ∧ t'.Carries proto (!t.looksFor) ∧
      t'.host = t.host ∧ t'.suspended = t.suspended ∧
      (t.mask.watchesInstructions = true → t'.countLeft = t.chargeCount.countLeft) := by
  cases hlooks : t.looksFor with
  | false => exact h.traceExec_of_not_looksFor run hlooks pc
  | true =>
    have hid : (t.charged pc).currentId = t.currentId := t.currentId_onFrame t.currentId _
    have hclear := (h.charged pc).onFrame (·.removeFlags yieldFlag)
      (fun _ => rfl) fun f _ => Bool.and_false f.flags.hookYield
    rw [hid] at hclear
    rw [h.traceExec_of_looksFor run hlooks pc, if_pos rfl]
    exact ⟨true, _, rfl, hclear, rfl, rfl, fun _ => rfl⟩

end Looks

section Calm

variable {t t' : Thread H (List HookRecord)} {proto : Proto} {mark : Bool}

theorem Carries.of_reports {records : List HookRecord} (h : t.Carries proto mark)
    (hr : Reports t t' records) : t'.Carries proto mark := by
  have hsame := hr.undisturbed
  obtain ⟨f, hf, hflag⟩ := h.frame
  obtain ⟨f', hf', heq⟩ := hsame.exists_frame hf
  refine ⟨?_, f', ?_, ?_⟩
  · rw [hsame.currentId, hsame.frameProto?]
    exact h.proto
  · rw [hsame.currentId]
    exact hf'
  · rw [(Frame.eq_of_unreported_eq heq).2.2, hflag]

theorem Carries.reportEvents_calm (h : t.Carries proto mark) (p : Proto) (pc : Nat)
    (mask : HookMask) (countDue : Bool) :
    (t.reportEvents calm p pc mask countDue).Carries proto mark := by
  obtain ⟨top, oldPc, -, hreports⟩ := t.exists_reportEvents_calm p pc mask countDue
  have hready : ({ t with top := top, oldPc := oldPc } : Thread H (List HookRecord)).Carries proto
      mark := ⟨h.proto, h.frame⟩
  exact hready.of_reports hreports

/-- The events that are due at an instruction of a function. -/
def dueAt (t : Thread H (List HookRecord)) (proto : Proto) (pc : Nat) : List HookRecord :=
  t.eventsAt proto pc t.mask t.countIsDue

/-- Nothing is due if there is nothing to look for. -/
theorem dueAt_of_not_looksFor (hlooks : t.looksFor = false) (pc : Nat) : t.dueAt proto pc = [] := by
  obtain ⟨hline, hcount⟩ := Bool.or_eq_false_iff.1 hlooks
  unfold dueAt eventsAt
  rw [hline, hcount]
  rfl

theorem eventsAt_charged (t : Thread H (List HookRecord)) (proto : Proto) (pc : Nat) :
    (t.charged pc).eventsAt proto pc t.mask t.countIsDue = t.dueAt proto pc := by
  have hlogged : ∀ event line, (t.charged pc).logged event line = t.logged event line :=
    logged_onFrame t t.currentId _
  have hbegins : (t.charged pc).beginsLine proto pc = t.beginsLine proto pc := rfl
  unfold dueAt eventsAt
  rw [hlogged, hlogged, hbegins]

/-- The events of an instruction are logged, and the thread is not suspended by them. -/
theorem host_reportEvents_calm (t : Thread H (List HookRecord)) (p : Proto) (pc : Nat)
    (mask : HookMask) (countDue : Bool) :
    (t.reportEvents calm p pc mask countDue).host = t.host ++ t.eventsAt p pc mask countDue ∧
      (t.reportEvents calm p pc mask countDue).suspended = t.suspended := by
  obtain ⟨top, oldPc, -, m, heq, -⟩ := t.exists_reportEvents_calm p pc mask countDue
  rw [heq]
  exact ⟨rfl, rfl⟩

/-- The look at an instruction of a frame without a mark, under a calm hook: what is due is
reported. -/
theorem Carries.traceExec_calm (h : t.Carries proto false) (hawake : t.suspended = false) (pc : Nat) :
    ∃ b t', t.traceExec calm pc = (.ok b, t') ∧ t'.Carries proto false ∧
      t'.host = t.host ++ t.dueAt proto pc ∧ t'.suspended = false := by
  cases hlooks : t.looksFor with
  | false =>
    obtain ⟨b, t', hlook, hcarries, hhost, hstays, -⟩ := h.traceExec_of_not_looksFor calm hlooks pc
    refine ⟨b, t', hlook, hcarries, ?_, hstays.trans hawake⟩
    rw [hhost, dueAt_of_not_looksFor hlooks, List.append_nil]
  | true =>
    obtain ⟨hhost, hstays⟩ := (t.charged pc).host_reportEvents_calm proto pc t.mask t.countIsDue
    rw [eventsAt_charged] at hhost
    rw [h.traceExec_of_looksFor calm hlooks pc, if_neg Bool.false_ne_true]
    refine ⟨true, _, ?_, (h.charged pc).reportEvents_calm proto pc t.mask t.countIsDue, hhost,
      hstays.trans hawake⟩
    exact afterEvents_of_awake _ (hstays.trans hawake) _ _

end Calm

/-! ## Suspensions -/

/-- A frame that runs a function carries the mark or not. -/
theorem exists_carries {W : Type} {t : Thread H W} {proto : Proto}
    (hproto : t.frameProto? t.currentId = some proto) : ∃ mark, t.Carries proto mark := by
  cases hf : t.frame? t.currentId with
  | none =>
    rw [Machine.frameProto?, Machine.frameFunction?_eq, hf] at hproto
    cases hproto
  | some f => exact ⟨f.flags.hookYield, hproto, f, hf, rfl⟩

/-- What a hook is told about is not changed by resuming the thread. -/
theorem settings_resume {W : Type} (t : Thread H W) :
    t.resume.mask = t.mask ∧ t.resume.countBudget = t.countBudget ∧
      t.resume.countLeft = t.countLeft := by
  unfold resume
  split
  · exact ⟨rfl, rfl, rfl⟩
  · exact ⟨rfl, rfl, rfl⟩

/-- The events of an instruction are reported in the same frame. -/
theorem currentId_reportEvents_calm (t : Thread H (List HookRecord)) (p : Proto) (pc : Nat)
    (mask : HookMask) (countDue : Bool) :
    (t.reportEvents calm p pc mask countDue).currentId = t.currentId := by
  obtain ⟨top, oldPc, -, hreports⟩ := t.exists_reportEvents_calm p pc mask countDue
  exact hreports.undisturbed.currentId

/-- The second thread is the first one, suspended by a look at an instruction.  A count event that was
due will be due again; else the instruction stays charged to the budget. -/
structure SuspendedFrom {W : Type} (t y : Thread H W) : Prop where
  carries : ∃ proto, y.Carries proto true
  suspended : y.suspended = true
  mask : y.mask = t.mask
  budget : y.countBudget = t.countBudget
  left : y.countLeft = if t.countIsDue then 1 else decrement t.countLeft
  looksFor : t.looksFor = true

/-- A look at an instruction fails only if it suspends the thread. -/
theorem suspendedFrom_of_traceExec
    (rule : H → HookRecord → Thread H (List HookRecord) → HookAnswer)
    {t y : Thread H (List HookRecord)} {pc : Nat} {f : Failure}
    (h : t.traceExec (logging rule) pc = (.error f, y)) : t.SuspendedFrom y := by
  have hlook := t.look_traceExec (logging rule) pc
  rw [h] at hlook
  cases hlook with
  | @suspended proto told hproto htold hbusy _ hasleep =>
    obtain ⟨mark, hcarries⟩ := exists_carries hproto
    obtain ⟨suspended, hevents⟩ := reportEvents_logging rule (t.charged pc)
      (t.charged pc).countLeft (t.charged pc).suspended proto pc t.mask t.countIsDue
    rw [tuned_self, htold] at hevents
    subst hevents
    have hreported := (hcarries.charged pc).reportEvents_calm proto pc t.mask t.countIsDue
    have hid := ((t.charged pc).currentId_reportEvents_calm proto pc t.mask
      t.countIsDue).trans (t.currentId_onFrame t.currentId _)
    have hmarked := hreported.onFrame (·.insertFlags yieldFlag) (fun _ => rfl)
      fun f _ => Bool.or_true f.flags.hookYield
    rw [hid] at hmarked
    obtain ⟨hmask, hbudget, -⟩ :=
      settings_reportEvents_calm (t.charged pc) proto pc t.mask t.countIsDue
    have hlooks : t.looksFor = true := by
      rw [← Bool.not_eq_false, looksFor_eq_false_iff, hbusy]
      exact Bool.false_ne_true
    refine ⟨⟨proto, hmarked.proto, hmarked.frame⟩, hasleep, hmask, hbudget, ?_, hlooks⟩
    show (if t.countIsDue then (1 : Int) else (t.charged pc).countLeft) = _
    cases hdue : t.countIsDue with
    | true => rfl
    | false =>
      show (if t.countIsDue then t.countBudget else decrement t.countLeft) = _
      rw [hdue]
      rfl

/-- If the thread is resumed under the same hook, there is something to look for again, and the mark is
taken off. -/
theorem SuspendedFrom.looksFor_resume {W : Type} {t y : Thread H W} (h : t.SuspendedFrom y) :
    y.resume.looksFor = true := by
  obtain ⟨hmask, -, hleft⟩ := y.settings_resume
  rw [Thread.looksFor, Thread.countIsDue, hmask, hleft, h.mask, h.left]
  rcases Bool.or_eq_true_iff.1 h.looksFor with hline | hdue
  · rw [hline]
    rfl
  · have hcount : t.mask.count = true := (Bool.and_eq_true_iff.1 hdue).2
    rw [hdue, hcount, Bool.or_eq_true]
    exact Or.inr rfl

/-! ## Hooks that are installed meanwhile -/

/-- A hook that is installed, with its events and its budget. -/
structure HookSetting (H : Type) where
  hook : Option H
  mask : HookMask
  count : Int

def install {W : Type} (t : Thread H W) (s : HookSetting H) : Thread H W :=
  t.setHook s.hook s.mask s.count

def installAll {W : Type} (t : Thread H W) (settings : List (HookSetting H)) : Thread H W :=
  settings.foldl install t

theorem Carries.installAll {W : Type} {t : Thread H W} {proto : Proto} {mark : Bool}
    (h : t.Carries proto mark) (settings : List (HookSetting H)) :
    (t.installAll settings).Carries proto mark := by
  induction settings generalizing t with
  | nil => exact h
  | cons s settings ih => exact ih (h.setHook s.hook s.mask s.count)

/-- What is done with a thread: it looks at an instruction, or a hook is installed. -/
inductive WatchStep (H : Type) where
  | look (pc : Nat)
  | install (s : HookSetting H)

def watchStep {W : Type} (run : Callback H W) (t : Thread H W) : WatchStep H → Thread H W
  | .look pc => (t.traceExec run pc).2
  | .install s => t.install s

def watchAll {W : Type} (run : Callback H W) (t : Thread H W) (steps : List (WatchStep H)) :
    Thread H W :=
  steps.foldl (watchStep run) t

/-- The events that are due at a step. -/
def dueIn (t : Thread H (List HookRecord)) (proto : Proto) : WatchStep H → List HookRecord
  | .look pc => t.dueAt proto pc
  | .install _ => []

/-- All events that are due on the way through some steps. -/
def dueAll (proto : Proto) : Thread H (List HookRecord) → List (WatchStep H) → List HookRecord
  | _, [] => []
  | t, step :: steps => t.dueIn proto step ++ dueAll proto (t.watchStep calm step) steps

/-- The events of which a marked frame is told: those that are due after the first instruction at which
there is something to look for. -/
def dueBehindMark (proto : Proto) :
    Thread H (List HookRecord) → List (WatchStep H) → List HookRecord
  | _, [] => []
  | t, .install s :: steps => dueBehindMark proto (t.install s) steps
  | t, .look pc :: steps =>
    if t.looksFor then dueAll proto (t.watchStep calm (.look pc)) steps
    else dueBehindMark proto (t.watchStep calm (.look pc)) steps

variable {t : Thread H (List HookRecord)} {proto : Proto}

/-- The step lemma: a frame without a mark is told what is due, and stays without a mark. -/
theorem Carries.watchStep_calm (h : t.Carries proto false) (hawake : t.suspended = false)
    (step : WatchStep H) :
    (t.watchStep calm step).Carries proto false ∧ (t.watchStep calm step).suspended = false ∧
      (t.watchStep calm step).host = t.host ++ t.dueIn proto step := by
  cases step with
  | look pc =>
    obtain ⟨b, t', hlook, hcarries, hhost, hstays⟩ := h.traceExec_calm hawake pc
    have hstep : t.watchStep calm (.look pc) = t' := congrArg Prod.snd hlook
    rw [hstep]
    exact ⟨hcarries, hstays, hhost⟩
  | install s =>
    refine ⟨h.setHook s.hook s.mask s.count, hawake, ?_⟩
    rw [dueIn, List.append_nil]
    rfl

/-- The run lemma: a frame without a mark is told about all events that are due. -/
theorem Carries.watchAll_calm (h : t.Carries proto false) (hawake : t.suspended = false)
    (steps : List (WatchStep H)) :
    (t.watchAll calm steps).host = t.host ++ t.dueAll proto steps := by
  induction steps generalizing t with
  | nil => exact (List.append_nil _).symm
  | cons step steps ih =>
    obtain ⟨hcarries, hstays, hhost⟩ := h.watchStep_calm hawake step
    refine (ih hcarries hstays).trans ?_
    rw [hhost, List.append_assoc]
    rfl

/-- A frame with a mark misses what is due at the first instruction at which there is something to
look for, and nothing else. -/
theorem Carries.watchAll_marked (h : t.Carries proto true) (hawake : t.suspended = false)
    (steps : List (WatchStep H)) :
    (t.watchAll calm steps).host = t.host ++ t.dueBehindMark proto steps := by
  induction steps generalizing t with
  | nil => exact (List.append_nil _).symm
  | cons step steps ih =>
    cases step with
    | install s => exact ih (h.setHook s.hook s.mask s.count) hawake
    | look pc =>
      obtain ⟨b, t', hlook, hcarries, hhost, hstays, -⟩ := h.traceExec_marked calm pc
      have hstep : t.watchStep calm (.look pc) = t' := congrArg Prod.snd hlook
      have hawake' : t'.suspended = false := hstays.trans hawake
      rw [dueBehindMark, hstep, ← hhost]
      change ((t.watchStep calm (.look pc)).watchAll calm steps).host = _
      rw [hstep]
      by_cases hlooks : t.looksFor = true
      · rw [if_pos hlooks]
        rw [hlooks] at hcarries
        exact hcarries.watchAll_calm hawake' steps
      · rw [if_neg hlooks]
        rw [Bool.not_eq_true] at hlooks
        rw [hlooks] at hcarries
        exact ih hcarries hawake'

/-- **How long a suspension is remembered.**  A hook has suspended a thread, and other hooks were
installed or removed since.  The thread is resumed and looks at the instruction again.  Whatever the
hook that is installed would do, the mark of the suspension is off then if and only if there was
something to look for: line events are selected, or a count event was due.  If the mark is off, all
events of later instructions are reported. -/
theorem mark_cleared_iff (h : t.Carries proto true) (settings : List (HookSetting H))
    (run : Callback H (List HookRecord)) (pc : Nat) :
    let resumed := (t.installAll settings).resume
    let after := (resumed.traceExec run pc).2
    (after.current.flags.hookYield = false ↔ resumed.mask.line = true ∨ resumed.countIsDue = true) ∧
      (after.current.flags.hookYield = false → ∀ steps,
        (after.watchAll calm steps).host = after.host ++ after.dueAll proto steps) := by
  intro resumed after
  have hresumed : resumed.Carries proto true := (h.installAll settings).resume
  obtain ⟨b, t', hlook, hcarries, -, hstays, -⟩ := hresumed.traceExec_marked run pc
  have hafter : after = t' := congrArg Prod.snd hlook
  have hawake : after.suspended = false := by
    rw [hafter, hstays]
    exact suspended_resume _
  rw [← hafter] at hcarries
  refine ⟨?_, fun hclear => ?_⟩
  · rw [hcarries.current, ← Bool.or_eq_true, Bool.not_eq_false']
    rfl
  · rw [hcarries.current] at hclear
    rw [hclear] at hcarries
    exact hcarries.watchAll_calm hawake

/-- Two instructions and a return. -/
def plainProto : Proto where
  code := #[.abc .move 0 1 0, .abc .move 1 0 0, .abc .return0 0 0 0]
  maxStack := 2

/-- A thread that was suspended by the line event of the first instruction. -/
def plainSuspended : Thread Unit (List HookRecord) :=
  ((((Thread.initial []).onMachine fun m =>
    (m.register (.script plainProto #[])).push (.function 0)).enter 1 {} () { line := true }
      0).runFrame (logging fun _ _ _ => .yield) 9).thread

/-- The hook is removed, and one that is told about lines and counts is installed. -/
def plainReinstalled : List (HookSetting Unit) :=
  [⟨none, {}, 0⟩, ⟨some (), { line := true, count := true }, 2⟩]

/-- The thread is resumed and looks at the instruction again. -/
def plainResumed : Thread Unit (List HookRecord) :=
  ((plainSuspended.installAll plainReinstalled).resume.traceExec calm 0).2

/-- The mark is taken off, and the next count event is reported. -/
theorem mark_cleared_iff_reinstalled :
    plainSuspended.Carries plainProto true ∧ plainSuspended.suspended = true ∧
      plainResumed.current.flags.hookYield = false ∧
      plainResumed.dueAll plainProto [.look 1] = [⟨.count, none, 1⟩] ∧
      ∀ steps, (plainResumed.watchAll calm steps).host =
        plainResumed.host ++ plainResumed.dueAll plainProto steps := by
  have hmark : plainSuspended.Carries plainProto true := ⟨rfl, _, rfl, rfl⟩
  have hline : (plainSuspended.installAll plainReinstalled).resume.mask.line = true := by
    decide +kernel
  have hdue : plainResumed.dueAll plainProto [.look 1] = [⟨.count, none, 1⟩] := by decide +kernel
  obtain ⟨hcleared, htold⟩ := mark_cleared_iff hmark plainReinstalled calm 0
  rw [← plainResumed] at hcleared htold
  have hclear := hcleared.2 (Or.inl hline)
  exact ⟨hmark, by decide +kernel, hclear, hdue, htold hclear⟩

/-- With a hook that is only told about counts the mark stays, and a count event that is due at the next
instruction is lost. -/
theorem mark_outlives_instruction :
    let settings := [⟨some (), { count := true }, 2⟩]
    let after := ((plainSuspended.installAll settings).resume.traceExec calm 0).2
    plainSuspended.suspended = true ∧ plainSuspended.current.flags.hookYield = true ∧
      after.current.flags.hookYield = true ∧
      after.dueAt plainProto 1 = [⟨.count, none, 1⟩] ∧
      (after.traceExec calm 1).2.host = after.host := by
  decide +kernel

end Thread

end VmInspect
