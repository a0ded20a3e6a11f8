import VmInspect.Bytecode.Builder
import VmInspect.Proofs.Thread.YieldMark

/-!
# The budget of a driven thread

Each instruction that is looked at is charged to the budget, and one in front of which the thread was
suspended is looked at twice.  This file says how the two charges add up:

* `Thread.SuspendedFrom.countLeft_look_again` — where a count event was due the second charge makes up
  for the first; where only a line event suspended the thread, the instruction stays charged twice.
* `Thread.goOnFor_runFrom_logging` — under a rule that spares the budget, a run that is resumed after
  each suspension agrees with the run under a calm hook, wherever the two are cut off.
* `Thread.driveFor_logging` — so count events come at the same executed instructions as they would
  without suspensions.
-/

namespace VmInspect

namespace Thread

variable {H : Type}

/-! ## Instructions that are looked at again -/

theorem host_resume {W : Type} (t : Thread H W) : t.resume.host = t.host := by
  unfold resume
  split
  · rfl
  · rfl

/-- The budget after a thread was suspended, was resumed and has looked at the instruction again.
Without a count event the instruction is charged twice, and what is due the second time is not
reported. -/
theorem SuspendedFrom.countLeft_look_again {t y : Thread H (List HookRecord)}
    (h : t.SuspendedFrom y) (run : Callback H (List HookRecord)) (pc : Nat) :
    (y.resume.traceExec run pc).2.host = y.host ∧
      (y.resume.traceExec run pc).2.countLeft =
        if t.countIsDue then t.chargeCount.countLeft else t.chargeCount.chargeCount.countLeft := by
  obtain ⟨proto, hcarries⟩ := h.carries
  obtain ⟨b, t', hlook, -, hhost, -, hleft⟩ := hcarries.resume.traceExec_marked run pc
  obtain ⟨hmask, hbudget, hsame⟩ := y.settings_resume
  have hwatch : y.resume.mask.watchesInstructions = true := by
    rw [hmask, h.mask]
    exact watches_of_looksFor h.looksFor
  have hcharge : y.resume.chargeCount.countLeft =
      ({ t with countLeft := y.countLeft } : Thread H (List HookRecord)).chargeCount.countLeft := by
    unfold chargeCount countIsDue
    rw [hmask, hbudget, hsame, h.mask, h.budget]
  rw [hlook]
  refine ⟨hhost.trans (host_resume y), ?_⟩
  show t'.countLeft = _
  rw [hleft hwatch, hcharge, h.left]
  cases hdue : t.countIsDue with
  | true =>
    have hagain : ({ t with countLeft := 1 } : Thread H (List HookRecord)).countIsDue = true :=
      (Bool.and_eq_true_iff.1 hdue).2
    simp only [if_true, chargeCount, hdue, hagain]
  | false =>
    have hfirst : t.chargeCount = { t with countLeft := decrement t.countLeft } := by
      rw [chargeCount, hdue]
      rfl
    rw [hfirst]
    rfl

/-! ## Driving a thread for a number of instructions -/

section Driving

variable {W : Type} (run : Callback H W)

/-- Resume a run that was suspended, and again for a number of rounds, until it has executed a number
of instructions in all. -/
def goOnFor : Nat → Nat → Run H W → Run H W
  | 0, _, r => r
  | rounds + 1, steps, r =>
    if r.ending = .failed .yielded then
      let left := steps - r.executed.length
      let rest := goOnFor rounds left (r.thread.resume.runFrame run left)
      { rest with executed := r.executed ++ rest.executed }
    else r

/-- Run the current frame, and resume it after each suspension, until it has executed a number of
instructions in all. -/
def driveFor (t : Thread H W) (rounds steps : Nat) : Run H W :=
  goOnFor run rounds steps (t.runFrame run steps)

theorem goOnFor_execute (rounds steps pc : Nat) (r : Run H W) :
    goOnFor run rounds (steps + 1) (r.execute pc) = (goOnFor run rounds steps r).execute pc := by
  cases rounds with
  | zero => rfl
  | succ rounds =>
    have hleft : steps + 1 - (r.execute pc).executed.length = steps - r.executed.length :=
      Nat.add_sub_add_right steps 1 r.executed.length
    unfold goOnFor
    by_cases hyield : r.ending = .failed .yielded
    · have hyield' : (r.execute pc).ending = .failed .yielded := hyield
      rw [if_pos hyield, if_pos hyield', hleft]
      rfl
    · have hyield' : (r.execute pc).ending ≠ .failed .yielded := hyield
      rw [if_neg hyield, if_neg hyield']

theorem goOnFor_stop {ending : RunEnd} (hend : ending ≠ .failed .yielded) (rounds steps : Nat)
    (t : Thread H W) : goOnFor run rounds steps (.stop ending t) = .stop ending t := by
  cases rounds with
  | zero => rfl
  | succ rounds =>
    unfold goOnFor
    exact if_neg hend

theorem goOnFor_yield (rounds steps : Nat) (t : Thread H W) :
    goOnFor run (rounds + 1) steps (.stop (.failed .yielded) t) =
      goOnFor run rounds steps (t.resume.runFrame run steps) :=
  if_pos rfl

end Driving

variable (rule : H → HookRecord → Thread H (List HookRecord) → HookAnswer)
  {s t t' : Thread H (List HookRecord)} {proto : Proto} {id : Nat} {trap : Bool}

/-- The run lemma: from threads that are alike on, and wherever they are cut off, a run that is resumed
after each suspension agrees with the run under a calm hook. -/
theorem goOnFor_runFrom_logging (hshape : proto.PreparesOnce) (steps : Nat)
    (h : t.Proceeds proto id trap) (hspares : Spares rule t) (hs : Alike s t) {rounds : Nat}
    (hrounds : steps ≤ rounds) :
    Agrees (goOnFor (logging rule) rounds steps (runFrom (logging rule) proto id steps trap s))
      (runFrom calm proto id steps trap t) := by
  induction steps generalizing t s trap rounds with
  | zero =>
    obtain ⟨left, rfl, -⟩ := hs
    show Agrees (goOnFor (logging rule) rounds 0 (.stop .outOfSteps (t.tuned left false)))
      (.stop .outOfSteps t)
    rw [goOnFor_stop]
    · exact ⟨rfl, rfl, left, rfl⟩
    · intro hfalse
      cases hfalse
  | succ steps ih =>
    have hplace : s.nextPc id = t.nextPc id := by
      obtain ⟨left, rfl, -⟩ := hs
      rfl
    cases hi : proto.code[t.nextPc id]? with
    | none =>
      have hi' : proto.code[s.nextPc id]? = none := by rw [hplace, hi]
      rw [runFrom_of_none _ hi, runFrom_of_none _ hi', goOnFor_stop]
      · obtain ⟨left, rfl, -⟩ := hs
        exact ⟨rfl, rfl, left, rfl⟩
      · intro hfalse
        cases hfalse
    | some i =>
      have hi' : proto.code[s.nextPc id]? = some i := by rw [hplace, hi]
      obtain ⟨b, t', hcalm, hruns, hcharges, hrule⟩ :=
        watch_logging rule h.runs hspares hs (t.nextPc id)
      have hspares' := hspares.charges hcharges
      rw [runFrom_of_ok _ hi hcalm]
      -- after the look both sides execute the instruction, and the rest follows by induction
      have hrest : ∀ (s' : Thread H (List HookRecord)) (rounds : Nat), Alike s' t' →
          steps ≤ rounds →
          Agrees (goOnFor (logging rule) rounds (steps + 1)
              (stepOn (logging rule) proto id (t.nextPc id) i steps b s'))
            (stepOn calm proto id (t.nextPc id) i steps b t') := by
        intro s' rounds hs' hrounds
        obtain ⟨left, rfl, hleft⟩ := hs'
        refine Agrees.stepOn rule (goOnFor_execute _ _ _ _)
          (goOnFor_stop _ (fun hfalse => by cases hfalse) _ _) fun hret => ?_
        obtain ⟨hsame, hbudget, hcount⟩ := settings_execute_calm t' id (t.nextPc id) b i
        refine ih (h.step hshape hi hcalm hruns) (hspares'.charges ⟨hsame, hbudget, Or.inl hcount⟩)
          ⟨left, rfl, ?_⟩ hrounds
        rw [hsame, hcount]
        exact hleft
      rw [← hplace] at hrule
      rcases hrule with ⟨s', hlook, hs'⟩ | ⟨rfl, rfl, y, hlook, hsuspends⟩
      · rw [runFrom_of_ok _ hi' hlook, hplace]
        exact hrest s' rounds hs' (Nat.le_of_succ_le hrounds)
      · rw [runFrom_of_error _ hi' hlook]
        rw [hplace] at hsuspends
        obtain ⟨rounds, rfl⟩ := Nat.exists_eq_succ_of_ne_zero (n := rounds) (by omega)
        have hpc : proto.isVararg = true → t.nextPc id ≠ 0 := by
          intro hvararg hzero
          cases (h.entering hvararg hzero).1
        obtain ⟨s', hresumed, hs'⟩ := hsuspends.runFrame_resume rule hspares'.watches hpc hi steps
        rw [goOnFor_yield, hresumed]
        exact hrest s' rounds hs' (Nat.le_of_succ_le_succ hrounds)

/-- Driving a frame that was entered agrees with its run under a calm hook, wherever the two are cut
off. -/
theorem driveFor_agrees (hshape : proto.PreparesOnce) (h : t.Enters proto)
    (hspares : Spares rule t) {rounds steps : Nat} (hrounds : steps ≤ rounds) :
    Agrees (t.driveFor (logging rule) rounds steps) (t.runFrame calm steps) := by
  obtain ⟨trap, s, t', hbegin, hcalm, hproceeds, hspares', hs⟩ := h.beginRun_logging rule hspares
  rw [driveFor, runFrame_of_proto _ h.proto, hbegin, runFrame_of_proto _ h.proto, hcalm]
  exact goOnFor_runFrom_logging rule hshape steps hproceeds hspares' hs hrounds

/-- A function that is called with a budget that is in use, under a hook that is told about lines and
counts. -/
theorem spares_enter (t : Thread H (List HookRecord)) (func : Nat) (flags : CallFlags) (hook : H)
    {mask : HookMask} (hline : mask.line = true) {budget : Int} (hpos : 1 ≤ budget)
    (hword : budget < 2147483648)
    (hrule : ∀ hook record u, record.event = .line → rule hook record u = .yield →
      u.countLeft = u.countBudget) : Spares rule (t.enter func flags hook mask budget) := by
  have hwatch : mask.watchesInstructions = true := by
    rw [HookMask.watchesInstructions, hline, Bool.true_or]
  refine ⟨?_, fun _ _ => ⟨hpos, Int.le_refl _, hword⟩, fun _ _ => hrule⟩
  rw [mask_enter t func flags hook (isEmpty_of_watches hwatch)]
  exact hwatch

/-- **Each executed instruction is charged once**, by a rule that spares the budget.  A function is
called, and a hook that logs is told about line and count events.  Its rule suspends the thread at any
count events, and at line events where the budget has just been used up as well.  Then however many
instructions are executed, the thread that is resumed after each suspension and the one whose hook
never suspends it have executed the same instructions and logged the same events: count events come at
the same instructions. -/
theorem driveFor_logging (hshape : proto.PreparesOnce) {func : Nat} {upvalues : Array Nat}
    (hslot : t.stack[func]?.bind t.function? = some (.script proto upvalues))
    (hfunc : func < t.top) (hawake : t.suspended = false) (flags : CallFlags) (hook : H)
    {mask : HookMask} (hline : mask.line = true) {budget : Int} (hpos : 1 ≤ budget)
    (hword : budget < 2147483648)
    (hrule : ∀ hook record u, record.event = .line → rule hook record u = .yield →
      u.countLeft = u.countBudget) {rounds steps : Nat} (hrounds : steps ≤ rounds) :
    let calmRun := (t.enter func flags hook mask budget).runFrame calm steps
    let driven := (t.enter func flags hook mask budget).driveFor (logging rule) rounds steps
    driven.ending = calmRun.ending ∧ driven.executed = calmRun.executed ∧
      driven.thread.host = calmRun.thread.host ∧
      driven.thread.toMachine = calmRun.thread.toMachine := by
  intro calmRun driven
  have henters := enters_enter hslot hfunc hawake flags hook mask budget
  have hspares := spares_enter rule t func flags hook hline hpos hword hrule
  have hagrees : Agrees driven calmRun := driveFor_agrees rule hshape henters hspares hrounds
  obtain ⟨left, hthread⟩ := hagrees.thread
  refine ⟨hagrees.ending, hagrees.executed, ?_, ?_⟩
  · rw [hthread]
    rfl
  · rw [hthread]
    rfl

/-- Four instructions on three lines. -/
def steppingProto : Proto :=
  (((((Builder.empty.withLines 1 3).emit (.abc .move 0 1 0) 1).emit (.abc .move 1 0 0) 2).emit
    (.abc .move 0 1 0) 2).emit (.abc .return0 0 0 0) 3).build

/-- A thread with the function in its first slot. -/
def steppingThread : Thread Unit (List HookRecord) :=
  (Thread.initial []).onMachine fun m =>
    (m.register (.script steppingProto #[])).push (.function 0)

/-- Suspend where the budget has just been used up. -/
def atFullBudget (_ : Unit) (_ : HookRecord) (t : Thread Unit (List HookRecord)) : HookAnswer :=
  if t.countLeft = t.countBudget then .yield else .proceed

/-- The function is suspended in front of its second and its last instruction. -/
theorem driveFor_logging_stepping :
    let t := steppingThread.enter 1 {} () { line := true, count := true } 2
    let calmRun := t.runFrame calm 9
    let driven := t.driveFor (logging atFullBudget) 9 9
    calmRun.executed = [0, 1, 2, 3] ∧
      calmRun.thread.host.map HookRecord.event = [.line, .count, .line, .count, .line] ∧
      (t.runFrame (logging atFullBudget) 9).executed = [0] ∧
      (t.runFrame (logging atFullBudget) 9).ending = .failed .yielded ∧
      driven.ending = calmRun.ending ∧ driven.executed = calmRun.executed ∧
      driven.thread.host = calmRun.thread.host ∧
      driven.thread.toMachine = calmRun.thread.toMachine := by
  have hshape : steppingProto.PreparesOnce := ⟨by decide, by decide, by decide⟩
  have hslot : steppingThread.stack[1]?.bind steppingThread.function? =
      some (.script steppingProto #[]) := rfl
  have hrule : ∀ hook record u, record.event = HookEvent.line →
      atFullBudget hook record u = .yield → u.countLeft = u.countBudget := by
    intro hook record u _ hyield
    unfold atFullBudget at hyield
    split at hyield
    · assumption
    · cases hyield
  have hdriven := driveFor_logging atFullBudget hshape hslot (by decide) rfl {} ()
    (show ({ line := true, count := true } : HookMask).line = true from rfl)
    (show (1 : Int) ≤ 2 by decide) (by decide) hrule (Nat.le_refl 9)
  exact ⟨by decide +kernel, by decide +kernel, by decide +kernel, by decide +kernel, hdriven⟩

/-- Suspend at the first event. -/
def atFirstEvent (_ : Unit) (_ : HookRecord) (t : Thread Unit (List HookRecord)) : HookAnswer :=
  if t.host.isEmpty then .yield else .proceed

/-- A line event alone suspends the function in front of its first instruction, which is charged twice.
Then the count event of the second instruction comes at the third one, and that of the last one does
not come at all. -/
theorem line_suspension_charged_twice :
    let t := steppingThread.enter 1 {} () { line := true, count := true } 2
    let calmRun := t.runFrame calm 9
    let driven := t.drive (logging atFirstEvent) 9 9
    steppingProto.PreparesOnce ∧ calmRun.ending = .returned ∧ driven.ending = .returned ∧
      driven.executed = calmRun.executed ∧
      calmRun.thread.host.map HookRecord.event = [.line, .count, .line, .count, .line] ∧
      driven.thread.host.map HookRecord.event = [.line, .line, .count, .line] :=
  ⟨⟨by decide, by decide, by decide⟩, by decide +kernel⟩

end Thread

end VmInspect
