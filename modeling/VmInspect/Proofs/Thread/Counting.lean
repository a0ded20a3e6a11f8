import VmInspect.Proofs.Thread.Entry
import VmInspect.Proofs.Thread.YieldMark

/-!
# Instructions that are counted

A hook that is told about counts is told each time its budget is used up, and the budget begins anew.
This file follows the countdown, for a frame in the middle of a run, under a hook that logs each event
with the place where the frame stands:

* `Thread.host_report_stamping` — an event is logged with the place of the current frame.
* `Thread.Budgeted.charged` — how much of the budget is left after a number of instructions.
* `Thread.Counting.look` — a look at an instruction reports a count exactly if its number is a multiple
  of the budget, and its line, if one is reached, after that.
* `Thread.Counting.runFrom` — so the events of a run are those of the numbers of its instructions.
-/

namespace VmInspect

/-- An event and the place of the frame in which it is reported. -/
structure Stamp where
  record : HookRecord
  place : Option Nat
deriving DecidableEq, Repr

namespace Machine

/-- What is noted in the frames does not move the current one. -/
theorem Undisturbed.currentPc? {m m' : Machine} (h : m.Undisturbed m') :
    m'.current.currentPc? = m.current.currentPc? := by
  have hframe := h.frame m.currentId
  cases hf : m.frame? m.currentId with
  | none =>
    rw [hf, Option.map_none, Option.map_eq_none_iff, ← h.currentId] at hframe
    rw [frame?] at hframe hf
    rw [current, frameAt, hframe, current, frameAt, hf]
  | some f =>
    obtain ⟨f', hf', heq⟩ := h.exists_frame hf
    rw [← h.currentId] at hf'
    rw [current_eq hf', current_eq hf, Frame.currentPc?, Frame.savedPc?, Frame.progress?,
      (Frame.eq_of_unreported_eq heq).2.1]
    rfl

end Machine

namespace Thread

variable {H : Type}

/-! ## Events with their places -/

/-- A callback that logs each event with its place, and never suspends. -/
def stamping : Callback H (List Stamp) := noting fun record m => ⟨record, m.current.currentPc?⟩

/-- Apart from the places it is told what a hook logs. -/
theorem follows_stamping : Follows (H := H) (List.map Stamp.record) stamping calm :=
  follows_noting _ Stamp.record

/-- The thread as a hook that logs has it. -/
def unstamped (t : Thread H (List Stamp)) : Thread H (List HookRecord) :=
  t.mapHost (List.map Stamp.record)

/-- The events of instructions in a log. -/
def stepStamps (log : List Stamp) : List Stamp := log.filter fun s => mayYield s.record.event

theorem stepStamps_append (log log' : List Stamp) :
    stepStamps (log ++ log') = stepStamps log ++ stepStamps log' := List.filter_append ..

variable {t t' : Thread H (List Stamp)} {proto : Proto} {id : Nat}

/-- What is noted in a frame for a report does not move it. -/
theorem currentPc?_beginReport {W : Type} (t : Thread H W) (first count : Nat) :
    (t.beginReport first count).current.currentPc? = t.current.currentPc? := by
  have hid : (t.beginReport first count).currentId = t.currentId :=
    Machine.currentId_modifyFrame _ t.currentId _
  have hframe : (t.beginReport first count).frame? t.currentId =
      (t.frame? t.currentId).map fun f => { f with
        top := max f.top (t.reportTop + Machine.minStack)
        transfer := if count = 0 then f.transfer else ⟨first, count⟩ }.insertFlags
          (reportFlags count) :=
    Machine.frame?_modifyFrame_self _ t.currentId _
  cases hf : t.frame? t.currentId with
  | none =>
    rw [hf, Option.map_none] at hframe
    rw [Machine.frame?] at hframe hf
    rw [Machine.current, Machine.frameAt, hid, hframe, Machine.current, Machine.frameAt, hf]
  | some f =>
    rw [hf, Option.map_some, ← hid] at hframe
    rw [Machine.current_eq hframe, Machine.current_eq hf]
    rfl

/-- What a report logs. -/
theorem host_report_stamping (t : Thread H (List Stamp)) (event : HookEvent) (line : Option Int)
    (first count : Nat) :
    (t.report stamping event line first count).host = t.host ++
      if t.hook.isSome && t.allowHook then
        [⟨⟨event, line, t.currentId⟩, t.current.currentPc?⟩] else [] := by
  unfold report fireHook
  cases hhook : t.hook with
  | none =>
    simp only [Option.isSome_none, Bool.false_and, Bool.false_eq_true, if_false, List.append_nil]
  | some hook =>
    cases hallow : t.allowHook with
    | false =>
      simp only [Option.isSome_some, Bool.and_false, Bool.false_eq_true, if_false, List.append_nil]
    | true =>
      simp only [Option.isSome_some, Bool.and_self, if_true]
      rw [if_neg (fun h => by cases h.1), ← t.currentPc?_beginReport first count]
      rfl

/-- Other events are none of instructions. -/
theorem stepStamps_report {event : HookEvent} (hevent : mayYield event = false) (line : Option Int)
    (first count : Nat) :
    stepStamps (t.report stamping event line first count).host = stepStamps t.host := by
  rw [host_report_stamping, stepStamps_append]
  have hnone : stepStamps (if t.hook.isSome && t.allowHook then
      [⟨⟨event, line, t.currentId⟩, t.current.currentPc?⟩] else []) = [] := by
    split
    · simp [stepStamps, hevent]
    · rfl
  rw [hnone, List.append_nil]

theorem stepStamps_hookCall (t : Thread H (List Stamp)) (j : Nat) :
    stepStamps (t.hookCall stamping j).host = stepStamps t.host := by
  cases hf : t.frame? j with
  | none => rw [hookCall_of_no_frame _ hf]
  | some f =>
    cases hcall : t.mask.call with
    | false => rw [hookCall_of_not_selected _ hcall]
    | true =>
      rw [hookCall_of_selected _ hf hcall]
      refine (stepStamps_report ?_ none 1 _).trans rfl
      split
      · rfl
      · rfl

theorem stepStamps_returnFrom (t : Thread H (List Stamp)) (j pc : Nat) :
    stepStamps (t.returnFrom stamping j pc).host = stepStamps t.host := by
  have hreturn : ∀ s : Thread H (List Stamp),
      stepStamps (s.hookReturn stamping 0).host = stepStamps s.host := by
    intro s
    rw [hookReturn_eq, host_backToCaller]
    split
    · exact stepStamps_report rfl none _ 0
    · rfl
  obtain ⟨s, hs⟩ : ∃ s, t.onFrame j (·.setSavedPc (pc + 1)) = s := ⟨_, rfl⟩
  have hhost : s.host = t.host := by rw [← hs]; rfl
  unfold returnFrom popFrame
  rw [hs]
  by_cases hbase : s.currentId = Machine.baseFrame
  · simp only [hbase, if_true, hhost]
  · simp only [hbase, if_false]
    split
    · exact congrArg stepStamps hhost
    · exact (hreturn s).trans (congrArg stepStamps hhost)

/-! ## The countdown -/

/-- The remainder counts up to the last one, and then begins anew. -/
theorem succ_mod_eq {n : Nat} (hpos : 0 < n) (k : Nat) :
    (k + 1) % n = if k % n + 1 = n then 0 else k % n + 1 := by
  have hlt := Nat.mod_lt k hpos
  have hsplit : k + 1 = n * (k / n) + (k % n + 1) := by
    rw [← Nat.add_assoc, Nat.div_add_mod]
  rw [hsplit, Nat.mul_add_mod]
  split
  · rename_i hlast
    rw [hlast, Nat.mod_self]
  · exact Nat.mod_eq_of_lt (by omega)

/-- A hook that is told about counts, with what is left of its budget after a number of instructions were
charged to it. -/
structure Budgeted {W : Type} (t : Thread H W) (n k : Nat) : Prop where
  hears : (t.hook.isSome && t.allowHook) = true
  count : t.mask.count = true
  budget : t.countBudget = n
  left : t.countLeft = (n : Int) - (k % n : Nat)
  pos : 1 ≤ n
  word : n < 2147483648

variable {n k : Nat}

namespace Budgeted

section Countdown

variable {W : Type} {u : Thread H W}

/-- What is left of the budget is at least one. -/
theorem decrement_left (h : u.Budgeted n k) :
    decrement u.countLeft = (n : Int) - (k % n : Nat) - 1 := by
  have hlt := Nat.mod_lt k h.pos
  have hword := h.word
  rw [h.left]
  exact decrement_eq (by omega) (by omega)

/-- A count is due when the next instruction has a multiple of the budget as its number. -/
theorem countIsDue_eq (h : u.Budgeted n k) : u.countIsDue = decide (n ∣ k + 1) := by
  have hlt := Nat.mod_lt k h.pos
  rw [Bool.eq_iff_iff, decide_eq_true_iff, countIsDue, h.count, Bool.and_true, beq_iff_eq,
    h.decrement_left, Nat.dvd_iff_mod_eq_zero, succ_mod_eq h.pos]
  split
  · omega
  · omega

/-- An instruction that is looked at is charged to the budget, which begins anew when a count was due. -/
theorem charged (h : u.Budgeted n k) (pc : Nat) : (u.charged pc).Budgeted n (k + 1) := by
  refine ⟨h.hears, h.count, h.budget, ?_, h.pos, h.word⟩
  have hlt := Nat.mod_lt k h.pos
  show (if u.countIsDue then u.countBudget else decrement u.countLeft) = _
  have hdue : u.countIsDue = true ↔ (k + 1) % n = 0 := by
    rw [h.countIsDue_eq, decide_eq_true_iff, Nat.dvd_iff_mod_eq_zero]
  rw [succ_mod_eq h.pos] at hdue ⊢
  rw [h.budget, h.decrement_left]
  by_cases hlast : k % n + 1 = n
  · rw [if_pos hlast] at hdue ⊢
    rw [if_pos (hdue.2 rfl)]
    omega
  · rw [if_neg hlast] at hdue ⊢
    rw [if_neg (fun hcount => Nat.succ_ne_zero _ (hdue.1 hcount))]
    omega

theorem onFrame (h : u.Budgeted n k) (id : Nat) (change : Frame → Frame) :
    (u.onFrame id change).Budgeted n k :=
  ⟨h.hears, h.count, h.budget, h.left, h.pos, h.word⟩

end Countdown

/-- What is reported to a hook that logs leaves its budget alone. -/
theorem of_adds {Kind : HookRecord → Prop} {s s' : Thread H (List HookRecord)} (h : s.Budgeted n k)
    (hadds : s.Adds Kind s') (hbudget : s'.countBudget = s.countBudget)
    (hleft : s'.countLeft = s.countLeft) : s'.Budgeted n k := by
  refine ⟨hadds.hears h.hears, ?_, hbudget.trans h.budget, hleft.trans h.left, h.pos, h.word⟩
  rw [hadds.mask]
  exact h.count

/-- What was logged does not matter. -/
theorem unstamped_iff : t.unstamped.Budgeted n k ↔ t.Budgeted n k :=
  ⟨fun h => ⟨h.hears, h.count, h.budget, h.left, h.pos, h.word⟩,
    fun h => ⟨h.hears, h.count, h.budget, h.left, h.pos, h.word⟩⟩

end Budgeted

/-- A thread in the middle of a run, under a hook that is told about counts, after a number of
instructions were charged to the budget. -/
structure Counting {W : Type} (t : Thread H W) (proto : Proto) (id n k : Nat) : Prop
    extends t.Budgeted n k where
  runs : t.Runs proto id true
  carries : t.Carries proto false

namespace Counting

/-- What was logged does not matter. -/
theorem unstamped_iff : t.unstamped.Counting proto id n k ↔ t.Counting proto id n k :=
  ⟨fun h => ⟨Budgeted.unstamped_iff.1 h.toBudgeted, (runs_mapHost _).1 h.runs,
      h.carries.proto, h.carries.frame⟩,
    fun h => ⟨Budgeted.unstamped_iff.2 h.toBudgeted, (runs_mapHost _).2 h.runs,
      h.carries.proto, h.carries.frame⟩⟩

theorem charged (h : t.Counting proto id n k) (pc : Nat) :
    (t.charged pc).Counting proto id n (k + 1) := by
  have hruns := ((runs_mapHost (List.map Stamp.record)).2 h.runs).charged pc
  exact ⟨h.toBudgeted.charged pc, (runs_mapHost _).1 hruns, h.carries.charged pc⟩

theorem setSavedPc (h : t.Counting proto id n k) (pc : Nat) :
    (t.onFrame id (·.setSavedPc pc)).Counting proto id n k := by
  have hcarries := h.carries.onFrame (·.setSavedPc pc) (fun _ => rfl) fun _ hflag => hflag
  rw [h.runs.current] at hcarries
  exact ⟨h.toBudgeted.onFrame id _, h.runs.setSavedPc pc, hcarries⟩

/-- The events of an instruction do not touch the budget. -/
theorem reportEvents (h : t.Counting proto id n k) (pc : Nat) (countDue : Bool) :
    (t.reportEvents stamping proto pc t.mask countDue).Counting proto id n k := by
  have hcalm := unstamped_iff.2 h
  obtain ⟨-, hbudget, hleft⟩ := settings_reportEvents_calm t.unstamped proto pc t.mask countDue
  have hadds : Adds (fun _ => True) t.unstamped
      (t.unstamped.reportEvents calm proto pc t.mask countDue) :=
    adds_reportEvents (fun _ _ _ => trivial) proto pc t.mask countDue
  have hafter : (t.unstamped.reportEvents calm proto pc t.mask countDue).Counting proto id n k :=
    ⟨hcalm.toBudgeted.of_adds hadds hbudget hleft,
      hcalm.runs.reportEvents_calm proto pc t.mask countDue,
      hcalm.carries.reportEvents_calm proto pc t.mask countDue⟩
  rw [unstamped, reportEvents_mapHost follows_stamping] at hafter
  exact unstamped_iff.1 hafter

end Counting

/-! ## Looks at instructions -/

/-- The events of an instruction: a count, if it is due, and then a line, if one is reached. -/
def stampsAt (proto : Proto) (id : Nat) (counted lined : Bool) (pc : Nat) : List Stamp :=
  (if counted then [⟨⟨.count, none, id⟩, some pc⟩] else []) ++
    if lined then [⟨⟨.line, proto.line? pc, id⟩, some pc⟩] else []

theorem stepStamps_stampsAt (counted lined : Bool) (pc : Nat) :
    stepStamps (stampsAt proto id counted lined pc) = stampsAt proto id counted lined pc := by
  cases counted <;> cases lined <;> rfl

/-- The events of instructions at places, numbered on from a number: counts at the multiples of the
budget, and lines at some of them. -/
def stampsFrom (proto : Proto) (id budget : Nat) (lined : Nat → Bool) : Nat → List Nat → List Stamp
  | _, [] => []
  | number, pc :: places =>
    stampsAt proto id (decide (budget ∣ number)) (lined number) pc ++
      stampsFrom proto id budget lined (number + 1) places

/-- What is reported leaves the frame at its place, and the hook there to be told. -/
theorem report_stamping_keeps (t : Thread H (List Stamp)) (event : HookEvent) (line : Option Int)
    (first count : Nat) :
    let t' := t.report stamping event line first count
    t'.currentId = t.currentId ∧ t'.current.currentPc? = t.current.currentPc? ∧
      t'.hook = t.hook ∧ t'.allowHook = t.allowHook ∧ t'.oldPc = t.oldPc := by
  have hreports := t.unstamped.report_calm event line first count
  rw [unstamped, report_mapHost follows_stamping] at hreports
  obtain ⟨m, heq, hsame⟩ := hreports
  have hmachine : (t.report stamping event line first count).toMachine = m :=
    congrArg Thread.toMachine heq
  have hkept : ∀ u : Thread H (List HookRecord),
      (t.report stamping event line first count).mapHost (List.map Stamp.record) = u →
        (t.report stamping event line first count).hook = u.hook ∧
          (t.report stamping event line first count).allowHook = u.allowHook ∧
          (t.report stamping event line first count).oldPc = u.oldPc := by
    rintro u rfl
    exact ⟨rfl, rfl, rfl⟩
  obtain ⟨hhook, hallow, hold⟩ := hkept _ heq
  refine ⟨?_, ?_, hhook, hallow, hold⟩
  · rw [hmachine]
    exact hsame.currentId
  · rw [hmachine]
    exact hsame.currentPc?

/-- The events of an instruction are logged with its place, the count before the line. -/
theorem host_reportEvents_stamping (proto : Proto)
    (hhears : (t.hook.isSome && t.allowHook) = true) {pc : Nat}
    (hplace : t.current.currentPc? = some pc) (mask : HookMask) (countDue : Bool) :
    (t.reportEvents stamping proto pc mask countDue).host = t.host ++
      stampsAt proto t.currentId countDue (mask.line && t.beginsLine proto pc) pc := by
  obtain ⟨s, hs⟩ : ∃ s, t.protectWindow proto pc = s := ⟨_, rfl⟩
  obtain ⟨hid, hcurrent, hhook, hallow, hhost, hold⟩ : s.currentId = t.currentId ∧
      s.current = t.current ∧ s.hook = t.hook ∧ s.allowHook = t.allowHook ∧ s.host = t.host ∧
      s.oldPc = t.oldPc := by
    obtain ⟨top, hwindow, -⟩ := t.exists_protectWindow proto pc
    rw [← hs, hwindow]
    exact ⟨rfl, rfl, rfl, rfl, rfl, rfl⟩
  have hcount : ∃ u, s.reportCount stamping countDue = u ∧ u.currentId = t.currentId ∧
      u.current.currentPc? = some pc ∧ (u.hook.isSome && u.allowHook) = true ∧ u.oldPc = t.oldPc ∧
      u.host = t.host ++ if countDue then [⟨⟨.count, none, t.currentId⟩, some pc⟩] else [] := by
    refine ⟨_, rfl, ?_⟩
    unfold reportCount
    cases countDue with
    | false =>
      refine ⟨hid, by rw [if_neg Bool.false_ne_true, hcurrent, hplace], ?_, hold, ?_⟩
      · rw [if_neg Bool.false_ne_true, hhook, hallow]
        exact hhears
      · exact hhost.trans (List.append_nil _).symm
    | true =>
      obtain ⟨hid', hpc', hhook', hallow', hold'⟩ := s.report_stamping_keeps .count none 0 0
      refine ⟨hid'.trans hid, hpc'.trans (by rw [hcurrent, hplace]), ?_, hold'.trans hold, ?_⟩
      · rw [if_pos rfl, hhook', hallow', hhook, hallow]
        exact hhears
      · rw [if_pos rfl, host_report_stamping, hhook, hallow, hhears, hid, hcurrent, hplace, hhost]
  obtain ⟨u, hu, hid', hpc', hhears', hold', hhost'⟩ := hcount
  have hbegins : u.beginsLine proto pc = t.beginsLine proto pc := by
    rw [beginsLine, hold', beginsLine]
  rw [reportEvents_eq, hs, hu, stampsAt, ← List.append_assoc, ← hhost']
  cases hline : mask.line with
  | false =>
    simp only [Bool.false_and, Bool.false_eq_true, if_false, List.append_nil]
  | true =>
    simp only [Bool.true_and, if_true, reportLine, hbegins]
    split
    · rw [host_report_stamping, hhears', if_pos rfl, hid', hpc']
    · exact (List.append_nil _).symm

/-- The step lemma: a look at an instruction reports a count if its number is a multiple of the budget,
and then a line if one is reached. -/
theorem Counting.look (h : t.Counting proto id n k) (pc : Nat) :
    ∃ t' lined, t.watch stamping true pc = (.ok true, t') ∧ t'.Counting proto id n (k + 1) ∧
      t'.mask = t.mask ∧ (lined = true → t.mask.line = true) ∧
      stepStamps t'.host =
        stepStamps t.host ++ stampsAt proto id (decide (n ∣ k + 1)) lined pc := by
  have hcharged := h.charged pc
  have hdue := h.countIsDue_eq
  have hwatch : t.mask.watchesInstructions = true := by
    rw [HookMask.watchesInstructions, h.count, Bool.or_true]
  rw [watch, if_pos rfl, ← hdue]
  cases hlooks : t.looksFor with
  | false =>
    obtain ⟨-, hidle⟩ := Bool.or_eq_false_iff.1 hlooks
    refine ⟨t.charged pc, false, ?_, hcharged, rfl, fun hfalse => (by cases hfalse), ?_⟩
    · rw [traceExec_eq _ _ h.carries.proto hwatch, if_pos ((looksFor_eq_false_iff t).1 hlooks)]
    · rw [hidle]
      exact (List.append_nil _).symm
  | true =>
    obtain ⟨y, hy⟩ : ∃ y, (t.charged pc).reportEvents stamping proto pc t.mask t.countIsDue = y :=
      ⟨_, rfl⟩
    have hevents : y.Counting proto id n (k + 1) := hy ▸ hcharged.reportEvents pc t.countIsDue
    have hplace : (t.charged pc).current.currentPc? = some pc := by
      obtain ⟨f, p, hf, hp, -⟩ := h.runs.frame
      rw [← h.runs.current] at hf
      have hcurrent : (t.charged pc).current = f.setSavedPc (pc + 1) := current_onFrame t hf _
      rw [hcurrent, Frame.currentPc?, Frame.savedPc?_setSavedPc, Frame.savedPc?, hp]
      rfl
    have hhost := host_reportEvents_stamping proto hcharged.hears hplace t.mask t.countIsDue
    rw [hcharged.runs.current, hy] at hhost
    obtain ⟨hmask, -, -⟩ :=
      settings_reportEvents_calm (t.charged pc).unstamped proto pc t.mask t.countIsDue
    rw [unstamped, reportEvents_mapHost follows_stamping, hy] at hmask
    refine ⟨y, t.mask.line && t.beginsLine proto pc, ?_, hevents, hmask, fun hline =>
      (Bool.and_eq_true_iff.1 hline).1, ?_⟩
    · rw [h.carries.traceExec_of_looksFor stamping hlooks pc, if_neg Bool.false_ne_true, hy]
      exact afterEvents_of_awake _ hevents.runs.awake _ _
    · rw [hhost, stepStamps_append, stepStamps_stampsAt]
      rfl

/-! ## Runs -/

/-- Only the numbers of the instructions matter. -/
theorem stampsFrom_congr {lined lined' : Nat → Bool} {number : Nat}
    (h : ∀ j, number ≤ j → lined j = lined' j) (places : List Nat) :
    stampsFrom proto id n lined number places = stampsFrom proto id n lined' number places := by
  induction places generalizing number with
  | nil => rfl
  | cons pc places ih =>
    rw [stampsFrom, stampsFrom, h number (Nat.le_refl number),
      ih fun j hj => h j (Nat.le_of_succ_le hj)]

/-- The run lemma: the events of a run are those of the numbers of the instructions that it executes. -/
theorem Counting.runFrom (h : t.Counting proto id n k) (hshape : proto.PreparesOnce)
    (hpast : proto.isVararg = true → t.nextPc id ≠ 0) (steps : Nat) :
    ∃ lined : Nat → Bool, (∀ j, lined j = true → t.mask.line = true) ∧
      stepStamps (Thread.runFrom stamping proto id steps true t).thread.host =
        stepStamps t.host ++ stampsFrom proto id n lined (k + 1)
          (Thread.runFrom stamping proto id steps true t).executed := by
  induction steps generalizing t k with
  | zero => exact ⟨fun _ => false, fun _ hfalse => (by cases hfalse), (List.append_nil _).symm⟩
  | succ steps ih =>
    cases hi : proto.code[t.nextPc id]? with
    | none =>
      rw [runFrom_of_none _ hi]
      exact ⟨fun _ => false, fun _ hfalse => (by cases hfalse), (List.append_nil _).symm⟩
    | some i =>
      obtain ⟨t', first, hlook, hcounts, hmask, hfirst, hlog⟩ := h.look (t.nextPc id)
      rw [runFrom_of_ok _ hi hlook, stepOn]
      by_cases hret : isReturn i = true
      · refine ⟨fun _ => first, fun _ => hfirst, ?_⟩
        simp only [hret, if_true]
        change stepStamps (t'.returnFrom stamping id (t.nextPc id)).host =
          _ ++ (stampsAt proto id (decide (n ∣ k + 1)) first (t.nextPc id) ++ [])
        rw [stepStamps_returnFrom, hlog, List.append_nil]
      · have hgoes := t'.execute_of_not_varargPrep stamping id (t.nextPc id) true
          (opcode_ne_varargPrep hshape hpast hi)
        obtain ⟨later, hlater, hrest⟩ := ih (hcounts.setSavedPc (nextPlace (t.nextPc id) i))
          fun hvararg => by
            rw [hcounts.runs.nextPc_setSavedPc]
            exact nextPlace_ne_zero hshape hvararg hi
        obtain ⟨lined, hhere, hthere⟩ : ∃ lined : Nat → Bool, lined (k + 1) = first ∧
            ∀ j, j ≠ k + 1 → lined j = later j :=
          ⟨fun j => if j = k + 1 then first else later j, if_pos rfl, fun _ hj => if_neg hj⟩
        refine ⟨lined, fun j hj => ?_, ?_⟩
        · by_cases hnumber : j = k + 1
          · rw [hnumber, hhere] at hj
            exact hfirst hj
          · rw [hthere j hnumber] at hj
            rw [← hmask]
            exact hlater j hj
        · simp only [hret, Bool.false_eq_true, if_false, hgoes]
          rw [show (t'.onFrame id (·.setSavedPc (nextPlace (t.nextPc id) i))).host = t'.host from rfl,
            hlog, List.append_assoc] at hrest
          refine hrest.trans (congrArg (stepStamps t.host ++ ·) ?_)
          rw [Run.execute, stampsFrom, hhere]
          refine congrArg (_ ++ ·) (stampsFrom_congr (fun j hj => ?_) _)
          exact (hthere j (Nat.ne_of_gt hj)).symm

end Thread

end VmInspect
