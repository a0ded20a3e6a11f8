import Mathlib.Logic.Basic
import VmInspect.Proofs.Machine.Room

/-!
# Values left over above the top

Slots above the top are not on the stack, but they can be read, and they are on the stack again when the top
is raised.  Raising the top clears nothing, so they read as nil then only if nothing was left over there.
This file proves what leaves something over:

* `Machine.readsNilAbove_iff` — raising the top is safe if and only if nothing is left over.
* `Machine.clearFrom_act_iff` — of what is done to values, only writes at or above the top leave
  something over.
* `Machine.ClearFrom.adjustVarargs`, `Machine.ClearFrom.leave` — calls and returns clean up.
* `Thread.clearFrom_operate`, `Thread.slots_above_top` — nothing is left over by any operations, if
  callbacks clean up as well, and instructions are looked at with no value above the frame.
* `Thread.leftover_after_report` — a callback that does not clean up leaves something over.
-/

namespace VmInspect

namespace Machine

/-- All slots from one on read as nil. -/
def ClearFrom (m : Machine) (height : Nat) : Prop := ∀ i, height ≤ i → m.slot i = .nil

section Slots

variable (m : Machine)

/-- A slot that is not there reads as nil before and after. -/
theorem slot_put_nil (i j : Nat) : (m.put i .nil).slot j = if i = j then .nil else m.slot j := by
  by_cases hij : i = j
  · subst hij
    rw [if_pos rfl]
    by_cases hi : i < m.stack.size
    · exact m.slot_put_self hi .nil
    · rw [slot, Array.getElem?_eq_none (by rw [size_put]; omega)]
      rfl
  · rw [if_neg hij]
    exact m.slot_put_of_ne hij .nil

theorem slot_clear (first last j : Nat) :
    (m.clear first last).slot j = if first ≤ j ∧ j < last then .nil else m.slot j := by
  have hslots : ∀ (slots : List Nat) (m : Machine),
      (slots.foldl (fun m i => m.put i .nil) m).slot j = if j ∈ slots then .nil else m.slot j := by
    intro slots
    induction slots with
    | nil => exact fun m => (if_neg List.not_mem_nil).symm
    | cons i slots ih =>
      intro m
      rw [List.foldl_cons, ih, slot_put_nil]
      by_cases hmem : j ∈ slots
      · rw [if_pos hmem, if_pos (List.mem_cons_of_mem i hmem)]
      · rw [if_neg hmem]
        by_cases hi : i = j
        · rw [if_pos hi, if_pos (List.mem_cons.2 (Or.inl hi.symm))]
        · rw [if_neg hi, if_neg fun h => (List.mem_cons.1 h).elim (fun h => hi h.symm) hmem]
  rw [clear_eq, hslots]
  refine if_congr ?_ rfl rfl
  rw [List.mem_range'_1]
  omega

/-- Moving the top clears the slots that are given up, and no others. -/
theorem slot_setTop (top j : Nat) :
    (m.setTop top).slot j = if top ≤ j ∧ j < m.top then .nil else m.slot j := by
  have hclear := (m.growTo (top + extraStack)).slot_clear top m.top j
  rw [slot_growTo] at hclear
  exact hclear

theorem slot_copyDown_of_ge (source : Nat) {target count j : Nat} (hj : target + count ≤ j) :
    (m.copyDown source target count).slot j = m.slot j := by
  induction count with
  | zero => rfl
  | succ count ih => rw [copyDown_succ, slot_put_of_ne _ (by omega), ih (by omega)]

theorem slot_drop (j : Nat) : m.drop.slot j = if j + 1 = m.top then .nil else m.slot j := by
  unfold drop
  by_cases htop : m.top = 0
  · rw [if_pos htop, if_neg (by omega)]
  · rw [if_neg htop]
    refine (m.slot_put_nil (m.top - 1) j).trans (if_congr ?_ rfl rfl)
    omega

theorem top_drop : m.drop.top = m.top - 1 := by
  unfold drop
  split
  · omega
  · rfl

theorem slot_setSlot (i j : Nat) (v : Value) :
    (m.setSlot i v).slot j = if i = j then v else m.slot j := by
  by_cases hij : i = j
  · subst hij
    rw [if_pos rfl]
    exact slot_put_self _ (by rw [size_growTo]; omega) v
  · rw [if_neg hij]
    exact (slot_put_of_ne _ hij v).trans (slot_growTo m _ j)

end Slots

variable {m : Machine}

/-! ## Raising the top -/

/-- Wherever the top is raised to, the slots up to it read as nil. -/
def ReadsNilAbove (m : Machine) : Prop :=
  ∀ top, m.top < top → ∀ i, m.top ≤ i → i < top → (m.setTop top).slot i = .nil

/-- They do if and only if nothing is left over: the top is raised over the slots as they are. -/
theorem readsNilAbove_iff : m.ReadsNilAbove ↔ m.ClearFrom m.top := by
  have hraised : ∀ {top i}, m.top ≤ i → (m.setTop top).slot i = m.slot i := by
    intro top i hi
    rw [slot_setTop, if_neg (by omega)]
  constructor
  · intro h i hi
    rw [← hraised hi]
    exact h (i + 1) (Nat.lt_succ_of_le hi) i hi (Nat.lt_succ_self i)
  · intro h top _ i hi _
    rw [hraised hi]
    exact h i hi

/-! ## Values -/

namespace ClearFrom

theorem initial : ClearFrom Machine.initial Machine.initial.top := by
  intro i _
  rw [slot, Machine.initial, Array.getElem?_replicate]
  split
  · rfl
  · rfl

theorem push (h : m.ClearFrom m.top) (v : Value) : (m.push v).ClearFrom (m.push v).top := by
  intro i hi
  rw [top_push] at hi
  rw [slot_push_of_ne m (by omega)]
  exact h i (by omega)

theorem pushAll (h : m.ClearFrom m.top) (vs : List Value) :
    (m.pushAll vs).ClearFrom (m.pushAll vs).top := by
  induction vs generalizing m with
  | nil => exact h
  | cons v vs ih => exact ih (h.push v)

theorem growTo {height : Nat} (h : m.ClearFrom height) (size : Nat) : (m.growTo size).ClearFrom height :=
  fun i hi => (slot_growTo m size i).trans (h i hi)

theorem setTop (h : m.ClearFrom m.top) (top : Nat) : (m.setTop top).ClearFrom top := by
  intro i hi
  rw [slot_setTop]
  split
  · rfl
  · exact h i (by omega)

theorem drop (h : m.ClearFrom m.top) : m.drop.ClearFrom m.drop.top := by
  intro i hi
  rw [top_drop] at hi
  rw [slot_drop]
  split
  · rfl
  · exact h i (by omega)

/-- A slot that is overwritten. -/
theorem setSlot_iff {height : Nat} (h : m.ClearFrom height) (i : Nat) (v : Value) :
    (m.setSlot i v).ClearFrom height ↔ v = .nil ∨ i < height := by
  constructor
  · intro hclear
    rcases Nat.lt_or_ge i height with hlt | hle
    · exact Or.inr hlt
    · have hi := hclear i hle
      rw [slot_setSlot, if_pos rfl] at hi
      exact Or.inl hi
  · intro hv j hj
    rw [slot_setSlot]
    split
    · exact hv.resolve_right (by omega)
    · exact h j hj

end ClearFrom

/-- Whether nothing is left over above the top by what is done to values. -/
def Tidy (m : Machine) : StackAction → Prop
  | .setSlot i v => v = .nil ∨ i < m.top
  | .writeLocal id n =>
    ∀ name slot, m.local? id n = some (name, slot) → m.topValue = .nil ∨ slot + 1 < m.top
  | _ => True

/-- Only writes can leave something over, and they do if they write a value at or above the top. -/
theorem clearFrom_act_iff (h : m.ClearFrom m.top) (action : StackAction) :
    (m.act action).ClearFrom (m.act action).top ↔ m.Tidy action := by
  cases action with
  | push v => exact iff_of_true (h.push v) trivial
  | pop => exact iff_of_true h.drop trivial
  | setTop top => exact iff_of_true (h.setTop top) trivial
  | setSlot i v => exact h.setSlot_iff i v
  | ensureStack n => exact iff_of_true (h.growTo _) trivial
  | readLocal id n =>
    simp only [act, readLocal]
    cases m.local? id n with
    | none => exact iff_of_true h trivial
    | some found => exact iff_of_true (h.push _) trivial
  | writeLocal id n =>
    simp only [act, writeLocal, Tidy]
    cases m.local? id n with
    | none =>
      refine iff_of_true h fun name slot hfound => ?_
      cases hfound
    | some found =>
      obtain ⟨name, slot⟩ := found
      refine (h.drop.setSlot_iff slot m.topValue).trans ?_
      rw [top_drop, ← Nat.add_lt_iff_lt_sub_right]
      constructor
      · intro hv name' slot' hfound
        cases hfound
        exact hv
      · exact fun hv => hv name slot rfl

/-! ## Calls and returns -/

namespace ClearFrom

theorem liftValues (h : m.ClearFrom m.top) (slots : List Nat) :
    (slots.foldl liftValue m).ClearFrom (slots.foldl liftValue m).top := by
  induction slots generalizing m with
  | nil => exact h
  | cons i slots ih =>
    rw [List.foldl_cons]
    refine ih ?_
    have hput : (m.put i .nil).ClearFrom (m.put i .nil).top := by
      intro j hj
      rw [slot_put_nil]
      split
      · rfl
      · exact h j hj
    exact hput.push _

theorem enterScript (h : m.ClearFrom m.top) (proto : Proto) (func : Nat) (flags : CallFlags) :
    (m.enterScript proto func flags).ClearFrom (m.enterScript proto func flags).top :=
  ((h.growTo _).pushAll _).growTo _

theorem enterNative (h : m.ClearFrom m.top) (func : Nat) :
    (m.enterNative func).ClearFrom (m.enterNative func).top :=
  h.growTo _

theorem adjustVarargs (h : m.ClearFrom m.top) (fixed : Nat) :
    (m.adjustVarargs fixed).ClearFrom (m.adjustVarargs fixed).top := by
  have hgathered : (m.gathered fixed).ClearFrom (m.gathered fixed).top :=
    ((h.growTo _).push _).liftValues _
  rw [adjustVarargs_eq]
  exact growTo hgathered _

/-- The results are on the stack afterwards, and what lay above them is cleared. -/
theorem leave (h : m.ClearFrom m.top) (id results : Nat) :
    (m.leave id results).ClearFrom (m.leave id results).top := by
  intro i hi
  change (m.frameAt id).func - (m.frameAt id).shift + results ≤ i at hi
  refine (slot_setTop _ _ i).trans ?_
  split
  · rfl
  · rename_i hkept
    -- above the results and above the old top nothing was written
    rw [slot_copyDown_of_ge m (m.top - results) hi]
    exact h i (Nat.le_of_not_lt fun hlt => hkept ⟨hi, hlt⟩)

end ClearFrom

end Machine

namespace Thread

variable {H W : Type} {run : Callback H W} {t : Thread H W}

/-! ## Reports -/

/-- A callback leaves nothing over above the top that is put back when it returns. -/
def CleansUp (run : Callback H W) : Prop :=
  ∀ hook record (t : Thread H W) first count, t.ClearFrom t.top →
    (run hook record (t.beginReport first count)).2.ClearFrom t.top

/-- While an event is reported the stack is larger, but nothing is written. -/
theorem slot_beginReport (t : Thread H W) (first count i : Nat) :
    (t.beginReport first count).slot i = t.slot i :=
  Machine.slot_growTo { t.toMachine with top := t.reportTop } _ i

/-- Its reports leave nothing over. -/
theorem stable_clearFrom (hrun : CleansUp run) : Stable run fun m _ => m.ClearFrom m.top where
  note := by
    intro m _ id change _ h
    exact h
  report := by
    intro t event line first count h
    refine report_keeps (P := fun m _ => m.ClearFrom m.top) h ?_
    rintro hook u - rfl
    exact hrun hook ⟨event, line, t.currentId⟩ t first count h

/-- What the callback leaves over is left over by the report. -/
theorem readsNilAbove_fireHook_iff {hook : H} (hhook : t.hook = some hook) (hallow : t.allowHook = true)
    (event : HookEvent) (line : Option Int) (first count : Nat) :
    (t.fireHook run event line first count).2.ReadsNilAbove ↔
      (run hook ⟨event, line, t.currentId⟩ (t.beginReport first count)).2.ClearFrom t.top := by
  have hdone : ∀ i, (t.fireHook run event line first count).2.top = t.top ∧
      (t.fireHook run event line first count).2.slot i =
        (run hook ⟨event, line, t.currentId⟩ (t.beginReport first count)).2.slot i := by
    intro i
    unfold fireHook
    simp only [hhook, hallow, if_true]
    split
    · exact ⟨rfl, rfl⟩
    · exact ⟨rfl, rfl⟩
  rw [Machine.readsNilAbove_iff, (hdone 0).1]
  exact forall_congr' fun i => imp_congr_right fun _ => by rw [(hdone i).2]

/-! ## Operations -/

/-- What an operation is given for nothing to be left over: a value to write below the top, and an
instruction to look at where no value lies above the frame. -/
def TidyAt (t : Thread H W) : Operation H W → Prop
  | .step (.stack action) => t.Tidy action
  | .step (.traceExec _) => ∀ i < t.top, t.current.top ≤ i → t.slot i = .nil
  | _ => True

/-- The step lemma: nothing is left over. -/
theorem clearFrom_operate (hrun : CleansUp run) (h : t.ClearFrom t.top) {op : Operation H W}
    (hop : t.TidyAt op) : (t.operate run op).ClearFrom (t.operate run op).top := by
  have hstable := (stable_clearFrom hrun).keptByEvents
  have henter : ∀ func flags, (t.pushScriptFrame func flags).2.ClearFrom
      (t.pushScriptFrame func flags).2.top := fun func flags =>
    pushScriptFrame_keeps (P := fun m _ => m.ClearFrom m.top) h fun _ proto =>
      h.enterScript proto func flags
  cases op with
  | enterScript func flags => exact henter func flags
  | register f => exact h
  | step step =>
    cases step with
    | stack action => exact (Machine.clearFrom_act_iff h action).2 hop
    | setHook hook mask count => exact hstable.setHook h hook mask count
    | fireHook event line first count => exact hstable.report event line first count h
    | traceExec pc =>
      -- the top may be moved down to that of the frame, over slots that are not cleared
      refine hstable.traceExec h (fun i hi => ?_) pc
      rcases Nat.lt_or_ge i t.top with hlt | hle
      · exact hop i hlt hi
      · exact h i hle
    | traceCall => exact hstable.traceCall h
    | hookCall id => exact hstable.hookCall h id
    | hookReturn results => exact hstable.hookReturn h results
    | hookVarargPrep => exact hstable.hookVarargPrep h
    | enterScript func flags _ => exact henter func flags
    | enterNative func =>
      exact hstable.pushNativeFrame (Q := fun m _ => m.ClearFrom m.top) h
        (fun _ => h.enterNative func) fun _ _ hm => hm
    | leave results =>
      exact hstable.popFrame (Q := fun m _ => m.ClearFrom m.top) h h fun _ _ hm _ =>
        hm.leave t.currentId results
    | adjustVarargs fixed => exact h.adjustVarargs fixed
    | setSavedPc id pc => exact hstable.setSavedPc h id pc
    | resume => exact hstable.resume h
    | note change => exact h

/-- Every operation is tidy in the state that it is applied to. -/
def AllTidy (run : Callback H W) : Thread H W → List (Operation H W) → Prop
  | _, [] => True
  | t, op :: ops => t.TidyAt op ∧ AllTidy run (t.operate run op) ops

/-- The run lemma. -/
theorem clearFrom_operateAll (hrun : CleansUp run) (h : t.ClearFrom t.top) {ops : List (Operation H W)}
    (hops : t.AllTidy run ops) : (t.operateAll run ops).ClearFrom (t.operateAll run ops).top := by
  induction ops generalizing t with
  | nil => exact h
  | cons op ops ih => exact ih (clearFrom_operate hrun h hops.1) hops.2

/-- Every thread that operations lead to, if callbacks clean up, values are written below the top, and
instructions are looked at where no value lies above the frame.  Slots read as nil when the top is raised
over them.  After something is done to values that is so if and only if nothing is written above the top,
and after a report if and only if the callback leaves nothing there. -/
theorem slots_above_top (hrun : CleansUp run) (host : W) (ops : List (Operation H W))
    (hops : (Thread.initial host).AllTidy run ops) :
    let t := (Thread.initial host).operateAll run ops
    t.ReadsNilAbove ∧
      (∀ action, (t.act action).ReadsNilAbove ↔ t.Tidy action) ∧
      ∀ (other : Callback H W) hook event line first count,
        t.hook = some hook → t.allowHook = true →
          ((t.fireHook other event line first count).2.ReadsNilAbove ↔
            (other hook ⟨event, line, t.currentId⟩ (t.beginReport first count)).2.ClearFrom t.top) := by
  intro t
  have hclear : t.ClearFrom t.top := clearFrom_operateAll hrun Machine.ClearFrom.initial hops
  refine ⟨Machine.readsNilAbove_iff.2 hclear, fun action => ?_, ?_⟩
  · rw [Machine.readsNilAbove_iff]
    exact Machine.clearFrom_act_iff hclear action
  · intro other hook event line first count hhook hallow
    exact readsNilAbove_fireHook_iff hhook hallow event line first count

/-- A callback that counts the events, and takes away what it pushes. -/
def neat : Callback Unit Nat := fun _ _ t =>
  (.proceed, { t.onMachine fun m => (m.push (.boolean true)).drop with host := t.host + 1 })

theorem cleansUp_neat : CleansUp neat := by
  intro hook record t first count h i hi
  show ((t.beginReport first count).push (.boolean true)).drop.slot i = .nil
  rw [Machine.slot_drop]
  split
  · rfl
  · rename_i hne
    rw [Machine.slot_push_of_ne _ fun heq => hne (congrArg (· + 1) heq.symm), slot_beginReport]
    exact h i hi

/-- A function that copies a register, and returns. -/
def copyingProto : Proto where
  code := #[.abc .move 0 0 0, .abc .return0 0 0 0]
  maxStack := 2

/-- An instruction of a function is looked at, with a hook that is told about lines. -/
def copyingOps : List (Operation Unit Nat) :=
  [.register (.script copyingProto #[]), .step (.stack (.push (.function 0))), .enterScript 1 {},
    .step (.setHook (some ()) { line := true } 0), .step (.traceExec 0)]

/-- Then a register of the frame is written, below the top, and the function returns. -/
def neatOps : List (Operation Unit Nat) :=
  copyingOps ++ [.step (.stack (.setSlot 3 (.integer 7))), .step (.leave 0)]

/-- A value that is written above the top then is left over there. -/
theorem slots_above_top_neat :
    let t := (Thread.initial 0).operateAll neat neatOps
    CleansUp neat ∧ (Thread.initial 0).AllTidy neat neatOps ∧ t.host = 1 ∧ t.top = 1 ∧
      t.ReadsNilAbove ∧ ¬ (t.act (.setSlot 1 (.integer 7))).ReadsNilAbove := by
  intro t
  have hlook : ((Thread.initial 0).operateAll neat (copyingOps.take 4)).TidyAt
      (.step (.traceExec 0)) := by
    show ∀ i < _, _ → _
    decide +kernel
  have hwrite : ((Thread.initial 0).operateAll neat copyingOps).TidyAt
      (.step (.stack (.setSlot 3 (.integer 7)))) := by
    refine Or.inr ?_
    decide +kernel
  have hops : (Thread.initial 0).AllTidy neat neatOps :=
    ⟨trivial, trivial, trivial, trivial, hlook, hwrite, trivial, trivial⟩
  have htop : t.top = 1 := by decide +kernel
  obtain ⟨hreads, hacts, -⟩ := slots_above_top cleansUp_neat 0 neatOps hops
  refine ⟨cleansUp_neat, hops, by decide +kernel, htop, hreads, fun hafter => ?_⟩
  rcases (hacts (.setSlot 1 (.integer 7))).1 hafter with hnil | hlt
  · cases hnil
  · exact absurd hlt (Nat.not_lt.2 (Nat.le_of_eq htop))

/-- A callback that leaves a value behind. -/
def leaving : Callback Unit Nat := fun _ _ t =>
  (.proceed, { t.onMachine (·.push (.integer 7)) with host := t.host + 1 })

/-- It is on the stack when the top is raised over it. -/
theorem leftover_after_report :
    let t := (Thread.initial 0).operateAll leaving copyingOps
    (Thread.initial 0).AllTidy leaving copyingOps ∧ t.host = 1 ∧ t.top = 4 ∧
      (t.setTop 6).slot 4 = .integer 7 := by
  intro t
  have hlook : ((Thread.initial 0).operateAll leaving (copyingOps.take 4)).TidyAt
      (.step (.traceExec 0)) := by
    show ∀ i < _, _ → _
    decide +kernel
  exact ⟨⟨trivial, trivial, trivial, trivial, hlook, trivial⟩, by decide +kernel, by decide +kernel,
    by decide +kernel⟩

end Thread

end VmInspect
