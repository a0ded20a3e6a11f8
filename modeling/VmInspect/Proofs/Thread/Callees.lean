import VmInspect.Proofs.Machine.Nesting
import VmInspect.Proofs.Thread.Reporting
import VmInspect.Proofs.Thread.Suspension

/-!
# What a callee leaves behind

A function that is called may run for as long as it likes, in as many parts as it likes, and may call
other functions in between, until it is left.  This file follows it under a hook that logs:

* `Thread.Finishes` — the ways from a function that was entered to the thread that has left it.
* `Thread.InCallee` — the invariant of a callee: the machine is inside the call, the hook is the same, and
  only events of frames above that of the caller were reported.
* `Thread.InCallee.runFrom` — a run of the callee keeps it up, or ends the call with a return.
* `Thread.Finishes.afterCallee` — so the caller finds its frame and its values again when the callee is
  left, and the line that was reached is that of the call.
-/

namespace VmInspect

namespace Thread

variable {H : Type}

/-! ## Callees -/

/-- The function in a slot above that of the current frame is entered. -/
inductive EntersCallee (t : Thread H (List HookRecord)) (slot : Nat) :
    Thread H (List HookRecord) → Prop where
  | script {proto : Proto} {upvalues : Array Nat} (flags : CallFlags)
      (hslot : t.stack[slot]?.bind t.function? = some (.script proto upvalues))
      (habove : t.current.func < slot) (htop : slot < t.top) :
      EntersCallee t slot (t.pushScriptFrame slot flags).2
  | native {name : String} {count : Nat}
      (hslot : t.stack[slot]?.bind t.function? = some (.native name count))
      (habove : t.current.func < slot) (htop : slot < t.top) :
      EntersCallee t slot (t.pushNativeFrame calm slot).2

/-- What a function does from some point on until it is left. -/
inductive Finishes : Thread H (List HookRecord) → Thread H (List HookRecord) → Prop where
  /-- it is left with any number of results -/
  | left (t : Thread H (List HookRecord)) (results : Nat) : Finishes t (t.popFrame calm results).2
  /-- it runs up to a return -/
  | returns {t : Thread H (List HookRecord)} (steps : Nat)
      (hreturns : (t.runFrame calm steps).ending = .returned) :
      Finishes t (t.runFrame calm steps).thread
  /-- it runs, and goes on later -/
  | runs {t t' : Thread H (List HookRecord)} (steps : Nat)
      (hstays : (t.runFrame calm steps).ending ≠ .returned)
      (hrest : Finishes (t.runFrame calm steps).thread t') : Finishes t t'
  /-- it works on the stack above its function -/
  | works {t t' : Thread H (List HookRecord)} {m : Machine} (hwork : t.toMachine.WorksAbove m)
      (hrest : Finishes { t with toMachine := m } t') : Finishes t t'
  /-- it calls a function that is left again -/
  | calls {t entered back t' : Thread H (List HookRecord)} {slot : Nat}
      (henters : t.EntersCallee slot entered) (hcallee : Finishes entered back)
      (hrest : Finishes back t') : Finishes t t'

/-- A function is called from the current frame, after it was put on the stack with its arguments, and
is left again. -/
inductive Calls (t : Thread H (List HookRecord)) : Thread H (List HookRecord) → Prop where
  | call {m : Machine} {slot : Nat} {entered t' : Thread H (List HookRecord)}
      (hwork : t.toMachine.WorksAbove m)
      (henters : ({ t with toMachine := m } : Thread H (List HookRecord)).EntersCallee slot entered)
      (hcallee : Finishes entered t') : Calls t t'

/-! ## The invariant of a callee -/

/-- The second thread is in a function that the first one has called. -/
structure InCallee (t : Thread H (List HookRecord)) (slot : Nat)
    (t' : Thread H (List HookRecord)) : Prop where
  inside : t.toMachine.Inside slot t'.toMachine
  caller : t.frames.size ≠ 0
  adds : t.Adds (fun r => t.currentId < r.frame) t'

/-- The second thread is the first one after such a function was left. -/
structure AfterCallee (t : Thread H (List HookRecord)) (slot : Nat)
    (t' : Thread H (List HookRecord)) : Prop where
  back : t.toMachine.Back slot t'.toMachine
  adds : t.Adds (fun r => t.currentId < r.frame) t'
  /-- the line that was reached is that of the call -/
  oldPc : t.mask.isEmpty = false → ∀ f p, t.frame? t.currentId = some f → f.progress? = some p →
    t'.oldPc = p.savedPc - 1

variable {t u u' : Thread H (List HookRecord)} {slot : Nat}

/-! ## Machines of a callee -/

section Machines

variable {m : Machine}

theorem inside_hookCall (h : m.Inside slot u.toMachine) (id : Nat) :
    m.Inside slot (u.hookCall calm id).toMachine :=
  h.of_undisturbed (u.hookCall_calm id).undisturbed

theorem inside_setSavedPc (h : m.Inside slot u.toMachine) (pc : Nat) :
    m.Inside slot (u.onFrame u.currentId (·.setSavedPc pc)).toMachine := by
  refine h.modifyFrame (fun _ => rfl) (fun _ => rfl) (fun _ => rfl) fun f => ?_
  simp only [Frame.shift, Frame.setSavedPc, Frame.progress?_modifyProgress, Option.map_map]
  rfl

theorem inside_setTrap (h : m.Inside slot u.toMachine) (on : Bool) :
    m.Inside slot (u.onFrame u.currentId (·.setTrap on)).toMachine := by
  refine h.modifyFrame (fun _ => rfl) (fun _ => rfl) (fun _ => rfl) fun f => ?_
  simp only [Frame.shift, Frame.setTrap, Frame.progress?_modifyProgress, Option.map_map]
  rfl

theorem inside_reportEvents (h : m.Inside slot u.toMachine) (proto : Proto) (pc : Nat)
    (mask : HookMask) (countDue : Bool) :
    m.Inside slot (u.reportEvents calm proto pc mask countDue).toMachine := by
  obtain ⟨top, oldPc, htop, hreports⟩ := u.exists_reportEvents_calm proto pc mask countDue
  have hready : m.Inside slot
      ({ u with top := top, oldPc := oldPc } : Thread H (List HookRecord)).toMachine := by
    rcases htop with rfl | rfl
    · exact h
    · exact h.setTop h.limit
  exact hready.of_undisturbed hreports.undisturbed

/-- A look at an instruction stays inside the call. -/
theorem inside_watch (h : m.Inside slot u.toMachine) (trap : Bool) (pc : Nat) :
    m.Inside slot (u.watch calm trap pc).2.toMachine := by
  have hcharged : m.Inside slot (u.charged pc).toMachine := inside_setSavedPc h (pc + 1)
  have hevents : ∀ proto, m.Inside slot
      ((u.charged pc).reportEvents calm proto pc u.mask u.countIsDue).toMachine :=
    fun proto => inside_reportEvents hcharged proto pc u.mask u.countIsDue
  have hlook := u.look_watch calm trap pc
  generalize u.watch calm trap pc = result at hlook ⊢
  cases hlook with
  | idle => exact h
  | unwatched => exact inside_setTrap h false
  | quiet => exact hcharged
  | resumed =>
    have hid : (u.charged pc).currentId = u.currentId := currentId_onFrame u u.currentId _
    rw [← hid]
    exact hcharged.modifyFrame (fun _ => rfl) (fun _ => rfl) (fun _ => rfl) fun _ => rfl
  | reported _ htold => exact htold ▸ hevents _
  | suspended _ htold =>
    have htolds : m.Inside slot _ := htold ▸ hevents _
    have hid := htolds.currentId.trans h.currentId.symm
    rw [← hid]
    exact htolds.modifyFrame (fun _ => rfl) (fun _ => rfl) (fun _ => rfl) fun _ => rfl

theorem inside_beginRun (h : m.Inside slot u.toMachine) :
    m.Inside slot (u.beginRun calm).2.toMachine := by
  have hmarked := inside_setTrap h true
  have hopening := u.opening_beginRun calm
  generalize u.beginRun calm = result at hopening ⊢
  cases hopening with
  | idle => exact h
  | vararg _ hu => exact hu ▸ hmarked
  | onward _ hu => exact hu ▸ hmarked
  | entered _ hu => exact hu ▸ inside_hookCall hmarked u.currentId

/-- So does an instruction. -/
theorem inside_execute (h : m.Inside slot u.toMachine) (pc : Nat) (trap : Bool) (i : Instruction) :
    m.Inside slot (u.execute calm u.currentId pc trap i).2.toMachine := by
  have hsaved := inside_setSavedPc h (pc + 1)
  obtain ⟨s, hs⟩ : ∃ s, (u.onFrame u.currentId (·.setSavedPc (pc + 1))).onMachine
      (·.adjustVarargs i.a) = s := ⟨_, rfl⟩
  have hready : m.Inside slot s.toMachine := by
    rw [← hs]
    exact hsaved.adjustVarargs i.a
  have hprepares : m.Inside slot (s.hookVarargPrep calm).toMachine := by
    unfold hookVarargPrep
    split
    · exact inside_hookCall hready s.currentId
    · exact hready
  have hid : (s.hookVarargPrep calm).currentId = u.currentId := by
    rw [hprepares.currentId, h.currentId]
  unfold execute
  by_cases hop : i.opcode = .varargPrep
  · simp only [hop, if_true, prepareVarargs, hs]
    rw [← hid]
    exact inside_setSavedPc hprepares _
  · simp only [hop, if_false]
    exact inside_setSavedPc h _

end Machines

/-! ## Parts of a callee -/

namespace InCallee

theorem currentId (h : t.InCallee slot u) : u.currentId = t.frames.size := h.inside.currentId

/-- The events of the callee are those of a frame above that of the caller. -/
theorem lt_currentId (h : t.InCallee slot u) {r : HookRecord} (hr : r.frame = u.currentId) :
    t.currentId < r.frame := by
  rw [hr, h.currentId]
  exact Nat.sub_lt (Nat.pos_of_ne_zero h.caller) Nat.zero_lt_one

theorem watch (h : t.InCallee slot u) (trap : Bool) (pc : Nat) :
    t.InCallee slot (u.watch calm trap pc).2 :=
  ⟨inside_watch h.inside trap pc, h.caller,
    h.adds.trans (adds_watch (fun _ hr _ => h.lt_currentId hr) trap pc)⟩

theorem beginRun (h : t.InCallee slot u) : t.InCallee slot (u.beginRun calm).2 :=
  ⟨inside_beginRun h.inside, h.caller, h.adds.trans (adds_beginRun fun _ hr => h.lt_currentId hr)⟩

theorem execute (h : t.InCallee slot u) (pc : Nat) (trap : Bool) (i : Instruction) :
    t.InCallee slot (u.execute calm u.currentId pc trap i).2 :=
  ⟨inside_execute h.inside pc trap i, h.caller,
    h.adds.trans (adds_execute (fun _ hr => h.lt_currentId hr) _ pc trap i)⟩

/-- Whoever calls from inside the callee finds it again afterwards. -/
theorem of_afterCallee (h : t.InCallee slot u) {inner : Nat} (hinner : u.current.func < inner)
    (ha : u.AfterCallee inner u') : t.InCallee slot u' :=
  ⟨h.inside.of_back hinner ha.back, h.caller, h.adds.trans (ha.adds.mono fun r hr =>
    Nat.lt_trans (h.lt_currentId (r := ⟨r.event, r.line, u.currentId⟩) rfl) hr)⟩

/-- The line that was reached is that of the call, once the callee is left. -/
theorem oldPc_backToCaller (h : t.toMachine.Inside slot u.toMachine) {f : Frame} {p : Progress}
    (hcaller : t.frames.size ≠ 0) (hf : t.frame? t.currentId = some f)
    (hp : f.progress? = some p) : (u.backToCaller u.currentId).oldPc = p.savedPc - 1 := by
  have hlt : t.currentId < t.frames.size := Nat.sub_lt (Nat.pos_of_ne_zero hcaller) Nat.zero_lt_one
  have hframe := h.callers t.currentId hlt
  rw [hf, Option.map_some, Option.map_eq_some_iff] at hframe
  obtain ⟨g, hg, heq⟩ := hframe
  have hplace : ((u.frameAt u.currentId).previous.bind u.frame?).bind Frame.currentPc? =
      some (p.savedPc - 1) := by
    have hprevious : (u.frameAt u.currentId).previous = some t.currentId := h.previous
    rw [hprevious, Option.bind_some, hg, Option.bind_some, Frame.currentPc?, Frame.savedPc?,
      Frame.progress?, (Frame.eq_of_unreported_eq heq).2.1, ← Frame.progress?, hp]
    rfl
  unfold backToCaller
  simp only [hplace]

/-- Leaving the frame of the callee ends the call. -/
theorem popFrame (h : t.InCallee slot u) (results : Nat) :
    t.AfterCallee slot (u.popFrame calm results).2 := by
  have hinner : u.currentId ≠ Machine.baseFrame := by
    rw [h.currentId]
    exact h.caller
  obtain ⟨m, hreported, -, hmachine⟩ := u.popFrame_calm hinner results
  have hinside := h.inside.of_undisturbed hreported.toUndisturbed
  refine ⟨?_, h.adds.trans (adds_popFrame (fun _ hr => h.lt_currentId hr) results),
    fun hmask f p hf hp => ?_⟩
  · rw [hmachine, ← hreported.toUndisturbed.currentId]
    exact hinside.leave results
  · have hheard : u.mask.isEmpty = false := by
      rw [h.adds.mask]
      exact hmask
    unfold Thread.popFrame
    simp only [hinner, if_false, hheard, Bool.false_eq_true]
    show (u.hookReturn calm results).oldPc = _
    rw [hookReturn_eq]
    split
    · have hreport := (u.report_calm .ret none ((u.top - results) - u.current.func)
        results).undisturbed
      rw [← hreport.currentId]
      exact oldPc_backToCaller (h.inside.of_undisturbed hreport) h.caller hf hp
    · exact oldPc_backToCaller h.inside h.caller hf hp

/-! ## Runs of a callee -/

/-- The run lemma: a run of the callee stays inside the call, or ends it with a return. -/
theorem runFrom (h : t.InCallee slot u) {id : Nat} (hid : u.currentId = id) (proto : Proto)
    (steps : Nat) (trap : Bool) :
    ((runFrom calm proto id steps trap u).ending = .returned →
        t.AfterCallee slot (runFrom calm proto id steps trap u).thread) ∧
      ((runFrom calm proto id steps trap u).ending ≠ .returned →
        t.InCallee slot (runFrom calm proto id steps trap u).thread) := by
  induction steps generalizing u trap with
  | zero => exact ⟨fun hending => (by cases hending), fun _ => h⟩
  | succ steps ih =>
    cases hi : proto.code[u.nextPc id]? with
    | none =>
      rw [runFrom_of_none _ hi]
      exact ⟨fun hending => (by cases hending), fun _ => h⟩
    | some i =>
      have hlook := h.watch trap (u.nextPc id)
      obtain ⟨answer, s, hs⟩ : ∃ answer s, u.watch calm trap (u.nextPc id) = (answer, s) :=
        ⟨_, _, rfl⟩
      rw [hs] at hlook
      have hsame : s.currentId = id := by rw [hlook.currentId, ← h.currentId, hid]
      cases answer with
      | error f =>
        rw [runFrom_of_error _ hi hs]
        exact ⟨fun hending => (by cases hending), fun _ => hlook⟩
      | ok b =>
        rw [runFrom_of_ok _ hi hs, stepOn]
        by_cases hret : isReturn i = true
        · simp only [hret, if_true]
          have hplaced : t.InCallee slot (s.onFrame id (·.setSavedPc (u.nextPc id + 1))) := by
            rw [← hsame]
            exact ⟨inside_setSavedPc hlook.inside _, h.caller,
              hlook.adds.trans (.of_quiet rfl rfl rfl rfl rfl)⟩
          exact ⟨fun _ => hplaced.popFrame 0, fun hstays => absurd rfl hstays⟩
        · simp only [hret, Bool.false_eq_true, if_false]
          have hgoes := hlook.execute (u.nextPc id) b i
          rw [hsame] at hgoes
          exact ih hgoes (by rw [hgoes.currentId, ← hlook.currentId, hsame]) _

theorem runFrame (h : t.InCallee slot u) (steps : Nat) :
    ((u.runFrame calm steps).ending = .returned →
        t.AfterCallee slot (u.runFrame calm steps).thread) ∧
      ((u.runFrame calm steps).ending ≠ .returned →
        t.InCallee slot (u.runFrame calm steps).thread) := by
  cases hproto : u.frameProto? u.currentId with
  | none =>
    rw [runFrame_of_no_proto _ hproto]
    exact ⟨fun hending => (by cases hending), fun _ => h⟩
  | some proto =>
    rw [runFrame_of_proto _ hproto]
    exact h.beginRun.runFrom (by rw [h.beginRun.currentId, h.currentId]) proto steps _

end InCallee

/-! ## Whole callees -/

/-- A function that was entered is inside its call. -/
theorem EntersCallee.inCallee (h : t.EntersCallee slot u) (hcaller : t.frames.size ≠ 0) :
    t.InCallee slot u := by
  cases h with
  | script flags hslot habove htop =>
    rw [pushScriptFrame_of_slot hslot flags]
    exact ⟨Machine.inside_enterScript t.toMachine _ htop flags, hcaller, .of_quiet rfl rfl rfl rfl rfl⟩
  | native hslot habove htop =>
    obtain ⟨s, hs⟩ : ∃ s, t.onMachine (·.enterNative slot) = s := ⟨_, rfl⟩
    have hentered : t.InCallee slot s := by
      rw [← hs]
      exact ⟨Machine.inside_enterNative t.toMachine htop, hcaller, .of_quiet rfl rfl rfl rfl rfl⟩
    unfold pushNativeFrame
    simp only [hslot, hs]
    split
    · refine ⟨?_, hcaller, ?_⟩
      · exact hentered.inside.of_undisturbed (s.report_calm .call none 1 _).undisturbed
      · exact hentered.adds.trans (adds_report (fun r hr => hentered.lt_currentId hr) .call none 1 _)
    · exact hentered

theorem EntersCallee.above (h : t.EntersCallee slot u) : t.current.func < slot := by
  cases h with
  | script flags hslot habove htop => exact habove
  | native hslot habove htop => exact habove

/-- **Callees.**  Whatever a function does that was called, it gives the caller back its frame and its
values, and nothing is reported in the frame of the caller meanwhile. -/
theorem Finishes.afterCallee (h : Finishes u u') (hin : t.InCallee slot u) :
    t.AfterCallee slot u' := by
  induction h generalizing t slot with
  | left u results => exact hin.popFrame results
  | returns steps hreturns => exact (hin.runFrame steps).1 hreturns
  | runs steps hstays hrest ih => exact ih ((hin.runFrame steps).2 hstays)
  | works hwork hrest ih =>
    exact ih ⟨hin.inside.work hwork, hin.caller, hin.adds.trans (.of_quiet rfl rfl rfl rfl rfl)⟩
  | @calls u entered back u' inner henters hcallee hrest ihcallee ihrest =>
    -- the caller of the inner call is the callee itself
    have hcaller : u.frames.size ≠ 0 := by
      rw [hin.inside.size]
      exact Nat.succ_ne_zero _
    exact ihrest (hin.of_afterCallee henters.above (ihcallee (henters.inCallee hcaller)))

end Thread

end VmInspect
