import VmInspect.Proofs.Thread.Running

/-!
# What a run adds to the log

Each part of a run reports events of its own kind, in the current frame, and leaves the hook and what it
is told about alone.  This file says so for a calm hook, part by part:

* `Thread.Adds` — between two threads only records of a kind were logged.
* `Thread.adds_watch` — a look at an instruction reports lines and counts.
* `Thread.adds_beginRun`, `Thread.adds_execute` — the beginning of a run and an instruction report that
  the frame was entered.
* `Thread.adds_popFrame` — leaving a frame reports its return.
-/

namespace VmInspect

namespace Thread

variable {H : Type}

/-- Between the two threads only records of a kind were logged, to the same hook. -/
structure Adds (Kind : HookRecord → Prop) (t t' : Thread H (List HookRecord)) : Prop where
  log : ∃ records, t'.host = t.host ++ records ∧ ∀ r ∈ records, Kind r
  hook : t'.hook = t.hook
  allowed : t'.allowHook = t.allowHook
  mask : t'.mask = t.mask
  suspended : t'.suspended = t.suspended

variable {Kind : HookRecord → Prop} {t t' t'' : Thread H (List HookRecord)}
  {records : List HookRecord}

namespace Adds

/-- Nothing is logged by what leaves the hook and the log alone. -/
theorem of_quiet (hhost : t'.host = t.host) (hhook : t'.hook = t.hook)
    (hallow : t'.allowHook = t.allowHook) (hmask : t'.mask = t.mask)
    (hsuspended : t'.suspended = t.suspended) : t.Adds Kind t' := by
  refine ⟨⟨[], ?_, fun r hr => ?_⟩, hhook, hallow, hmask, hsuspended⟩
  · rw [hhost, List.append_nil]
  · cases hr

theorem refl (t : Thread H (List HookRecord)) : t.Adds Kind t := of_quiet rfl rfl rfl rfl rfl

theorem trans (h : t.Adds Kind t') (h' : t'.Adds Kind t'') : t.Adds Kind t'' := by
  obtain ⟨records, hlog, hall⟩ := h.log
  obtain ⟨records', hlog', hall'⟩ := h'.log
  refine ⟨⟨records ++ records', ?_, fun r hr => ?_⟩, h'.hook.trans h.hook,
    h'.allowed.trans h.allowed, h'.mask.trans h.mask, h'.suspended.trans h.suspended⟩
  · rw [hlog', hlog, List.append_assoc]
  · rcases List.mem_append.1 hr with hr | hr
    · exact hall r hr
    · exact hall' r hr

theorem of_reports (hr : Reports t t' records) (hall : ∀ r ∈ records, Kind r) : t.Adds Kind t' := by
  obtain ⟨m, rfl, -⟩ := hr
  exact ⟨⟨records, rfl, hall⟩, rfl, rfl, rfl, rfl⟩

theorem mono {Kind' : HookRecord → Prop} (h : t.Adds Kind t') (hkind : ∀ r, Kind r → Kind' r) :
    t.Adds Kind' t' := by
  obtain ⟨records, hlog, hall⟩ := h.log
  exact ⟨⟨records, hlog, fun r hr => hkind r (hall r hr)⟩, h.hook, h.allowed, h.mask, h.suspended⟩

/-- A hook that is there to be told is still there. -/
theorem hears (h : t.Adds Kind t') (hhears : (t.hook.isSome && t.allowHook) = true) :
    (t'.hook.isSome && t'.allowHook) = true := by
  rw [h.hook, h.allowed]
  exact hhears

end Adds

/-! ## The records of each part -/

theorem eq_of_mem_logged {event : HookEvent} {line : Option Int} {r : HookRecord}
    (hr : r ∈ t.logged event line) : r = ⟨event, line, t.currentId⟩ := by
  unfold logged at hr
  split at hr
  · exact List.mem_singleton.1 hr
  · cases hr

theorem of_mem_eventsAt {proto : Proto} {pc : Nat} {mask : HookMask} {countDue : Bool}
    {r : HookRecord} (hr : r ∈ t.eventsAt proto pc mask countDue) :
    r.frame = t.currentId ∧ (r.event = .line ∨ r.event = .count) := by
  rcases List.mem_append.1 hr with hr | hr
  · split at hr
    · rw [eq_of_mem_logged hr]
      exact ⟨rfl, Or.inr rfl⟩
    · cases hr
  · split at hr
    · rw [eq_of_mem_logged hr]
      exact ⟨rfl, Or.inl rfl⟩
    · cases hr

theorem frame_of_mem_callLogged {id : Nat} {r : HookRecord} (hr : r ∈ t.callLogged id) :
    r.frame = t.currentId := by
  unfold callLogged at hr
  split at hr
  · cases hr
  · split at hr
    · rw [eq_of_mem_logged hr]
    · cases hr

/-! ## Looks at instructions -/

theorem adds_reportEvents
    (hkind : ∀ r, r.frame = t.currentId → r.event = .line ∨ r.event = .count → Kind r)
    (proto : Proto) (pc : Nat) (mask : HookMask) (countDue : Bool) :
    t.Adds Kind (t.reportEvents calm proto pc mask countDue) := by
  obtain ⟨top, oldPc, -, hreports⟩ := t.exists_reportEvents_calm proto pc mask countDue
  have hready : t.Adds Kind { t with top := top, oldPc := oldPc } := .of_quiet rfl rfl rfl rfl rfl
  exact hready.trans (.of_reports hreports fun r hr =>
    hkind r (of_mem_eventsAt hr).1 (of_mem_eventsAt hr).2)

/-- A look at an instruction reports lines and counts alone. -/
theorem adds_watch
    (hkind : ∀ r, r.frame = t.currentId → r.event = .line ∨ r.event = .count → Kind r)
    (trap : Bool) (pc : Nat) : t.Adds Kind (t.watch calm trap pc).2 := by
  have hcharged : t.Adds Kind (t.charged pc) := .of_quiet rfl rfl rfl rfl rfl
  have hevents : ∀ proto, t.Adds Kind ((t.charged pc).reportEvents calm proto pc t.mask t.countIsDue) := by
    intro proto
    have hid : (t.charged pc).currentId = t.currentId := currentId_onFrame t t.currentId _
    exact hcharged.trans (adds_reportEvents (by rw [hid]; exact hkind) proto pc t.mask t.countIsDue)
  have hlook := t.look_watch calm trap pc
  generalize t.watch calm trap pc = result at hlook ⊢
  cases hlook with
  | idle => exact .refl t
  | unwatched => exact .of_quiet rfl rfl rfl rfl rfl
  | quiet => exact hcharged
  | resumed => exact hcharged.trans (.of_quiet rfl rfl rfl rfl rfl)
  | reported _ htold =>
    rw [← htold]
    exact hevents _
  | suspended _ htold =>
    rw [← htold]
    exact (hevents _).trans (.of_quiet rfl rfl rfl rfl rfl)

/-! ## Calls and returns -/

/-- A report is one of an event in the current frame. -/
theorem adds_report (hkind : ∀ r, r.frame = t.currentId → Kind r) (event : HookEvent)
    (line : Option Int) (first count : Nat) : t.Adds Kind (t.report calm event line first count) := by
  refine .of_reports (t.report_calm event line first count) ?_
  intro r hr
  rw [eq_of_mem_logged hr]
  exact hkind _ rfl

theorem adds_hookCall (hkind : ∀ r, r.frame = t.currentId → Kind r) (id : Nat) :
    t.Adds Kind (t.hookCall calm id) := by
  have hplaced : t.Adds Kind { t with oldPc := 0 } := .of_quiet rfl rfl rfl rfl rfl
  exact hplaced.trans (.of_reports (t.hookCall_calm id) fun r hr =>
    hkind r (frame_of_mem_callLogged hr))

/-- The beginning of a run reports that the frame was entered. -/
theorem adds_beginRun (hkind : ∀ r, r.frame = t.currentId → Kind r) :
    t.Adds Kind (t.beginRun calm).2 := by
  have hmarked : t.Adds Kind (t.onFrame t.currentId (·.setTrap true)) :=
    .of_quiet rfl rfl rfl rfl rfl
  have hid := currentId_onFrame t t.currentId (·.setTrap true)
  have hopening := t.opening_beginRun calm
  generalize t.beginRun calm = result at hopening ⊢
  cases hopening with
  | idle => exact .refl t
  | vararg _ hu => exact hu ▸ hmarked
  | onward _ hu => exact hu ▸ hmarked
  | entered _ hu =>
    rw [← hu]
    exact hmarked.trans (adds_hookCall (by rw [hid]; exact hkind) t.currentId)

/-- So does the instruction that sets extra arguments apart, and no other reports anything. -/
theorem adds_execute (hkind : ∀ r, r.frame = t.currentId → Kind r) (id pc : Nat) (trap : Bool)
    (i : Instruction) : t.Adds Kind (t.execute calm id pc trap i).2 := by
  obtain ⟨s, hs⟩ : ∃ s, (t.onFrame id (·.setSavedPc (pc + 1))).onMachine (·.adjustVarargs i.a) = s :=
    ⟨_, rfl⟩
  have hready : t.Adds Kind s := by
    rw [← hs]
    exact .of_quiet rfl rfl rfl rfl rfl
  have hid : s.currentId = t.currentId := by
    rw [← hs]
    exact (Machine.currentId_adjustVarargs _ i.a).trans (currentId_onFrame t id _)
  have hprepares : t.Adds Kind (s.hookVarargPrep calm) := by
    unfold hookVarargPrep
    split
    · have hcall := hready.trans (adds_hookCall (by rw [hid]; exact hkind) s.currentId)
      exact hcall.trans (.of_quiet rfl rfl rfl rfl rfl)
    · exact hready
  unfold execute
  by_cases hop : i.opcode = .varargPrep
  · simp only [hop, if_true, prepareVarargs, hs]
    exact hprepares.trans (.of_quiet rfl rfl rfl rfl rfl)
  · simp only [hop, if_false]
    exact .of_quiet rfl rfl rfl rfl rfl

theorem adds_backToCaller (t : Thread H (List HookRecord)) (id : Nat) :
    t.Adds Kind (t.backToCaller id) := by
  obtain ⟨pc, h⟩ := t.exists_backToCaller id
  rw [h]
  exact .of_quiet rfl rfl rfl rfl rfl

/-- Leaving a frame reports its return. -/
theorem adds_popFrame (hkind : ∀ r, r.frame = t.currentId → Kind r) (results : Nat) :
    t.Adds Kind (t.popFrame calm results).2 := by
  have hreturn : t.Adds Kind (t.hookReturn calm results) := by
    rw [hookReturn_eq]
    split
    · exact (adds_report hkind .ret none _ results).trans (adds_backToCaller _ _)
    · exact adds_backToCaller t _
  unfold popFrame
  by_cases hbase : t.currentId = Machine.baseFrame
  · simp only [hbase, if_true]
    exact .refl t
  · simp only [hbase, if_false]
    split
    · exact .of_quiet rfl rfl rfl rfl rfl
    · exact hreturn.trans (.of_quiet rfl rfl rfl rfl rfl)

end Thread

end VmInspect
