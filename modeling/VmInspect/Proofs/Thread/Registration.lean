import VmInspect.Bytecode.Builder
import VmInspect.Proofs.Thread.Running

/-!
# Hooks are told what they ask for

A callback may do anything with the thread, and may also install another hook or remove the one that
is being told.  This file follows what each hook is told, whatever the callback does:

* `Thread.Registered` — the invariant: the mask is the one that the installed hook asks for.
* `Thread.informs_fireHook` — an event that is selected when it is reported is told to a hook that asks
  for it.
* `Thread.fair_traceExec_iff` — a look at an instruction tells a hook about a line that it does not ask
  for exactly if the hook was installed while the count event of the instruction was reported.
* `Thread.told_asked_iff` — so this is the only way in which a hook is ever told too much.
-/

namespace VmInspect

namespace Thread

/-! ## What hooks are told -/

/-- An event that a hook was told about. -/
structure Told (H : Type) where
  hook : H
  record : HookRecord
deriving DecidableEq, Repr

/-- A callback that does anything, and notes what it is told. -/
def telling {H : Type} (act : Callback H (List (Told H))) : Callback H (List (Told H)) :=
  fun hook record t =>
    ((act hook record t).1, { (act hook record t).2 with host := t.host ++ [⟨hook, record⟩] })

/-- What is done with a thread. -/
inductive Request (H : Type) where
  /-- anything that concerns the machine alone -/
  | work (change : Machine → Machine)
  /-- install a hook with the events that it asks for, or remove it -/
  | install (hook : Option H) (count : Int)
  | enterScript (func : Nat) (flags : CallFlags)
  | enterNative (func : Nat)
  | leave (results : Nat)
  /-- report that the current frame was entered -/
  | reportCall
  /-- report it once the extra arguments were set apart -/
  | reportPrepared
  /-- look for events at an instruction -/
  | look (pc : Nat)
  | resume

variable {H : Type} (asked : H → HookMask) (act : Callback H (List (Told H)))

/-- Do what is requested. -/
def serve (t : Thread H (List (Told H))) : Request H → Thread H (List (Told H))
  | .work change => t.onMachine change
  | .install hook count => t.setHook hook ((hook.map asked).getD .empty) count
  | .enterScript func flags => (t.pushScriptFrame func flags).2
  | .enterNative func => (t.pushNativeFrame (telling act) func).2
  | .leave results => (t.popFrame (telling act) results).2
  | .reportCall => (t.traceCall (telling act)).2
  | .reportPrepared => t.hookVarargPrep (telling act)
  | .look pc => (t.traceExec (telling act) pc).2
  | .resume => t.resume

def serveAll (t : Thread H (List (Told H))) (requests : List (Request H)) :
    Thread H (List (Told H)) :=
  requests.foldl (serve asked act) t

/-- The mask is the one that the installed hook asks for. -/
def Registered {W : Type} (t : Thread H W) : Prop := ∀ hook, t.hook = some hook → t.mask = asked hook

/-- A callback installs hooks only with the events that they ask for. -/
def Respects : Prop :=
  ∀ hook record t, Registered asked t → Registered asked (act hook record t).2

/-- Every hook in a log was told what it asks for. -/
def Fair (log : List (Told H)) : Prop := ∀ e ∈ log, (asked e.hook).selects e.record.event = true

variable {asked act}

theorem fair_append_iff {log log' : List (Told H)} :
    Fair asked (log ++ log') ↔ Fair asked log ∧ Fair asked log' := by
  unfold Fair
  constructor
  · intro h
    exact ⟨fun e he => h e (List.mem_append_left log' he), fun e he => h e (List.mem_append_right log he)⟩
  · rintro ⟨h, h'⟩ e he
    rcases List.mem_append.1 he with he | he
    · exact h e he
    · exact h' e he

theorem registered_initial {W : Type} (host : W) :
    Registered asked (Thread.initial host : Thread H W) := by
  intro hook h
  cases h

theorem registered_setHook {W : Type} (t : Thread H W) (hook : Option H) (count : Int) :
    Registered asked (t.setHook hook ((hook.map asked).getD .empty) count) := by
  unfold setHook
  cases hook with
  | none =>
    intro h hh
    cases hh
  | some hook =>
    intro h hh
    by_cases hempty : (asked hook).isEmpty = true
    · simp [hempty] at hh
    · simp only [Option.isSome_some, Option.map_some, Option.getD_some, hempty, Bool.not_false,
        Bool.and_self, if_true, Option.some.injEq] at hh ⊢
      rw [hh]

/-! ## Reports -/

/-- What the installed hook is told when an event is reported. -/
def toldAt {W : Type} (t : Thread H W) (event : HookEvent) (line : Option Int) : List (Told H) :=
  if t.allowHook then t.hook.toList.map fun hook => ⟨hook, ⟨event, line, t.currentId⟩⟩ else []

variable {t t' t'' : Thread H (List (Told H))} {event : HookEvent}

/-- Whatever the callback does, a report tells the installed hook about the event, and the mask is still
that of the hook that is installed. -/
theorem fireHook_telling (hact : Respects asked act) (h : Registered asked t) (event : HookEvent)
    (line : Option Int) (first count : Nat) :
    Registered asked (t.fireHook (telling act) event line first count).2 ∧
      (t.fireHook (telling act) event line first count).2.host = t.host ++ t.toldAt event line := by
  unfold fireHook toldAt
  cases hhook : t.hook with
  | none =>
    simp only [Option.toList_none, List.map_nil, ite_self, List.append_nil, and_true]
    exact h
  | some hook =>
    by_cases hallow : t.allowHook = true
    · have hready : Registered asked (t.beginReport first count) := h
      have hafter := hact hook ⟨event, line, t.currentId⟩ _ hready
      simp only [hallow, if_true]
      split
      · exact ⟨hafter, rfl⟩
      · exact ⟨hafter, rfl⟩
    · simp only [hallow, Bool.false_eq_true, if_false, List.append_nil, and_true]
      exact h

/-- The hook asks for the event exactly if the mask selects it. -/
theorem fair_toldAt_iff (h : Registered asked t) (event : HookEvent) (line : Option Int) :
    Fair asked (t.toldAt event line) ↔
      ((t.hook.isSome && t.allowHook) = true → t.mask.selects event = true) := by
  unfold toldAt Fair
  cases hhook : t.hook with
  | none => simp
  | some hook =>
    rw [h hook hhook]
    cases t.allowHook with
    | false => simp
    | true => simp

/-- The second thread is the first one after its hooks were told only what they ask for. -/
structure Informs (asked : H → HookMask) (t t' : Thread H (List (Told H))) : Prop where
  registered : Registered asked t'
  told : ∃ log, t'.host = t.host ++ log ∧ Fair asked log

namespace Informs

theorem trans (h : Informs asked t t') (h' : Informs asked t' t'') : Informs asked t t'' := by
  obtain ⟨log, hlog, hfair⟩ := h.told
  obtain ⟨log', hlog', hfair'⟩ := h'.told
  refine ⟨h'.registered, log ++ log', ?_, fair_append_iff.2 ⟨hfair, hfair'⟩⟩
  rw [hlog', hlog, List.append_assoc]

/-- Nothing is told by what leaves the hook, the mask and the log alone. -/
theorem of_quiet (h : Registered asked t) (hhook : t'.hook = t.hook) (hmask : t'.mask = t.mask)
    (hhost : t'.host = t.host) : Informs asked t t' := by
  refine ⟨fun hook hh => ?_, [], ?_, fun e he => ?_⟩
  · rw [hmask]
    exact h hook (hhook.symm.trans hh)
  · rw [hhost, List.append_nil]
  · cases he

theorem fair_iff (h : Informs asked t t') : Fair asked t'.host ↔ Fair asked t.host := by
  obtain ⟨log, hlog, hfair⟩ := h.told
  rw [hlog, fair_append_iff]
  exact and_iff_left hfair

end Informs

/-- An event that is selected when it is reported is told to a hook that asks for it. -/
theorem informs_fireHook (hact : Respects asked act) (h : Registered asked t)
    (hselected : t.mask.selects event = true) (line : Option Int) (first count : Nat) :
    Informs asked t (t.fireHook (telling act) event line first count).2 := by
  obtain ⟨hafter, hlog⟩ := fireHook_telling hact h event line first count
  exact ⟨hafter, _, hlog, (fair_toldAt_iff h event line).2 fun _ => hselected⟩

/-! ## Calls and returns -/

theorem informs_hookCall (hact : Respects asked act) (h : Registered asked t) (id : Nat) :
    Informs asked t (t.hookCall (telling act) id) := by
  cases hf : t.frame? id with
  | none =>
    rw [hookCall_of_no_frame _ hf]
    exact .of_quiet h rfl rfl rfl
  | some frame =>
    by_cases hcall : t.mask.call = true
    · rw [hookCall_of_selected _ hf hcall]
      have hselected : t.mask.selects (if frame.flags.tailCall then .tailCall else .call) = true := by
        split
        · exact hcall
        · exact hcall
      have hplaced : Informs asked t (({ t with oldPc := 0 } : Thread H (List (Told H))).onFrame id
          (·.setSavedPc (frame.savedPc?.getD 0 + 1))) := .of_quiet h rfl rfl rfl
      have hreport := informs_fireHook hact hplaced.registered hselected none 1
        (((t.frameProto? id).map Proto.paramCount).getD 0)
      exact (hplaced.trans hreport).trans (.of_quiet hreport.registered rfl rfl rfl)
    · rw [Bool.not_eq_true] at hcall
      rw [hookCall_of_not_selected _ hcall]
      exact .of_quiet h rfl rfl rfl

theorem informs_hookVarargPrep (hact : Respects asked act) (h : Registered asked t) :
    Informs asked t (t.hookVarargPrep (telling act)) := by
  unfold hookVarargPrep
  split
  · have hcall := informs_hookCall hact h t.currentId
    exact hcall.trans (.of_quiet hcall.registered rfl rfl rfl)
  · exact .of_quiet h rfl rfl rfl

theorem informs_traceCall (hact : Respects asked act) (h : Registered asked t) :
    Informs asked t (t.traceCall (telling act)).2 := by
  have hmarked : Informs asked t (t.onFrame t.currentId (·.setTrap true)) :=
    .of_quiet h rfl rfl rfl
  have hopening := t.opening_traceCall (telling act)
  generalize t.traceCall (telling act) = result at hopening ⊢
  cases hopening with
  | idle => exact .of_quiet h rfl rfl rfl
  | vararg _ hu => exact hu ▸ hmarked
  | onward _ hu => exact hu ▸ hmarked
  | entered _ hu =>
    rw [← hu]
    exact hmarked.trans (informs_hookCall hact hmarked.registered t.currentId)

theorem informs_pushScriptFrame (h : Registered asked t) (func : Nat) (flags : CallFlags) :
    Informs asked t (t.pushScriptFrame func flags).2 := by
  obtain ⟨m, hpush⟩ := t.pushScriptFrame_rest func flags
  rw [hpush]
  exact .of_quiet h rfl rfl rfl

theorem informs_pushNativeFrame (hact : Respects asked act) (h : Registered asked t) (func : Nat) :
    Informs asked t (t.pushNativeFrame (telling act) func).2 := by
  unfold pushNativeFrame
  split
  · have hentered : Informs asked t (t.onMachine (·.enterNative func)) := .of_quiet h rfl rfl rfl
    simp only
    split
    · rename_i hcall
      have hselected : (t.onMachine (·.enterNative func)).mask.selects .call = true := hcall
      exact hentered.trans (informs_fireHook hact hentered.registered hselected none 1 _)
    · exact hentered
  · exact .of_quiet h rfl rfl rfl

theorem informs_backToCaller (h : Registered asked t) (id : Nat) :
    Informs asked t (t.backToCaller id) := by
  unfold backToCaller
  split
  · exact .of_quiet h rfl rfl rfl
  · exact .of_quiet h rfl rfl rfl

theorem informs_hookReturn (hact : Respects asked act) (h : Registered asked t) (results : Nat) :
    Informs asked t (t.hookReturn (telling act) results) := by
  rw [hookReturn_eq]
  split
  · rename_i hret
    have hselected : t.mask.selects .ret = true := hret
    have hreport := informs_fireHook hact h hselected none
      ((t.top - results) - t.current.func) results
    exact hreport.trans (informs_backToCaller hreport.registered t.currentId)
  · exact informs_backToCaller h t.currentId

theorem informs_popFrame (hact : Respects asked act) (h : Registered asked t) (results : Nat) :
    Informs asked t (t.popFrame (telling act) results).2 := by
  unfold popFrame
  by_cases hbase : t.currentId = Machine.baseFrame
  · simp only [hbase, if_true]
    exact .of_quiet h rfl rfl rfl
  · simp only [hbase, if_false]
    split
    · exact .of_quiet h rfl rfl rfl
    · have hreturn := informs_hookReturn hact h results
      exact hreturn.trans (.of_quiet hreturn.registered rfl rfl rfl)

theorem informs_resume (h : Registered asked t) : Informs asked t t.resume := by
  unfold resume
  split
  · exact .of_quiet h rfl rfl rfl
  · exact .of_quiet h rfl rfl rfl

/-! ## Looks at instructions -/

/-- Whether a hook that does not ask for lines is told about one, if the mask had lines before. -/
def misleads {W : Type} (t : Thread H W) (proto : Proto) (pc : Nat) : Bool :=
  t.hook.isSome && t.allowHook && !t.mask.line && t.beginsLine proto pc

/-- Whether a look at an instruction tells a hook about a line that it does not ask for.  The mask is
that of the hook that is told about the count event, and another one may be installed by then. -/
def misinforms {W : Type} (run : Callback H W) (t : Thread H W) (pc : Nat) : Bool :=
  match t.frameProto? t.currentId with
  | none => false
  | some proto =>
    t.mask.line && !(t.charged pc).current.flags.hookYield &&
      (((t.charged pc).protectWindow proto pc).reportCount run t.countIsDue).misleads proto pc

theorem informs_reportCount (hact : Respects asked act) (h : Registered asked t) {countDue : Bool}
    (hcount : countDue = true → t.mask.count = true) :
    Informs asked t (t.reportCount (telling act) countDue) := by
  unfold reportCount
  split
  · rename_i hdue
    have hselected : t.mask.selects .count = true := hcount hdue
    exact informs_fireHook hact h hselected none 0 0
  · exact .of_quiet h rfl rfl rfl

/-- A line event is reported without another look at the mask. -/
theorem reportLine_telling (hact : Respects asked act) (h : Registered asked t) (proto : Proto)
    (pc : Nat) :
    Registered asked (t.reportLine (telling act) proto pc) ∧
      (Fair asked (t.reportLine (telling act) proto pc).host ↔
        Fair asked t.host ∧ t.misleads proto pc = false) := by
  unfold reportLine misleads
  by_cases hbegins : t.beginsLine proto pc = true
  · obtain ⟨hafter, hlog⟩ := fireHook_telling hact h .line (proto.line? pc) 0 0
    simp only [hbegins, if_true, Bool.and_true, report]
    refine ⟨hafter, ?_⟩
    rw [hlog, fair_append_iff, fair_toldAt_iff h]
    refine and_congr_right fun _ => ?_
    show (_ → t.mask.line = true) ↔ _
    cases t.hook.isSome && t.allowHook <;> cases t.mask.line <;> simp
  · simp only [hbegins, Bool.false_eq_true, if_false, Bool.and_false, and_true]
    exact h

theorem informs_afterEvents (h : Registered asked t) (id : Nat) (countDue : Bool) :
    Informs asked t (t.afterEvents id countDue).2 := by
  unfold afterEvents
  split
  · split
    · exact .of_quiet h rfl rfl rfl
    · exact .of_quiet h rfl rfl rfl
  · exact .of_quiet h rfl rfl rfl

theorem informs_protectWindow (h : Registered asked t) (proto : Proto) (pc : Nat) :
    Informs asked t (t.protectWindow proto pc) := by
  obtain ⟨top, hwindow, -⟩ := t.exists_protectWindow proto pc
  rw [hwindow]
  exact .of_quiet h rfl rfl rfl

/-- **Looks.**  Whatever the callback does, a look at an instruction leaves the mask that of the
installed hook.  It tells a hook about an event that the hook does not ask for if and only if the
instruction begins a line and the hook that is told about its count event leaves another one
installed, which does not ask for lines. -/
theorem fair_traceExec_iff (hact : Respects asked act) (h : Registered asked t) (pc : Nat) :
    Registered asked (t.traceExec (telling act) pc).2 ∧
      (Fair asked (t.traceExec (telling act) pc).2.host ↔
        Fair asked t.host ∧ t.misinforms (telling act) pc = false) := by
  have hquiet : ∀ t', Informs asked t t' → Registered asked t' ∧
      (Fair asked t'.host ↔ Fair asked t.host ∧ false = false) := by
    intro t' hinforms
    exact ⟨hinforms.registered, hinforms.fair_iff.trans (and_iff_left rfl).symm⟩
  unfold misinforms
  cases hproto : t.frameProto? t.currentId with
  | none =>
    rw [traceExec_of_no_proto _ _ hproto]
    exact hquiet t (.of_quiet h rfl rfl rfl)
  | some proto =>
    simp only
    by_cases hwatch : t.mask.watchesInstructions = true
    · have hcharged : Informs asked t (t.charged pc) := .of_quiet h rfl rfl rfl
      have hready := hcharged.trans (informs_protectWindow hcharged.registered proto pc)
      have hcounted : Informs asked t
          (((t.charged pc).protectWindow proto pc).reportCount (telling act) t.countIsDue) := by
        refine hready.trans (informs_reportCount hact hready.registered fun hdue => ?_)
        rw [(settings_protectWindow (t.charged pc) proto pc).1]
        exact (Bool.and_eq_true_iff.1 hdue).2
      rw [traceExec_eq _ _ hproto hwatch]
      cases hline : t.mask.line with
      | false =>
        rw [Bool.false_and, Bool.false_and]
        refine hquiet _ ?_
        split
        · exact hcharged
        · split
          · exact hcharged.trans (.of_quiet hcharged.registered rfl rfl rfl)
          · rw [reportEvents_eq, hline, if_neg Bool.false_ne_true]
            exact hcounted.trans (informs_afterEvents hcounted.registered _ _)
      | true =>
        rw [Bool.not_true, Bool.and_false, if_neg Bool.false_ne_true, Bool.true_and]
        cases (t.charged pc).current.flags.hookYield with
        | true => exact hquiet _ (hcharged.trans (.of_quiet hcharged.registered rfl rfl rfl))
        | false =>
          rw [if_neg Bool.false_ne_true, Bool.not_false, Bool.true_and, reportEvents_eq, hline,
            if_pos rfl]
          obtain ⟨hafter, htold⟩ := reportLine_telling hact hcounted.registered proto pc
          have hdone := informs_afterEvents hafter t.currentId t.countIsDue
          exact ⟨hdone.registered,
            hdone.fair_iff.trans (htold.trans (and_congr_left fun _ => hcounted.fair_iff))⟩
    · have hnone : t.mask.line = false := by
        rw [HookMask.watchesInstructions, Bool.or_eq_true] at hwatch
        exact Bool.not_eq_true _ ▸ fun hline => hwatch (Or.inl hline)
      rw [hnone, Bool.false_and, Bool.false_and]
      refine hquiet _ ?_
      rw [traceExec_of_unwatched _ _ hproto (Bool.not_eq_true _ ▸ hwatch)]
      exact .of_quiet h rfl rfl rfl

/-! ## Whole histories -/

variable (asked act)

/-- Whether a request tells a hook about a line that it does not ask for. -/
def misinformsAt (t : Thread H (List (Told H))) : Request H → Bool
  | .look pc => t.misinforms (telling act) pc
  | _ => false

/-- Whether one of some requests does. -/
def misinformsIn : Thread H (List (Told H)) → List (Request H) → Bool
  | _, [] => false
  | t, request :: requests =>
    misinformsAt act t request || misinformsIn (serve asked act t request) requests

variable {asked act}

/-- The step lemma: only a look at an instruction tells a hook too much. -/
theorem fair_serve_iff (hact : Respects asked act) (h : Registered asked t) (request : Request H) :
    Registered asked (serve asked act t request) ∧
      (Fair asked (serve asked act t request).host ↔
        Fair asked t.host ∧ misinformsAt act t request = false) := by
  have hinforms : ∀ t', Informs asked t t' → Registered asked t' ∧
      (Fair asked t'.host ↔ Fair asked t.host ∧ false = false) := by
    intro t' hinforms
    exact ⟨hinforms.registered, hinforms.fair_iff.trans (and_iff_left rfl).symm⟩
  cases request with
  | work change => exact hinforms _ (.of_quiet h rfl rfl rfl)
  | install hook count =>
    exact hinforms _ ⟨registered_setHook t hook count, [], (List.append_nil _).symm,
      fun e he => by cases he⟩
  | enterScript func flags => exact hinforms _ (informs_pushScriptFrame h func flags)
  | enterNative func => exact hinforms _ (informs_pushNativeFrame hact h func)
  | leave results => exact hinforms _ (informs_popFrame hact h results)
  | reportCall => exact hinforms _ (informs_traceCall hact h)
  | reportPrepared => exact hinforms _ (informs_hookVarargPrep hact h)
  | look pc => exact fair_traceExec_iff hact h pc
  | resume => exact hinforms _ (informs_resume h)

/-- **What hooks are told.**  Hooks are installed with the events that they ask for, by requests and by
callbacks, which may do anything else besides.  On the way through any requests every hook is told
only about events that it asks for, if and only if at no look at an instruction the hook that is told
about the count event leaves one installed that does not ask for the line that is reported next. -/
theorem told_asked_iff (hact : Respects asked act) (h : Registered asked t)
    (requests : List (Request H)) :
    Fair asked (serveAll asked act t requests).host ↔
      Fair asked t.host ∧ misinformsIn asked act t requests = false := by
  induction requests generalizing t with
  | nil => exact (and_iff_left rfl).symm
  | cons request requests ih =>
    obtain ⟨hnext, hstep⟩ := fair_serve_iff hact h request
    have hrest := ih hnext
    show Fair asked (serveAll asked act (serve asked act t request) requests).host ↔ _
    rw [hrest, hstep, misinformsIn, Bool.or_eq_false_iff, and_assoc]

/-- A hook, which is the events that it asks for, installs another one when it is told about a count. -/
def switching (next : HookMask) : Callback HookMask (List (Told HookMask)) :=
  fun _ record t =>
    (.proceed, if record.event = .count then t.setHook (some next) next 5 else t)

theorem respects_switching (next : HookMask) : Respects id (switching next) := by
  intro hook record t h
  unfold switching
  simp only
  split
  · exact registered_setHook t (some next) 5
  · exact h

/-- A function of two lines, run under a hook that asks for lines and counts. -/
def switchRequests : List (Request HookMask) :=
  let proto := (((Builder.empty.withLines 1 2).emit (.abc .move 0 1 0) 1).emit
    (.abc .return0 0 0 0) 2).build
  [.work fun m => (m.register (.script proto #[])).push (.function 0), .enterScript 1 {},
    .install (some { line := true, count := true }) 1, .reportCall, .look 0, .look 1, .leave 0]

/-- A hook that asks for lines and returns takes over at the count event of the first instruction, and is
told about both lines and the return. -/
theorem told_asked_iff_switched :
    let next : HookMask := { line := true, ret := true }
    let log := (serveAll id (switching next) (Thread.initial []) switchRequests).host
    misinformsIn id (switching next) (Thread.initial []) switchRequests = false ∧
      Fair id log ∧
      log = [⟨{ line := true, count := true }, ⟨.count, none, 1⟩⟩, ⟨next, ⟨.line, some 1, 1⟩⟩,
        ⟨next, ⟨.line, some 2, 1⟩⟩, ⟨next, ⟨.ret, none, 1⟩⟩] := by
  intro next log
  have hquiet : misinformsIn id (switching next) (Thread.initial []) switchRequests = false := by
    decide +kernel
  have hnone : Fair id (Thread.initial [] : Thread HookMask (List (Told HookMask))).host := by
    intro e he
    cases he
  have hfair := (told_asked_iff (respects_switching next) (registered_initial [])
    switchRequests).2 ⟨hnone, hquiet⟩
  exact ⟨hquiet, hfair, by decide +kernel⟩

/-- A hook that only asks for counts takes over there, and is told about the first line. -/
theorem line_told_unasked :
    let next : HookMask := { count := true }
    let log := (serveAll id (switching next) (Thread.initial []) switchRequests).host
    Respects id (switching next) ∧
      log = [⟨{ line := true, count := true }, ⟨.count, none, 1⟩⟩, ⟨next, ⟨.line, some 1, 1⟩⟩] ∧
      ¬ Fair id log := by
  intro next log
  have hlog : log = [⟨{ line := true, count := true }, ⟨.count, none, 1⟩⟩,
      ⟨next, ⟨.line, some 1, 1⟩⟩] := by
    decide +kernel
  refine ⟨respects_switching next, hlog, fun hfair => ?_⟩
  have htold := hfair ⟨next, ⟨.line, some 1, 1⟩⟩ (by rw [hlog]; simp)
  cases htold

end Thread

end VmInspect
