import VmInspect.Proofs.Machine.Varargs
import VmInspect.Proofs.Thread.Leftovers
import VmInspect.Proofs.Thread.Levels

/-!
# Values moved across calls

While a call or a return is reported, the description of the frame says where the values are that move
across the call: the parameters of a function that was entered, or the results of one that returns.  They
are counted from the slot of the function, which may have been moved above its arguments meanwhile.

* `Machine.QuietBut` — no frame says so, but for those whose events are being reported.
* `Thread.quietBut_operate`, `Thread.quietBut_operateAll` — operations keep it, whatever callbacks do.
* `Thread.host_report_seeing` — what a hook sees of values, where the frame did not tell of any before.
* `Machine.Receives` — the current function has certain parameters in its registers.
* `Thread.seen_of_entered`, `Thread.seen_of_adjusted`, `Thread.seen_of_native`, `Thread.seen_of_return` —
  what the hook sees of the four kinds of events.
* `Thread.transfer_windows` — all of it, of every thread that operations lead to.
-/

namespace VmInspect

/-! ## Frames that tell of values -/

namespace Thread

/-- What is noted in a frame while an event is reported tells of its values. -/
theorem moved_insertFlags_reportFlags (f : Frame) (top first count : Nat) :
    ({ f with top, transfer := if count = 0 then f.transfer else ⟨first, count⟩ }.insertFlags
      (reportFlags count)).moved = if count = 0 then f.moved else ⟨first, count⟩ := by
  by_cases hcount : count = 0
  · simp [Frame.moved, Frame.insertFlags, CallFlags.insert, reportFlags, hcount]
  · simp [Frame.moved, Frame.insertFlags, CallFlags.insert, reportFlags, hcount]

/-- Afterwards it tells of them no longer. -/
theorem moved_removeFlags_reportFlags (f : Frame) (top count : Nat) :
    ({ f with top }.removeFlags (reportFlags count)).moved = if count = 0 then f.moved else {} := by
  by_cases hcount : count = 0
  · simp [Frame.moved, Frame.removeFlags, CallFlags.remove, reportFlags, hcount]
  · simp [Frame.moved, Frame.removeFlags, CallFlags.remove, reportFlags, hcount]

end Thread

namespace Machine

variable {m m' : Machine} {marked : List Nat}

/-- That is what a description says of the frame. -/
theorem transfer_describeFrame? (m : Machine) (id : Nat) :
    (m.describeFrame? id).map FunctionInfo.transfer = (m.frame? id).map Frame.moved := by
  rw [describeFrame?, Option.map_map]
  rfl

/-- No frame tells of values that are moved, but for certain ones. -/
def QuietBut (m : Machine) (marked : List Nat) : Prop :=
  ∀ id f, m.frame? id = some f → id ∉ marked → f.moved = {}

theorem quietBut_initial : Machine.initial.QuietBut [] := by
  intro id f hf _
  cases id with
  | zero =>
    obtain rfl := Option.some.inj hf
    rfl
  | succ id => cases hf

namespace QuietBut

theorem of_frames_eq (h : m.QuietBut marked) (hframes : m'.frames = m.frames) : m'.QuietBut marked := by
  intro id f hf hid
  rw [frame?, hframes] at hf
  exact h id f hf hid

/-- A frame that is changed tells of nothing, or is one of the others from then on. -/
theorem modifyFrame (h : m.QuietBut marked) (id : Nat) {change : Frame → Frame} {marked' : List Nat}
    (hothers : ∀ other, other ≠ id → other ∉ marked' → other ∉ marked)
    (hchange : id ∉ marked' → ∀ f, m.frame? id = some f → (change f).moved = {}) :
    (m.modifyFrame id change).QuietBut marked' := by
  intro other f hf hother
  rw [frame?_modifyFrame] at hf
  split at hf
  · rename_i hid
    subst hid
    obtain ⟨g, hg, rfl⟩ := Option.map_eq_some_iff.1 hf
    exact hchange hother g hg
  · rename_i hid
    exact h other f hf (hothers other (Ne.symm hid) hother)

/-- A change that has no part in it. -/
theorem modifyFrame_of_same (h : m.QuietBut marked) (id : Nat) {change : Frame → Frame}
    (hchange : ∀ f, (change f).moved = f.moved) : (m.modifyFrame id change).QuietBut marked :=
  h.modifyFrame id (fun _ _ hother => hother) fun hid f hf => (hchange f).trans (h id f hf hid)

theorem push (h : m.QuietBut marked) {f : Frame} (hframes : m'.frames = m.frames.push f)
    (hquiet : f.moved = {}) : m'.QuietBut marked := by
  intro id g hg hid
  rw [frame?, hframes, Array.getElem?_push] at hg
  split at hg
  · obtain rfl := Option.some.inj hg
    exact hquiet
  · exact h id g hg hid

theorem pop (h : m.QuietBut marked) (hframes : m'.frames = m.frames.pop) : m'.QuietBut marked := by
  intro id g hg hid
  rw [frame?, hframes, Array.getElem?_pop] at hg
  split at hg
  · exact h id g hg hid
  · cases hg

end QuietBut

end Machine

namespace Thread

variable {H W : Type} {run : Callback H W} {t : Thread H W} {marked : List Nat}

/-! ## Operations -/

/-- A callback does what a program can do. -/
def Operates (run : Callback H W) : Prop :=
  ∀ hook record (t : Thread H W), t.allowHook = false →
    ∃ ops, (run hook record t).2 = t.operateAll run ops

theorem KeepsDepth.operates (h : KeepsDepth run) : Operates run := by
  intro hook record t hforbidden
  obtain ⟨ops, hops, -⟩ := h hook record t hforbidden
  exact ⟨ops, hops⟩

/-- A callback leaves no frame behind that tells of values. -/
def KeepsQuiet (run : Callback H W) : Prop :=
  ∀ hook record (t : Thread H W) marked, t.allowHook = false → t.QuietBut marked →
    (run hook record t).2.QuietBut marked

theorem keepsQuiet_idle : KeepsQuiet (idle : Callback H W) := fun _ _ _ _ _ h => h

/-- Its reports do not, either: the frame of the event tells of values only up to the end of the report. -/
theorem keptByEvents_quietBut (hrun : KeepsQuiet run) (marked : List Nat) :
    KeptByEvents run fun m _ => m.QuietBut marked := by
  refine ⟨?_, ?_⟩
  · intro m _ id change hchange h
    exact h.modifyFrame_of_same id fun f => (hchange f).2
  · intro t event line first count h
    refine report_keeps (P := fun m _ => m.QuietBut marked) h ?_
    rintro hook u - rfl
    have hroom : Machine.QuietBut
        (({ t.toMachine with top := t.reportTop } : Machine).ensureStack Machine.minStack) marked :=
      h.of_frames_eq rfl
    by_cases hcount : count = 0
    · subst hcount
      have hbegin : (t.beginReport first 0).QuietBut marked := by
        refine hroom.modifyFrame_of_same t.currentId fun f => ?_
        rw [moved_insertFlags_reportFlags, if_pos rfl]
      have hdone := hrun hook ⟨event, line, t.currentId⟩ (t.beginReport first 0) marked rfl hbegin
      have hend := hdone.modifyFrame_of_same t.currentId fun f =>
        (moved_removeFlags_reportFlags f t.current.top 0).trans (if_pos rfl)
      exact hend.of_frames_eq rfl
    · have hbegin : (t.beginReport first count).QuietBut (t.currentId :: marked) := by
        refine hroom.modifyFrame t.currentId (fun other hne hother => ?_) fun hid => ?_
        · exact fun hmem => hother (List.mem_cons_of_mem _ hmem)
        · exact absurd List.mem_cons_self hid
      have hdone := hrun hook ⟨event, line, t.currentId⟩ _ _ rfl hbegin
      have hothers : ∀ other, other ≠ t.currentId → other ∉ marked → other ∉ t.currentId :: marked := by
        intro other hne hother
        simp [hne, hother]
      have hend := hdone.modifyFrame t.currentId hothers fun _ f _ =>
        (moved_removeFlags_reportFlags f t.current.top count).trans (if_neg hcount)
      exact hend.of_frames_eq rfl

/-- The step lemma: an operation leaves no frame behind that tells of values. -/
theorem quietBut_operate (hrun : KeepsQuiet run) (h : t.QuietBut marked) (op : Operation H W) :
    (t.operate run op).QuietBut marked := by
  have hkept := keptByEvents_quietBut hrun marked
  have henter : ∀ func flags, (t.pushScriptFrame func flags).2.QuietBut marked := by
    intro func flags
    refine pushScriptFrame_keeps (P := fun m _ => m.QuietBut marked) h fun _ proto => ?_
    exact h.push (t.toMachine.frames_enterScript proto func flags) (ite_self _)
  cases op with
  | enterScript func flags => exact henter func flags
  | register f => exact h.of_frames_eq rfl
  | step step =>
    cases step with
    | stack action => exact h.of_frames_eq (t.toMachine.frames_act action)
    | setHook hook mask count => exact hkept.setHook h hook mask count
    | fireHook event line first count => exact hkept.report event line first count h
    | traceExec pc => exact hkept.traceExec h (h.of_frames_eq rfl) pc
    | traceCall => exact hkept.traceCall h
    | hookCall id => exact hkept.hookCall h id
    | hookReturn results => exact hkept.hookReturn h results
    | hookVarargPrep => exact hkept.hookVarargPrep h
    | enterScript func flags _ => exact henter func flags
    | enterNative func =>
      have hentered : (t.enterNative func).QuietBut marked :=
        h.push (f := Frame.native func (t.top + Machine.minStack) (some t.currentId)) rfl rfl
      exact hkept.pushNativeFrame (Q := fun m _ => m.QuietBut marked) h (fun _ => hentered)
        fun _ _ hm => hm
    | leave results =>
      exact hkept.popFrame (Q := fun m _ => m.QuietBut marked) h h fun m _ hm _ => hm.pop rfl
    | adjustVarargs fixed =>
      have hmoved : (t.toMachine.modifyFrame t.currentId
          (Machine.adjustedFrame (t.above t.current.func) fixed)).QuietBut marked :=
        h.modifyFrame_of_same t.currentId fun _ => rfl
      exact hmoved.of_frames_eq (t.toMachine.frames_adjustVarargs fixed)
    | setSavedPc id pc => exact hkept.setSavedPc h id pc
    | resume => exact hkept.resume h
    | note change => exact h

/-- The run lemma. -/
theorem quietBut_operateAll (hrun : KeepsQuiet run) (h : t.QuietBut marked) (ops : List (Operation H W)) :
    (t.operateAll run ops).QuietBut marked := by
  induction ops generalizing t with
  | nil => exact h
  | cons op ops ih => exact ih (quietBut_operate hrun h op)

/-- A callback that is made of operations leaves no such frame behind.  No callback is called meanwhile. -/
theorem keepsQuiet_of_operates (hrun : Operates run) : KeepsQuiet run := by
  intro hook record t marked hforbidden h
  obtain ⟨ops, hops⟩ := hrun hook record t hforbidden
  rw [hops, operateAll_of_forbidden hforbidden ops]
  exact quietBut_operateAll keepsQuiet_idle h ops

end Thread

/-! ## What a hook sees -/

/-- The values of a number of slots. -/
def Machine.values (m : Machine) (first count : Nat) : List Value :=
  (List.range count).map fun i => m.slot (first + i)

@[simp] theorem Machine.length_values (m : Machine) (first count : Nat) :
    (m.values first count).length = count := by
  rw [values, List.length_map, List.length_range]

/-- An event, what the description of its frame says to be moved, and the values there. -/
structure Seen where
  record : HookRecord
  transfer : Option Transfer
  values : List Value
deriving DecidableEq

/-- Look at the frame of an event. -/
def Machine.see (m : Machine) (record : HookRecord) : Seen where
  record := record
  transfer := (m.describeFrame? record.frame).map FunctionInfo.transfer
  values := ((m.describeFrame? record.frame).map fun info =>
    m.values ((m.frameAt record.frame).func + info.transfer.first) info.transfer.count).getD []

/-- What is seen of an event in a frame when values are moved, from a place counted from the function on.
When there are none, nothing is said to be moved. -/
def Seen.moving (event : HookEvent) (line : Option Int) (id first : Nat) (values : List Value) : Seen where
  record := ⟨event, line, id⟩
  transfer := some (if values.length = 0 then {} else ⟨first, values.length⟩)
  values := values

namespace Thread

variable {H : Type} {act : Callback H (List Seen)} {t : Thread H (List Seen)} {f : Frame}

/-- A callback that does anything, and writes down what it sees when it is called. -/
def seeing (act : Callback H (List Seen)) : Callback H (List Seen) :=
  fun hook record t =>
    ((act hook record t).1, { (act hook record t).2 with host := t.host ++ [t.see record] })

/-- Writing down is something that a callback can do. -/
theorem operates_seeing (hact : Operates act) : Operates (seeing act) := by
  intro hook record t hforbidden
  obtain ⟨ops, hops⟩ := hact hook record t hforbidden
  refine ⟨ops ++ [.step (.note fun _ => t.host ++ [t.see record])], ?_⟩
  have hsame : t.operateAll (seeing act) ops = t.operateAll act ops :=
    operateAll_of_forbidden hforbidden ops
  have hnoted : t.operateAll (seeing act) (ops ++ [.step (.note fun _ => t.host ++ [t.see record])]) =
      { t.operateAll (seeing act) ops with host := t.host ++ [t.see record] } := by
    rw [operateAll, List.foldl_append]
    rfl
  rw [hnoted, hsame, ← hops]
  rfl

/-- The thread that a hook is given tells of the values of the event. -/
theorem see_beginReport (hf : t.frame? t.currentId = some f) (hquiet : f.moved = {}) (event : HookEvent)
    (line : Option Int) (first count : Nat) :
    (t.beginReport first count).see ⟨event, line, t.currentId⟩ =
      .moving event line t.currentId first (t.values (f.func + first) count) := by
  obtain ⟨g, hg, hfunc, hmoved⟩ : ∃ g, (t.beginReport first count).frame? t.currentId = some g ∧
      g.func = f.func ∧ g.moved = if count = 0 then {} else ⟨first, count⟩ := by
    refine ⟨_, (Machine.frame?_modifyFrame_self _ t.currentId _).trans
      (congrArg (Option.map _) hf), rfl, ?_⟩
    rw [moved_insertFlags_reportFlags, hquiet]
  have htransfer : ((t.beginReport first count).describeFrame? t.currentId).map FunctionInfo.transfer =
      some g.moved := by
    rw [Machine.transfer_describeFrame?, hg, Option.map_some]
  obtain ⟨info, hinfo, hinfoMoved⟩ := Option.map_eq_some_iff.1 htransfer
  have hframe : (t.beginReport first count).frameAt t.currentId = g := Machine.frameAt_eq hg
  have hslots : (t.beginReport first count).values (f.func + g.moved.first) g.moved.count =
      t.values (f.func + first) count := by
    rw [hmoved]
    by_cases hcount : count = 0
    · rw [if_pos hcount, hcount]
      rfl
    · rw [if_neg hcount]
      exact List.map_congr_left fun i _ => t.slot_beginReport first count _
  rw [Machine.see, Seen.moving, htransfer, hinfo]
  simp only [Option.map_some, Option.getD_some, hinfoMoved, hframe, hfunc, hslots, Machine.length_values]
  rw [hmoved]

/-- Whether the hook is told about an event. -/
def tells {W : Type} (t : Thread H W) (event : HookEvent) : Bool :=
  t.hook.isSome && t.allowHook && t.mask.selects event

theorem tells_iff {W : Type} {t : Thread H W} {event : HookEvent} : t.tells event = true ↔
    t.hook.isSome = true ∧ t.allowHook = true ∧ t.mask.selects event = true := by
  rw [tells, Bool.and_eq_true, Bool.and_eq_true, and_assoc]

/-- A hook that is told sees the values, in a frame that told of none before. -/
theorem host_report_seeing (hf : t.frame? t.currentId = some f) (hquiet : f.moved = {})
    (hhook : t.hook.isSome = true) (hallow : t.allowHook = true) (event : HookEvent) (line : Option Int)
    (first count : Nat) :
    (t.report (seeing act) event line first count).host =
      t.host ++ [.moving event line t.currentId first (t.values (f.func + first) count)] := by
  have hseen := see_beginReport hf hquiet event line first count
  obtain ⟨hook, hsome⟩ := Option.isSome_iff_exists.1 hhook
  unfold report fireHook
  simp only [hsome, hallow, if_true]
  split
  · exact congrArg (t.host ++ [·]) hseen
  · exact congrArg (t.host ++ [·]) hseen

/-- A call is reported with the parameters of the function. -/
theorem host_hookCall_seeing {proto : Proto} (hf : t.frame? t.currentId = some f)
    (hproto : t.frameProto? t.currentId = some proto) (hquiet : f.moved = {})
    (htells : t.tells .call = true) :
    (t.hookCall (seeing act) t.currentId).host = t.host ++
      [.moving (if f.flags.tailCall then .tailCall else .call) none t.currentId 1
        (t.values (f.func + 1) proto.paramCount)] := by
  obtain ⟨hhook, hallow, hmask⟩ := tells_iff.1 htells
  let u : Thread H (List Seen) := ({ t with oldPc := 0 } : Thread H (List Seen)).onFrame t.currentId
    (·.setSavedPc (f.savedPc?.getD 0 + 1))
  have hid : u.currentId = t.currentId := t.toMachine.currentId_modifyFrame t.currentId _
  have hframe : u.frame? u.currentId = some (f.setSavedPc (f.savedPc?.getD 0 + 1)) := by
    rw [hid]
    exact (t.toMachine.frame?_modifyFrame_self t.currentId _).trans (congrArg (Option.map _) hf)
  have hreport : (u.report (seeing act) (if f.flags.tailCall then .tailCall else .call) none 1
      proto.paramCount).host = _ :=
    host_report_seeing hframe hquiet hhook hallow _ none 1 proto.paramCount
  rw [hookCall_of_selected _ hf hmask, hproto]
  rw [hid] at hreport
  exact hreport

end Thread

/-! ## Calls of interpreted functions -/

/-- A frame, but for how far it has come and whether it is watched. -/
def Frame.unstarted (f : Frame) : Frame :=
  f.modifyProgress fun p => { p with savedPc := 0, trap := false }

theorem Frame.unstarted_setTrap (f : Frame) (on : Bool) : (f.setTrap on).unstarted = f.unstarted := by
  obtain ⟨func, top, previous, flags, code, transfer⟩ := f
  cases code with
  | script progress => rfl
  | native => rfl

namespace Machine

variable {m m' : Machine} {proto : Proto} {func : Nat} {flags : CallFlags}

/-- A machine, but for how far its calls have come and whether they are watched. -/
def unstarted (m : Machine) : Machine := { m with frames := m.frames.map Frame.unstarted }

theorem unstarted_modifyFrame (m : Machine) (id : Nat) {change : Frame → Frame}
    (hchange : ∀ f, (change f).unstarted = f.unstarted) :
    (m.modifyFrame id change).unstarted = m.unstarted := by
  rw [unstarted, unstarted, m.map_frames_modifyFrame id hchange]
  rfl

theorem exists_frame_of_unstarted (h : m.unstarted = m'.unstarted) {id : Nat} {f' : Frame}
    (hf : m'.frame? id = some f') : ∃ f, m.frame? id = some f ∧ f.unstarted = f'.unstarted := by
  have hframe : m.unstarted.frames[id]? = m'.unstarted.frames[id]? := by rw [h]
  rw [unstarted, unstarted, Array.getElem?_map, Array.getElem?_map, ← frame?, ← frame?, hf,
    Option.map_some] at hframe
  exact Option.map_eq_some_iff.1 hframe

/-- The fixed parameters of a call: the arguments above its function, and nil where one is missing. -/
def fixedParams (m : Machine) (func count : Nat) : List Value :=
  (List.range count).map fun i => if i < m.above func then m.slot (func + 1 + i) else .nil

/-- A function that is entered has them in its registers. -/
theorem values_enterScript (hfunc : func < m.top) (proto : Proto) (flags : CallFlags) :
    (m.enterScript proto func flags).values (func + 1) proto.paramCount =
      m.fixedParams func proto.paramCount := by
  have htop : m.top = func + 1 + (m.values (func + 1) (m.above func)).length := by
    rw [length_values, above]
    omega
  have hargs : ∀ i (h : i < (m.values (func + 1) (m.above func)).length),
      m.slot (func + 1 + i) = (m.values (func + 1) (m.above func))[i] := by
    intro i h
    simp [values]
  refine List.map_congr_left fun i hi => ?_
  have hparam := List.mem_range.1 hi
  rw [slot_enterScript htop hargs proto flags (by omega)]
  split
  · rename_i hgiven
    simp [values, hgiven]
  · rename_i hmissing
    simp [values, hmissing]

/-- They follow the function when it is moved above all arguments. -/
theorem values_adjustVarargs (hfunc : m.current.func < m.top) {fixed : Nat}
    (hfits : fixed ≤ m.above m.current.func) :
    (m.adjustVarargs fixed).values (m.top + 1) fixed = m.values (m.current.func + 1) fixed :=
  List.map_congr_left fun _ hi => m.slot_adjustVarargs_param hfits hfunc (List.mem_range.1 hi)

/-- Whether instructions are watched has nothing to do with it. -/
theorem trap_adjustedFrame (actual fixed : Nat) (f : Frame) :
    (adjustedFrame actual fixed f).trap = f.trap := by
  obtain ⟨func, top, previous, flags, code, transfer⟩ := f
  cases code with
  | script progress => rfl
  | native => rfl

/-- The current frame is that of an interpreted function, with certain parameters in its registers. -/
structure Receives (m : Machine) (proto : Proto) (params : List Value) (f : Frame) : Prop where
  frame : m.frame? m.currentId = some f
  code : m.frameProto? m.currentId = some proto
  below : f.func < m.top
  fits : proto.paramCount ≤ m.above f.func
  registers : m.values (f.func + 1) proto.paramCount = params

/-- So it is in the frame of a function that was just entered. -/
theorem receives_of_unstarted {upvalues : Array Nat}
    (hslot : m'.stack[func]?.bind m'.function? = some (.script proto upvalues)) (hfunc : func < m'.top)
    (hsame : m.unstarted = (m'.enterScript proto func flags).unstarted) :
    ∃ f, m.Receives proto (m'.fixedParams func proto.paramCount) f ∧ f.flags = flags := by
  obtain ⟨⟨e, he, hplace, -, hflags⟩, hproto, hbelow⟩ := enterScript_frame hslot hfunc flags
  obtain ⟨f, hf, hunstarted⟩ := exists_frame_of_unstarted hsame he
  have hstack : m.stack = (m'.enterScript proto func flags).stack := (congrArg Machine.stack hsame :)
  have htop : m.top = (m'.enterScript proto func flags).top := (congrArg Machine.top hsame :)
  have hfunctions : m.functions = (m'.enterScript proto func flags).functions :=
    (congrArg Machine.functions hsame :)
  have hslots : ∀ i, m.slot i = (m'.enterScript proto func flags).slot i := by
    intro i
    rw [slot, hstack, slot]
  have hid : m.currentId = (m'.enterScript proto func flags).currentId := by
    have hsize := congrArg (fun m : Machine => m.frames.size) hsame
    simp only [unstarted, Array.size_map] at hsize
    rw [currentId, hsize, currentId]
  have hfuncEq : f.func = func := (congrArg Frame.func hunstarted).trans hplace
  refine ⟨f, ⟨?_, ?_, ?_, ?_, ?_⟩, (congrArg Frame.flags hunstarted).trans hflags⟩
  · rw [hid]
    exact hf
  · rw [frameProto?, frameFunction?_eq, he, Option.bind_some, hplace] at hproto
    rw [frameProto?, frameFunction?_eq, hid, hf, Option.bind_some, hfuncEq, hslots,
      function?_congr hfunctions]
    exact hproto
  · rw [hfuncEq, htop]
    exact hbelow
  · rw [hfuncEq, above, htop, top_enterScript, above]
    omega
  · rw [hfuncEq, ← values_enterScript hfunc proto flags]
    exact List.map_congr_left fun i _ => hslots _

end Machine

namespace Thread

variable {H : Type} {act : Callback H (List Seen)} {t : Thread H (List Seen)} {f : Frame} {proto : Proto}
  {params : List Value}

/-- A function without extra arguments is reported before its first instruction. -/
theorem seen_of_entered (h : t.Receives proto params f) (hquiet : f.moved = {})
    (htells : t.tells .call = true) (hvararg : proto.isVararg = false) (hstart : f.savedPc? = some 0)
    (hyield : f.flags.hookYield = false) :
    (t.traceCall (seeing act)).2.host = t.host ++
      [.moving (if f.flags.tailCall then .tailCall else .call) none t.currentId 1 params] := by
  let u : Thread H (List Seen) := t.onFrame t.currentId (·.setTrap true)
  have hid : u.currentId = t.currentId := t.currentId_onFrame t.currentId _
  have hframe : u.frame? u.currentId = some (f.setTrap true) := by
    rw [hid, frame?_onFrame_self, h.frame, Option.map_some]
  have hproto : u.frameProto? u.currentId = some proto := by
    rw [hid]
    have hsame : ∀ f : Frame, (f.setTrap true).func = f.func := fun _ => rfl
    exact (t.toMachine.frameProto?_modifyFrame t.currentId t.currentId hsame).trans h.code
  have hcurrent : u.current = f.setTrap true := Machine.current_eq hframe
  have hfirst : u.current.savedPc? = some 0 := by
    rw [hcurrent, Frame.savedPc?_setTrap, hstart]
  have hawake : ¬ u.current.flags.hookYield = true := by
    rw [hcurrent]
    exact Bool.eq_false_iff.1 hyield
  have hcall : (t.traceCall (seeing act)).2 = u.hookCall (seeing act) t.currentId := by
    rw [traceCall_eq _ _ h.code, if_pos hfirst, hvararg, if_neg Bool.false_ne_true, if_neg hawake]
  rw [hcall, ← hid]
  refine (host_hookCall_seeing hframe hproto hquiet htells).trans ?_
  rw [hid, ← h.registers]
  rfl

/-- One with extra arguments is only watched from then on. -/
theorem traceCall_of_isVararg {W : Type} {run : Callback H W} {t : Thread H W}
    (hproto : t.frameProto? t.currentId = some proto) (hvararg : proto.isVararg = true) :
    (t.traceCall run).2 = t.onFrame t.currentId (·.setTrap true) := by
  rw [traceCall_eq _ _ hproto, if_pos hvararg]
  split
  · rfl
  · rfl

/-- It is reported when they were set apart. -/
theorem seen_of_adjusted (h : t.Receives proto params f) (hquiet : f.moved = {})
    (htells : t.tells .call = true) (htrap : f.trap = true) :
    ((t.onMachine (·.adjustVarargs proto.paramCount)).hookVarargPrep (seeing act)).host = t.host ++
      [.moving (if f.flags.tailCall then .tailCall else .call) none t.currentId 1 params] := by
  let u : Thread H (List Seen) := t.onMachine (·.adjustVarargs proto.paramCount)
  have hid : u.currentId = t.currentId := t.toMachine.currentId_adjustVarargs proto.paramCount
  have hcurrent := Machine.current_eq h.frame
  have hframe : u.frame? u.currentId =
      some (Machine.adjustedFrame (t.above f.func) proto.paramCount f) := by
    rw [hid]
    exact Machine.frame?_adjustVarargs h.frame proto.paramCount
  have hproto : u.frameProto? u.currentId = some proto := by
    have hkept := Machine.frameProto?_adjustVarargs h.frame h.below proto.paramCount
    rw [if_neg (Nat.not_lt.2 h.fits)] at hkept
    rw [hid]
    exact hkept.trans h.code
  have hvalues : u.values (t.top + 1) proto.paramCount = params := by
    have hbelow : t.current.func < t.top := by
      rw [hcurrent]
      exact h.below
    have hfits : proto.paramCount ≤ t.above t.current.func := by
      rw [hcurrent]
      exact h.fits
    refine (Machine.values_adjustVarargs hbelow hfits).trans ?_
    rw [hcurrent]
    exact h.registers
  have hseen : (u.hookCall (seeing act) u.currentId).host = _ :=
    host_hookCall_seeing hframe hproto hquiet htells
  rw [Machine.func_adjustedFrame h.below, hvalues, hid] at hseen
  have hcall : (u.hookVarargPrep (seeing act)).host = (u.hookCall (seeing act) t.currentId).host := by
    have hwatched : u.current.trap = true := by
      rw [Machine.current_eq hframe, Machine.trap_adjustedFrame, htrap]
    unfold hookVarargPrep
    rw [if_pos hwatched, hid]
  exact hcall.trans hseen

/-! ## Calls of native functions, and returns -/

/-- A native function is reported with all its arguments. -/
theorem seen_of_native {func count : Nat} {name : String}
    (hslot : t.stack[func]?.bind t.function? = some (.native name count))
    (htells : t.tells .call = true) :
    (t.pushNativeFrame (seeing act) func).2.host = t.host ++
      [.moving .call none t.frames.size 1 (t.values (func + 1) (t.above func))] := by
  obtain ⟨hhook, hallow, hmask⟩ := tells_iff.1 htells
  let u : Thread H (List Seen) := t.onMachine (·.enterNative func)
  let f : Frame := Frame.native func (t.top + Machine.minStack) (some t.currentId)
  have hframes : u.frames = t.frames.push f := rfl
  have hid : u.currentId = t.frames.size := by
    rw [Machine.currentId, hframes, Array.size_push, Nat.add_sub_cancel]
  have hframe : u.frame? u.currentId = some f := by
    rw [hid, Machine.frame?, hframes, Array.getElem?_push_size]
  have hslots : ∀ i, u.slot i = t.slot i := fun i =>
    t.toMachine.slot_growTo _ i
  have hseen : (u.report (seeing act) .call none 1 (t.above func)).host = _ :=
    host_report_seeing hframe rfl hhook hallow .call none 1 (t.above func)
  have hvalues : u.values (f.func + 1) (t.above func) = t.values (func + 1) (t.above func) :=
    List.map_congr_left fun i _ => hslots _
  rw [hvalues, hid] at hseen
  have hcall : (t.onMachine (·.enterNative func)).mask.call = true := hmask
  unfold pushNativeFrame
  simp only [hslot]
  rw [if_pos hcall]
  exact hseen

/-- A return is reported with the results on top. -/
theorem seen_of_return (hf : t.frame? t.currentId = some f) (hquiet : f.moved = {})
    (hbase : t.currentId ≠ Machine.baseFrame) {results : Nat} (hresults : results ≤ t.above f.func)
    (htells : t.tells .ret = true) :
    (t.popFrame (seeing act) results).2.host = t.host ++
      [.moving .ret none t.currentId (t.top - results - f.func) (t.values (t.top - results) results)] := by
  obtain ⟨hhook, hallow, hselects⟩ := tells_iff.1 htells
  have hret : t.mask.ret = true := hselects
  have hmask := HookMask.isEmpty_of_selects hselects
  have hseen : (t.report (seeing act) .ret none (t.top - results - f.func) results).host = _ :=
    host_report_seeing hf hquiet hhook hallow .ret none (t.top - results - f.func) results
  have hvalues : t.values (f.func + (t.top - results - f.func)) results =
      t.values (t.top - results) results := by
    rcases Nat.eq_zero_or_pos results with hnone | hsome
    · rw [hnone]
      rfl
    · have hfirst : f.func + (t.top - results - f.func) = t.top - results := by
        rw [Machine.above] at hresults
        omega
      rw [hfirst]
  rw [hvalues] at hseen
  have hreturn : (t.hookReturn (seeing act) results).host =
      (t.report (seeing act) .ret none (t.top - results - t.current.func) results).host := by
    rw [hookReturn_eq, host_backToCaller, if_pos hret]
  rw [Machine.current_eq hf] at hreturn
  unfold popFrame
  simp only [hbase, if_false, hmask, Bool.false_eq_true]
  exact hreturn.trans hseen

/-- **Values moved across calls.**  A thread that any operations lead to, with a hook that is itself made of
operations and writes down what it sees first.

* Whenever no event is being reported, no frame tells of values that are moved.
* A function is entered, and nothing has happened since but that its frame was watched or moved on.  When
  the call is reported, before the first instruction or, with extra arguments, once they were set apart, the
  hook sees its fixed parameters above the function, nil where an argument is missing.
* A native function is entered: the hook sees all arguments.
* The current call returns with a number of values, all of them above its function: the hook sees them.

In each case that is all that is seen: where there are no such values, none are said to be moved. -/
theorem transfer_windows (hact : Operates act) (host : List Seen)
    (ops : List (Operation H (List Seen))) :
    let t := (Thread.initial host).operateAll (seeing act) ops
    (∀ id info, t.describeFrame? id = some info → info.transfer = {}) ∧
      (∀ (s : Thread H (List Seen)) func flags proto upvalues,
        s.stack[func]?.bind s.function? = some (.script proto upvalues) → func < s.top →
        t.unstarted = (s.pushScriptFrame func flags).2.unstarted → t.tells .call = true →
        let seen : Seen := .moving (if flags.tailCall then .tailCall else .call) none t.currentId 1
          (s.fixedParams func proto.paramCount)
        (proto.isVararg = false → t.current.savedPc? = some 0 → flags.hookYield = false →
          (t.traceCall (seeing act)).2.host = t.host ++ [seen]) ∧
        (proto.isVararg = true → (t.traceCall (seeing act)).2.host = t.host ∧
          (t.current.trap = true →
            ((t.onMachine (·.adjustVarargs proto.paramCount)).hookVarargPrep (seeing act)).host =
              t.host ++ [seen]))) ∧
      (∀ func name count, t.stack[func]?.bind t.function? = some (.native name count) →
        t.tells .call = true →
        (t.pushNativeFrame (seeing act) func).2.host = t.host ++
          [.moving .call none t.frames.size 1 (t.values (func + 1) (t.above func))]) ∧
      ∀ results, t.currentId ≠ Machine.baseFrame → results ≤ t.above t.current.func →
        t.tells .ret = true →
        (t.popFrame (seeing act) results).2.host = t.host ++
          [.moving .ret none t.currentId (t.top - results - t.current.func)
            (t.values (t.top - results) results)] := by
  intro t
  have hquiet : t.QuietBut [] :=
    quietBut_operateAll (keepsQuiet_of_operates (operates_seeing hact)) Machine.quietBut_initial ops
  refine ⟨?_, ?_, fun func name count hslot htells => seen_of_native hslot htells, ?_⟩
  · intro id info hinfo
    have htransfer := t.transfer_describeFrame? id
    rw [hinfo, Option.map_some, eq_comm, Option.map_eq_some_iff] at htransfer
    obtain ⟨f, hf, hmoved⟩ := htransfer
    rw [← hmoved]
    exact hquiet id f hf List.not_mem_nil
  · intro s func flags proto upvalues hslot hfunc hsame htells
    rw [pushScriptFrame_of_slot hslot flags] at hsame
    obtain ⟨f, hf, hflags⟩ := Machine.receives_of_unstarted hslot hfunc hsame
    have hmoved := hquiet t.currentId f hf.frame List.not_mem_nil
    rw [Machine.current_eq hf.frame, ← hflags]
    refine ⟨fun hvararg hstart hyield => ?_, fun hvararg => ⟨?_, fun htrap => ?_⟩⟩
    · exact seen_of_entered hf hmoved htells hvararg hstart hyield
    · rw [traceCall_of_isVararg hf.code hvararg]
      rfl
    · exact seen_of_adjusted hf hmoved htells htrap
  · intro results hbase hresults htells
    have hlast : t.currentId < t.frames.size := by
      rw [Machine.currentId, Machine.baseFrame] at hbase
      rw [Machine.currentId]
      omega
    obtain ⟨f, hf⟩ : ∃ f, t.frame? t.currentId = some f := ⟨_, Array.getElem?_eq_getElem hlast⟩
    have hmoved := hquiet t.currentId f hf List.not_mem_nil
    rw [Machine.current_eq hf] at hresults ⊢
    exact seen_of_return hf hmoved hbase hresults htells

/-- Call a native function, and return from it. -/
def callingBack (t : Thread Unit (List Seen)) : List (Operation Unit (List Seen)) :=
  [.step (.stack (.push (.function 1))), .step (.enterNative t.top), .step (.leave 0)]

/-- A function that keeps its extra arguments is about to be called with a number, a native function and
another number. -/
def movingOps : List (Operation Unit (List Seen)) :=
  [.register (.script gatheringProto #[]), .register (.native "emit" 0),
    .step (.setHook (some ()) { call := true, ret := true } 0), .step (.stack (.push (.function 0))),
    .step (.stack (.push (.integer 1))), .step (.stack (.push (.function 1))),
    .step (.stack (.push (.integer 3)))]

/-- The thread before the call, with a hook that itself makes one. -/
def movingThread : Thread Unit (List Seen) :=
  (Thread.initial []).operateAll (seeing (careful callingBack)) movingOps

/-- The thread when the function has been entered and is being watched. -/
def movedThread : Thread Unit (List Seen) :=
  (Thread.initial []).operateAll (seeing (careful callingBack))
    (movingOps ++ [.enterScript 1 {}, .step .traceCall])

theorem unstarted_movedThread :
    movedThread.unstarted = (movingThread.pushScriptFrame 1 {}).2.unstarted := by
  have hproto : (movingThread.pushScriptFrame 1 {}).2.frameProto?
      (movingThread.pushScriptFrame 1 {}).2.currentId = some gatheringProto := rfl
  have hcalled : movedThread =
      ((movingThread.pushScriptFrame 1 {}).2.traceCall (seeing (careful callingBack))).2 := rfl
  rw [hcalled, traceCall_of_isVararg hproto rfl]
  exact Machine.unstarted_modifyFrame _ _ fun f => f.unstarted_setTrap true

/-- The first two arguments are seen when the third one is set apart, and the last two when they are returned
instead.  The third one is seen if the second one is called with it. -/
theorem transfer_windows_moving :
    Operates (careful callingBack) ∧ movedThread.host = [] ∧
      ((movedThread.onMachine (·.adjustVarargs 2)).hookVarargPrep (seeing (careful callingBack))).host =
        [⟨⟨.call, none, 1⟩, some ⟨1, 2⟩, [.integer 1, .function 1]⟩] ∧
      (movedThread.pushNativeFrame (seeing (careful callingBack)) 3).2.host =
        [⟨⟨.call, none, 2⟩, some ⟨1, 1⟩, [.integer 3]⟩] ∧
      (movedThread.popFrame (seeing (careful callingBack)) 2).2.host =
        [⟨⟨.ret, none, 1⟩, some ⟨2, 2⟩, [.function 1, .integer 3]⟩] ∧
      (movedThread.popFrame (seeing (careful callingBack)) 0).2.host =
        [⟨⟨.ret, none, 1⟩, some {}, []⟩] := by
  have hact : Operates (careful callingBack) := (keepsDepth_careful callingBack).operates
  obtain ⟨-, hscript, hnative, hreturn⟩ := transfer_windows hact []
    (movingOps ++ [.enterScript 1 {}, .step .traceCall])
  have hslot : movingThread.stack[1]?.bind movingThread.function? =
      some (.script gatheringProto #[]) := rfl
  have hnativeSlot : movedThread.stack[3]?.bind movedThread.function? = some (.native "emit" 0) := rfl
  have hcall : movedThread.tells .call = true := by decide +kernel
  have hret : movedThread.tells .ret = true := by decide +kernel
  have htrap : movedThread.current.trap = true := by decide +kernel
  have hbase : movedThread.currentId ≠ Machine.baseFrame := by decide +kernel
  have hvararg := (hscript movingThread 1 {} gatheringProto #[] hslot (by decide +kernel)
    unstarted_movedThread hcall).2 rfl
  refine ⟨hact, by decide +kernel, ?_, ?_, ?_, ?_⟩
  · exact (hvararg.2 htrap).trans (by decide +kernel)
  · exact (hnative 3 "emit" 0 hnativeSlot hcall).trans (by decide +kernel)
  · exact (hreturn 2 hbase (by decide +kernel) hret).trans (by decide +kernel)
  · exact (hreturn 0 hbase (by decide +kernel) hret).trans (by decide +kernel)

end Thread

end VmInspect
