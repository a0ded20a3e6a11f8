import VmInspect.Proofs.Machine.Varargs
import VmInspect.Proofs.Thread.Calls

/-!
# Variables of calls in progress

The variables of a suspended call are told apart from those of the call that it made by the slot of the
called function.  A function that sets extra arguments apart is moved up from there, and leaves them, and
the slot where it was called, to be taken for temporary values of its caller.

* `Machine.Temporary`, `Machine.Unnamed` — temporary values, and the registers that they can be in.
* `Machine.Placed` — where frames stand, given the slots where their functions were called.
* `Thread.Calling` — threads with calls in progress, with these slots.
* `Thread.Calling.placed` — the frames of such a thread stand there or above, with their extra arguments
  in between.
* `Thread.temporaries_apart` — so the temporary values of a caller end where it called if and only if
  nothing but names has come to lie between, and what lies below is not shared.
-/

namespace VmInspect

namespace Frame

/-- Where a frame stands, with its extra arguments below it. -/
def place (f : Frame) : Nat × Nat := (f.func, f.extraArgs)

/-- A frame whose function was called in a slot stands there, or has been moved up behind its extra
arguments. -/
structure StandsOn (f : Frame) (entry : Nat) : Prop where
  le : entry ≤ f.func
  extra : 0 < f.extraArgs → entry + f.extraArgs < f.func

theorem StandsOn.of_place {f f' : Frame} {entry : Nat} (h : f.StandsOn entry)
    (hplace : f'.place = f.place) : f'.StandsOn entry := by
  obtain ⟨hfunc, hextra⟩ := Prod.mk.inj hplace
  exact ⟨by rw [hfunc]; exact h.le, by rw [hfunc, hextra]; exact h.extra⟩

end Frame

namespace Machine

/-! ## Temporary values -/

/-- A register for which the function of its frame has no name, and the number it goes by. -/
structure Unnamed (m : Machine) (id : Nat) (n : Int) (slot : Nat) : Prop where
  positive : 0 < n
  register : ∃ f, m.frame? id = some f ∧ m.declaredName? f id n.toNat = none ∧
    (f.isScript = true → (m.frameProto? id).isSome) ∧ slot = f.base + n.toNat - 1

/-- A variable of a frame that its function has no name for. -/
structure Temporary (m : Machine) (id : Nat) (n : Int) (slot : Nat) : Prop where
  positive : 0 < n
  undeclared : ∃ f, m.frame? id = some f ∧ m.declaredName? f id n.toNat = none
  found : ∃ name, m.local? id n = some (name, slot)

variable {m m' : Machine} {id : Nat} {f : Frame}

/-- Numbers from zero on are those of registers. -/
theorem local?_of_nonneg (hf : m.frame? id = some f) {n : Int} (hn : 0 ≤ n) :
    m.local? id n =
      if f.isScript = true → (m.frameProto? id).isSome then m.registerName? f id n.toNat
      else none := by
  rw [local?, hf, Option.bind_some, decide_eq_false (Int.not_lt.2 hn), Bool.and_false,
    if_neg Bool.false_ne_true, if_neg (Int.not_lt.2 hn)]
  cases hscript : f.isScript with
  | false =>
    simp only [Bool.false_and, Bool.false_eq_true, if_false, false_implies, if_true]
  | true =>
    cases hproto : m.frameProto? id with
    | none => simp
    | some proto => simp

/-- A register without a name holds a temporary value if it lies below the end of the variables, and it
is called so. -/
theorem temporary_iff (hf : m.frame? id = some f) {n : Int} {slot : Nat} :
    m.Temporary id n slot ↔ m.Unnamed id n slot ∧ slot < m.localsEnd id := by
  have hregister : ∀ hpos : 0 < n, m.declaredName? f id n.toNat = none →
      m.registerName? f id n.toNat =
        if f.base + n.toNat ≤ m.localsEnd id then some (temporaryName f, f.base + n.toNat - 1)
        else none := by
    intro hpos hnone
    have hnat : 0 < n.toNat := by omega
    simp only [registerName?, hnone, hnat, true_and]
  constructor
  · rintro ⟨hpos, ⟨g, hg, hnone⟩, name, hfound⟩
    obtain rfl := Option.some.inj (hf.symm.trans hg)
    rw [local?_of_nonneg hf (Int.le_of_lt hpos), hregister hpos hnone] at hfound
    split at hfound
    · rename_i hknown
      split at hfound
      · rename_i hle
        obtain ⟨-, hslot⟩ := Prod.mk.inj (Option.some.inj hfound)
        refine ⟨⟨hpos, f, hf, hnone, hknown, hslot.symm⟩, ?_⟩
        omega
      · cases hfound
    · cases hfound
  · rintro ⟨⟨hpos, g, hg, hnone, hknown, hslot⟩, hend⟩
    obtain rfl := Option.some.inj (hf.symm.trans hg)
    refine ⟨hpos, ⟨f, hf, hnone⟩, temporaryName f, ?_⟩
    rw [local?_of_nonneg hf (Int.le_of_lt hpos), if_pos hknown, hregister hpos hnone,
      if_pos (by omega), hslot]

/-- A variable is an extra argument below the function of its frame, or a register. -/
theorem slot_cases (hf : m.frame? id = some f) {n : Int} {name : String} {slot : Nat}
    (hlocal : m.local? id n = some (name, slot)) :
    (n < 0 ∧ -(f.extraArgs : Int) ≤ n ∧ slot = ((f.func : Int) - f.extraArgs - (n + 1)).toNat) ∨
      (0 < n ∧ slot = f.base + n.toNat - 1) := by
  have hat : m.frameAt id = f := frameAt_eq hf
  by_cases hn : n < 0
  · rw [local?, hf, Option.bind_some] at hlocal
    simp only [hn, decide_true, Bool.and_true, if_true] at hlocal
    split at hlocal
    · obtain ⟨s, hs, heq⟩ := Option.map_eq_some_iff.1 hlocal
      obtain ⟨-, rfl⟩ := Prod.mk.inj heq
      simp only [varargSlot?, hat] at hs
      split at hs
      · rename_i hin
        exact .inl ⟨hn, hin.2, (Option.some.inj hs).symm⟩
      · cases hs
    · split at hlocal <;> cases hlocal
  · rw [local?_of_nonneg hf (Int.not_lt.1 hn)] at hlocal
    split at hlocal
    · have hpos : 0 < n.toNat := by
        refine Nat.pos_of_ne_zero fun hzero => ?_
        have hnone : ∀ proto : Proto, ∀ pc, proto.localName? 0 pc = none := fun _ _ => rfl
        rw [hzero, registerName?, declaredName?] at hlocal
        simp [hnone] at hlocal
      refine .inr ⟨by omega, ?_⟩
      rw [registerName?] at hlocal
      split at hlocal
      · exact (Prod.mk.inj (Option.some.inj hlocal)).2.symm
      · split at hlocal
        · exact (Prod.mk.inj (Option.some.inj hlocal)).2.symm
        · cases hlocal
    · cases hlocal

/-! ## Where frames stand -/

/-- The frames of both machines stand in the same places. -/
structure SamePlaces (m m' : Machine) : Prop where
  size : m'.frames.size = m.frames.size
  frame : ∀ id, (m'.frame? id).map Frame.place = (m.frame? id).map Frame.place

/-- The functions of the frames were called in certain slots. -/
structure Placed (m : Machine) (entries : List Nat) : Prop where
  length : entries.length = m.frames.size
  stands : ∀ id f entry, m.frame? id = some f → entries[id]? = some entry → f.StandsOn entry

variable {entries : List Nat}

namespace SamePlaces

theorem refl (m : Machine) : m.SamePlaces m := ⟨rfl, fun _ => rfl⟩

theorem trans {m'' : Machine} (h : m.SamePlaces m') (h' : m'.SamePlaces m'') : m.SamePlaces m'' :=
  ⟨h'.size.trans h.size, fun id => (h'.frame id).trans (h.frame id)⟩

theorem of_frames_eq (h : m'.frames = m.frames) : m.SamePlaces m' :=
  ⟨by rw [h], fun id => by rw [frame?, h, frame?]⟩

theorem modifyFrame (m : Machine) (id : Nat) {change : Frame → Frame}
    (hchange : ∀ f, (change f).place = f.place) : m.SamePlaces (m.modifyFrame id change) := by
  refine ⟨by rw [Machine.modifyFrame, Array.size_modify], fun j => ?_⟩
  rw [frame?_modifyFrame]
  split
  · rw [Option.map_map]
    exact congrArg (Option.map · _) (funext hchange)
  · rfl

end SamePlaces

namespace Placed

theorem of_samePlaces (h : m.Placed entries) (hsame : m.SamePlaces m') : m'.Placed entries := by
  refine ⟨h.length.trans hsame.size.symm, fun id f' entry hf' hentry => ?_⟩
  have hframe := hsame.frame id
  rw [hf', Option.map_some, eq_comm, Option.map_eq_some_iff] at hframe
  obtain ⟨f, hf, hplace⟩ := hframe
  exact (h.stands id f entry hf hentry).of_place hplace.symm

/-- A function that is called stands in its slot. -/
theorem push (h : m.Placed entries) (hframes : m'.frames = m.frames.push f) (hextra : f.extraArgs = 0) :
    m'.Placed (entries ++ [f.func]) := by
  refine ⟨?_, fun id g entry hg hentry => ?_⟩
  · rw [List.length_append, List.length_singleton, h.length, hframes, Array.size_push]
  · rw [frame?, hframes, Array.getElem?_push] at hg
    split at hg
    · rename_i hlast
      obtain rfl := Option.some.inj hg
      rw [hlast, ← h.length, List.getElem?_concat_length] at hentry
      obtain rfl := Option.some.inj hentry
      exact ⟨Nat.le_refl _, fun hpos => absurd hextra (Nat.ne_of_gt hpos)⟩
    · have hlt : id < entries.length := by
        rw [h.length]
        exact (Array.getElem?_eq_some_iff.1 hg).1
      rw [List.getElem?_append_left hlt] at hentry
      exact h.stands id g entry hg hentry

/-- A frame that is left is gone, with its slot. -/
theorem leave (h : m.Placed entries) (id results : Nat) :
    (m.leave id results).Placed entries.dropLast := by
  have hframes : (m.leave id results).frames = m.frames.pop := rfl
  refine ⟨by rw [List.length_dropLast, h.length, hframes, Array.size_pop], ?_⟩
  intro j f entry hf hentry
  rw [frame?, hframes, Array.getElem?_pop] at hf
  rw [List.getElem?_dropLast] at hentry
  split at hf
  · split at hentry
    · exact h.stands j f entry hf hentry
    · cases hentry
  · cases hf

/-- The extra arguments that a function sets apart lie between the slot where it was called and the one
that it is moved to. -/
theorem adjustVarargs (h : m.Placed entries) (fixed : Nat) :
    (m.adjustVarargs fixed).Placed entries := by
  refine ⟨by rw [frames_adjustVarargs, Array.size_modify, h.length], fun id f' entry hf' hentry => ?_⟩
  rw [frame?, frames_adjustVarargs, Array.getElem?_modify] at hf'
  split at hf'
  · obtain ⟨f, hf, rfl⟩ := Option.map_eq_some_iff.1 hf'
    have hle := (h.stands id f entry hf hentry).le
    generalize m.above m.current.func = actual
    have hextra : (adjustedFrame actual fixed f).extraArgs ≤ actual := by
      rw [Frame.extraArgs, adjustedFrame, Frame.setVarargs, Frame.progress?_modifyProgress]
      cases hp : Frame.progress? _ with
      | none => exact Nat.zero_le _
      | some p => exact Nat.sub_le _ _
    have hfunc : (adjustedFrame actual fixed f).func = f.func + (actual + 1) := rfl
    exact ⟨by rw [hfunc]; omega, fun _ => by rw [hfunc]; omega⟩
  · exact h.stands id f' entry hf' hentry

/-- Every variable of a frame lies above the slot where its function was called. -/
theorem lt_slot (h : m.Placed entries) {entry : Nat} (hentry : entries[id]? = some entry) {n : Int}
    {name : String} {slot : Nat} (hlocal : m.local? id n = some (name, slot)) : entry < slot := by
  obtain ⟨f, hf, -⟩ := Option.bind_eq_some_iff.1 hlocal
  obtain ⟨hle, hextra⟩ := h.stands id f entry hf hentry
  rcases slot_cases hf hlocal with ⟨hn, hin, rfl⟩ | ⟨hn, rfl⟩
  · have hgap := hextra (by omega)
    omega
  · rw [Frame.base]
    omega

end Placed

/-- Only the variable and the value that is taken from the top are changed when a variable is written. -/
theorem slot_writeLocal_of_ne {n : Int} {name : String} {slot i : Nat}
    (hlocal : m.local? id n = some (name, slot)) (hne : slot ≠ i) (htop : i + 1 ≠ m.top) :
    (m.writeLocal id n).2.slot i = m.slot i := by
  have hdrop : m.drop.slot i = m.slot i := by
    unfold drop
    split
    · rfl
    · exact slot_put_of_ne m (by omega) .nil
  rw [writeLocal, hlocal]
  exact (slot_put_of_ne _ hne _).trans ((slot_growTo _ _ i).trans hdrop)

/-- Each function was called from above the function of its caller. -/
def CallsUpwards (m : Machine) (entries : List Nat) : Prop :=
  ∀ id f entry, m.frame? id = some f → entries[id + 1]? = some entry → f.func < entry

/-- Calls that lead further lead further up. -/
theorem Placed.entry_le (h : m.Placed entries) (hup : m.CallsUpwards entries) {entry : Nat}
    (hentry : entries[id]? = some entry) {other : Nat} (hle : id ≤ other) {entry' : Nat}
    (hentry' : entries[other]? = some entry') : entry ≤ entry' := by
  induction hle generalizing entry' with
  | refl => exact Nat.le_of_eq (Option.some.inj (hentry.symm.trans hentry'))
  | @step other _ ih =>
    have hlt : other < entries.length :=
      Nat.lt_of_succ_lt (List.getElem?_eq_some_iff.1 hentry').1
    obtain ⟨f, hf⟩ : ∃ f, m.frame? other = some f :=
      ⟨_, Array.getElem?_eq_getElem (by rw [← h.length]; exact hlt)⟩
    have hstands := h.stands other f entries[other] hf (List.getElem?_eq_getElem hlt)
    have hless := hup other f entry' hf hentry'
    exact Nat.le_trans (ih (List.getElem?_eq_getElem hlt)) (Nat.le_trans hstands.le (Nat.le_of_lt hless))

end Machine

namespace Thread

variable {H W : Type} {run : Callback H W} {t t' : Thread H W} {entries : List Nat}

/-! ## Calls in progress -/

/-- Whatever the callback does, the frames stand where they stood. -/
def KeepsPlaces (run : Callback H W) : Prop :=
  ∀ hook record (t : Thread H W), t.toMachine.SamePlaces (run hook record t).2.toMachine

/-- A thread in which functions were called, and the slots where those of the calls in progress were
found, that of the frame below all calls first.  Anything may be done meanwhile that leaves the frames
where they stand. -/
inductive Calling (run : Callback H W) : Thread H W → List Nat → Prop
  | start (host : W) : Calling run (.initial host) [0]
  | work {t t' : Thread H W} {entries : List Nat} (h : Calling run t entries)
      (hsame : t.toMachine.SamePlaces t'.toMachine) : Calling run t' entries
  | enterScript {t : Thread H W} {entries : List Nat} {func id : Nat} {flags : CallFlags}
      (h : Calling run t entries) (hentered : (t.pushScriptFrame func flags).1 = .ok id) :
      Calling run (t.pushScriptFrame func flags).2 (entries ++ [func])
  | enterNative {t : Thread H W} {entries : List Nat} {func id : Nat} (h : Calling run t entries)
      (hentered : (t.pushNativeFrame run func).1 = .ok id) :
      Calling run (t.pushNativeFrame run func).2 (entries ++ [func])
  | adjust {t : Thread H W} {entries : List Nat} (h : Calling run t entries) (fixed : Nat) :
      Calling run (t.onMachine (·.adjustVarargs fixed)) entries
  | leave {t : Thread H W} {entries : List Nat} {id : Nat} (h : Calling run t entries) (results : Nat)
      (hleft : (t.popFrame run results).1 = some id) :
      Calling run (t.popFrame run results).2 entries.dropLast

/-- A report leaves the frames where they stand. -/
theorem samePlaces_report (hrun : KeepsPlaces run) (t : Thread H W) (event : HookEvent)
    (line : Option Int) (first count : Nat) :
    t.toMachine.SamePlaces (t.report run event line first count).toMachine := by
  have hbegin : t.toMachine.SamePlaces (t.beginReport first count).toMachine := by
    have hroom : t.toMachine.SamePlaces
        (({ t.toMachine with top := t.reportTop } : Machine).ensureStack Machine.minStack) :=
      .of_frames_eq rfl
    refine hroom.trans ?_
    unfold beginReport
    exact .modifyFrame _ t.currentId fun _ => rfl
  have hend : ∀ (u : Thread H W) (id top frameTop : Nat),
      u.toMachine.SamePlaces (u.endReport id top frameTop count).toMachine := by
    intro u id top frameTop
    have hframe : u.toMachine.SamePlaces (u.onFrame id fun f =>
        { f with top := frameTop }.removeFlags (reportFlags count)).toMachine :=
      .modifyFrame u.toMachine id fun _ => rfl
    exact hframe.trans (.of_frames_eq rfl)
  have hreported : ∀ hook record, t.toMachine.SamePlaces
      ((run hook record (t.beginReport first count)).2.endReport t.currentId t.top t.current.top
        count).toMachine := fun hook record =>
    (hbegin.trans (hrun hook record _)).trans (hend _ _ _ _)
  unfold report fireHook
  cases t.hook with
  | none => exact .refl _
  | some hook =>
    cases t.allowHook with
    | false => exact .refl _
    | true =>
      simp only [if_true]
      split
      · exact hreported hook _
      · exact hreported hook _

/-- A function that is called has a new frame in its slot. -/
theorem frames_pushScriptFrame {func id : Nat} {flags : CallFlags}
    (hentered : (t.pushScriptFrame func flags).1 = .ok id) :
    ∃ f, (t.pushScriptFrame func flags).2.frames = t.frames.push f ∧ f.func = func ∧
      f.extraArgs = 0 := by
  unfold pushScriptFrame at hentered ⊢
  cases hslot : t.stack[func]?.bind t.function? with
  | none => simp [hslot] at hentered
  | some function =>
    cases function with
    | native name count => simp [hslot] at hentered
    | script proto upvalues =>
      exact ⟨_, t.toMachine.frames_enterScript proto func flags, rfl, rfl⟩

theorem placed_pushNativeFrame (hrun : KeepsPlaces run) (h : t.toMachine.Placed entries)
    {func id : Nat} (hentered : (t.pushNativeFrame run func).1 = .ok id) :
    (t.pushNativeFrame run func).2.toMachine.Placed (entries ++ [func]) := by
  have hpushed : (t.enterNative func).Placed (entries ++ [func]) :=
    h.push (f := Frame.native func (t.top + Machine.minStack) (some t.currentId)) rfl rfl
  unfold pushNativeFrame at hentered ⊢
  cases hslot : t.stack[func]?.bind t.function? with
  | none => simp [hslot] at hentered
  | some function =>
    cases function with
    | script proto upvalues => simp [hslot] at hentered
    | native name count =>
      show (if _ then _ else _ : Thread H W).toMachine.Placed _
      split
      · exact hpushed.of_samePlaces
          (samePlaces_report hrun (t.onMachine (·.enterNative func)) .call none 1 _)
      · exact hpushed

theorem placed_popFrame (hrun : KeepsPlaces run) (h : t.toMachine.Placed entries) {id results : Nat}
    (hleft : (t.popFrame run results).1 = some id) :
    (t.popFrame run results).2.toMachine.Placed entries.dropLast := by
  have hreported : t.toMachine.SamePlaces (t.hookReturn run results).toMachine := by
    rw [hookReturn_eq, toMachine_backToCaller]
    split
    · exact samePlaces_report hrun _ _ _ _ _
    · exact .refl _
  unfold popFrame at hleft ⊢
  by_cases hbase : t.currentId = Machine.baseFrame
  · simp [hbase] at hleft
  · simp only [hbase, if_false]
    split
    · exact h.leave t.currentId results
    · exact (h.of_samePlaces hreported).leave t.currentId results

/-- The run lemma: the functions of the frames were called in the slots that are kept. -/
theorem Calling.placed (hrun : KeepsPlaces run) (h : Calling run t entries) :
    t.toMachine.Placed entries := by
  induction h with
  | start host =>
    refine ⟨rfl, fun id f entry hf hentry => ?_⟩
    obtain ⟨hid, rfl⟩ := List.getElem?_eq_some_iff.1 hentry
    obtain rfl : id = 0 := Nat.lt_one_iff.1 hid
    obtain rfl := Option.some.inj hf
    exact ⟨Nat.le_refl _, fun hpos => absurd hpos (Nat.lt_irrefl 0)⟩
  | work _ hsame ih => exact ih.of_samePlaces hsame
  | enterScript _ hentered ih =>
    obtain ⟨f, hframes, rfl, hextra⟩ := frames_pushScriptFrame hentered
    exact ih.push hframes hextra
  | enterNative _ hentered ih => exact placed_pushNativeFrame hrun ih hentered
  | adjust _ fixed ih => exact ih.adjustVarargs fixed
  | leave _ results hleft ih => exact placed_popFrame hrun ih hleft

/-- **Temporary values of a caller.**  Functions are called in any order, native ones and ones that set
extra arguments apart among them, and a call in progress has called a function that was found in a slot.
The temporary values of the caller lie below that slot if and only if the called function is still there
or its caller has a name for every register up to where it has been moved.  A variable of the caller that
lies below the slot is no register of the called function, nor its slot, and no variable of it: writing one
does not change the other.  If functions were called from above their callers, that holds for all further
calls. -/
theorem temporaries_apart (hrun : KeepsPlaces run) (h : Calling run t entries) {id entry : Nat}
    (hentry : entries[id + 1]? = some entry) {callee : Frame}
    (hcallee : t.frame? (id + 1) = some callee) :
    ((∀ n slot, t.Temporary id n slot → slot < entry) ↔
        callee.func = entry ∨ ∀ n slot, t.Unnamed id n slot → entry ≤ slot → callee.func ≤ slot) ∧
      ∀ n name slot, t.local? id n = some (name, slot) → slot < entry →
        (∀ i, slot ≠ callee.func + i) ∧
          ∀ other, id < other → (other = id + 1 ∨ t.CallsUpwards entries) →
            ∀ n' name' slot', t.local? other n' = some (name', slot') →
              slot ≠ slot' ∧
                (slot' + 1 ≠ t.top → (t.writeLocal id n).2.slot slot' = t.slot slot') ∧
                (slot + 1 ≠ t.top → (t.writeLocal other n').2.slot slot = t.slot slot) := by
  have hplaced := h.placed hrun
  have hle := (hplaced.stands (id + 1) callee entry hcallee hentry).le
  have hsuspended : id + 1 < t.frames.size := (Array.getElem?_eq_some_iff.1 hcallee).1
  obtain ⟨f, hf⟩ : ∃ f, t.frame? id = some f :=
    ⟨_, Array.getElem?_eq_getElem (Nat.lt_of_succ_lt hsuspended)⟩
  have hend : t.localsEnd id = callee.func := by
    have hne : id ≠ t.currentId := by
      rw [Machine.currentId]
      omega
    rw [Machine.localsEnd, if_neg hne, hcallee, Option.map_some, Option.getD_some]
  refine ⟨⟨fun hbelow => ?_, fun hnamed n slot htemporary => ?_⟩,
    fun n name slot hlocal hslot => ⟨fun i => ?_, fun other hother hup n' name' slot' hlocal' => ?_⟩⟩
  · refine Or.inr fun n slot hunnamed hslot => Nat.le_of_not_lt fun hlt => ?_
    exact absurd (hbelow n slot ((Machine.temporary_iff hf).2 ⟨hunnamed, by rwa [hend]⟩))
      (Nat.not_lt.2 hslot)
  · obtain ⟨hunnamed, hlt⟩ := (Machine.temporary_iff hf).1 htemporary
    rw [hend] at hlt
    rcases hnamed with hstays | hnamed
    · rwa [hstays] at hlt
    · exact Nat.lt_of_not_le fun hslot => absurd (hnamed n slot hunnamed hslot) (Nat.not_le.2 hlt)
  · omega
  · have hin : other < entries.length := by
      obtain ⟨g, hg, -⟩ := Option.bind_eq_some_iff.1 hlocal'
      rw [hplaced.length]
      exact (Array.getElem?_eq_some_iff.1 hg).1
    have hentry' := List.getElem?_eq_getElem hin
    have habove : entry ≤ entries[other] := by
      rcases hup with rfl | hup
      · exact Nat.le_of_eq (Option.some.inj (hentry.symm.trans hentry'))
      · exact hplaced.entry_le hup hentry hother hentry'
    have hlt := hplaced.lt_slot hentry' hlocal'
    have hne : slot ≠ slot' := by omega
    exact ⟨hne, fun htop => Machine.slot_writeLocal_of_ne hlocal hne htop,
      fun htop => Machine.slot_writeLocal_of_ne hlocal' hne.symm htop⟩

theorem keepsPlaces_calm : KeepsPlaces (H := H) calm := fun _ _ t => .refl t.toMachine

/-- A function without variables. -/
def bareProto : Proto where
  code := #[.abc .return0 0 0 0]
  maxStack := 2

/-- A thread with that function on the stack, and others to call. -/
def bareCall : Thread Unit (List HookRecord) :=
  (Thread.initial []).onMachine fun m =>
    (((m.register (.script bareProto #[])).register (.script gatheringProto #[])).register
      (.native "print" 0)).push (.function 0)

/-- It runs the function, which calls one that keeps its extra arguments. -/
def gatheringArguments : Thread Unit (List HookRecord) :=
  (bareCall.pushScriptFrame 1 {}).2.onMachine
    (·.pushAll [.function 1, .integer 7, .integer 8, .integer 9])

/-- The last argument is set apart. -/
def gatheringCall : Thread Unit (List HookRecord) :=
  (gatheringArguments.pushScriptFrame 2 {}).2.onMachine (·.adjustVarargs 2)

theorem calling_gatheringCall : Calling calm gatheringCall [0, 1, 2] := by
  have hbare : Calling calm bareCall [0] := (Calling.start []).work (.of_frames_eq rfl)
  have hentered : (bareCall.pushScriptFrame 1 {}).1 = .ok 1 := rfl
  have harguments : Calling calm gatheringArguments [0, 1] :=
    (hbare.enterScript hentered).work (.of_frames_eq (Machine.frames_pushAll _ _))
  have hgathering : (gatheringArguments.pushScriptFrame 2 {}).1 = .ok 2 := rfl
  exact (harguments.enterScript hgathering).adjust 2

/-- The function was found in slot 2 and has moved up to slot 6, so its caller has temporary values in all
slots up to there: in the one where the function was found, and in the one of the extra argument, which
changes when the caller's temporary value is written. -/
theorem temporaries_reach_gathered :
    Calling calm gatheringCall [0, 1, 2] ∧ KeepsPlaces (H := Unit) calm ∧
      (gatheringCall.frame? 2).map Frame.func = some 6 ∧
      gatheringCall.Temporary 1 1 2 ∧ gatheringCall.Temporary 1 4 5 ∧
      gatheringCall.local? 2 (-1) = some ("(vararg)", 5) ∧ gatheringCall.slot 5 = .integer 9 ∧
      ((gatheringCall.push (.integer 10)).writeLocal 1 4).2.slot 5 = .integer 10 := by
  have hframe : gatheringCall.frame? 1 = some (.script 1 4 (some 0)) := by decide +kernel
  have htemporary : ∀ n slot, 0 < n → gatheringCall.declaredName? (.script 1 4 (some 0)) 1 n.toNat = none →
      gatheringCall.local? 1 n = some ("(temporary)", slot) → gatheringCall.Temporary 1 n slot :=
    fun n slot hpos hnone hlocal => ⟨hpos, ⟨_, hframe, hnone⟩, _, hlocal⟩
  exact ⟨calling_gatheringCall, keepsPlaces_calm, by decide +kernel,
    htemporary 1 2 (by decide) (by decide +kernel) (by decide +kernel),
    htemporary 4 5 (by decide) (by decide +kernel) (by decide +kernel), by decide +kernel,
    by decide +kernel, by decide +kernel⟩

/-- The function calls a native one in turn, with a value below it and two arguments. -/
def nativeArguments : Thread Unit (List HookRecord) :=
  gatheringCall.onMachine (·.pushAll [.nil, .function 2, .nil, .nil])

/-- The value below the native function is the last temporary value of its caller, and is not shared. -/
theorem temporaries_apart_native :
    let t := (nativeArguments.pushNativeFrame calm 10).2
    t.local? 2 3 = some ("(temporary)", 9) ∧ t.local? 3 1 = some ("(native temporary)", 11) ∧
      (∀ n slot, t.Temporary 2 n slot → slot < 10) ∧
      (t.writeLocal 2 3).2.slot 11 = t.slot 11 ∧ (t.writeLocal 3 1).2.slot 9 = t.slot 9 := by
  intro t
  have hentered : (nativeArguments.pushNativeFrame calm 10).1 = .ok 3 := by
    set_option maxRecDepth 2000 in rfl
  have harguments : Calling calm nativeArguments [0, 1, 2] :=
    calling_gatheringCall.work (.of_frames_eq (Machine.frames_pushAll _ _))
  have hcalling : Calling calm t [0, 1, 2, 10] := harguments.enterNative hentered
  have hcallee : t.frame? 3 = some (.native 10 33 (some 2)) := by decide +kernel
  have hcaller : t.local? 2 3 = some ("(temporary)", 9) := by decide +kernel
  have hnative : t.local? 3 1 = some ("(native temporary)", 11) := by decide +kernel
  have hentry : [0, 1, 2, 10][2 + 1]? = some 10 := rfl
  obtain ⟨hends, hshared⟩ := temporaries_apart keepsPlaces_calm hcalling hentry hcallee
  obtain ⟨-, hapart⟩ := hshared 3 _ 9 hcaller (by decide)
  obtain ⟨-, hread, hwritten⟩ := hapart 3 (by decide) (Or.inl rfl) 1 _ 11 hnative
  exact ⟨hcaller, hnative, hends.2 (Or.inl rfl), hread (by decide +kernel), hwritten (by decide +kernel)⟩

end Thread

end VmInspect
