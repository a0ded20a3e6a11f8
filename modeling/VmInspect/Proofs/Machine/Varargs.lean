import VmInspect.Machine.Locals
import VmInspect.Proofs.Thread.Calls

/-!
# Where extra arguments lie

A function that keeps its extra arguments is moved above all of them together with its fixed
parameters, and the extra arguments stay behind, below its slot.  This file says where everything is
afterwards:

* `Machine.slot_liftValues` — values that are lifted arrive in order above the top.
* `Machine.slot_enterScript` — the arguments of a function that was entered, filled up with nil.
* `Machine.slot_adjustVarargs_param`, `Machine.slot_adjustVarargs_extra` — the fixed parameters are moved
  in order, and the other arguments stay where they are.
* `Thread.pushScriptFrame_varargs` — so the registers hold the fixed parameters, and the extra arguments
  are found under their negative numbers.
-/

namespace VmInspect

namespace Machine

/-! ## Values that are moved -/

/-- A value with a slot of its own is what the slot reads as. -/
theorem getElem?_of_slot {m : Machine} {i : Nat} (hi : i < m.stack.size) {v : Value}
    (hslot : m.slot i = v) : m.stack[i]? = some v := by
  rw [← hslot, slot, Array.getElem?_eq_getElem hi, Option.getD_some]

/-- Values that are pushed lie above the old top, in order. -/
theorem slot_pushAll_getElem (vs : List Value) (m : Machine) {i : Nat} (hi : i < vs.length) :
    (m.pushAll vs).slot (m.top + i) = vs[i] := by
  induction vs generalizing m i with
  | nil => exact absurd hi (Nat.not_lt_zero i)
  | cons v vs ih =>
    rw [pushAll_cons]
    cases i with
    | zero =>
      have hkept := slot_pushAll vs (m.push v) (i := m.top) (Nat.lt_succ_self _)
      exact hkept.1.trans (m.slot_push_top v)
    | succ i =>
      have hrest := ih (m.push v) (Nat.lt_of_succ_lt_succ hi)
      rw [top_push, Nat.add_right_comm] at hrest
      exact hrest

/-- Values that are lifted from below the top arrive above it, in order. -/
theorem slot_liftValues (m : Machine) (first : Nat) {count : Nat} (hbelow : first + count ≤ m.top)
    {k : Nat} (hk : k < count) :
    ((List.range' first count).foldl liftValue m).slot (m.top + k) = m.slot (first + k) := by
  induction count generalizing m first k with
  | zero => exact absurd hk (Nat.not_lt_zero k)
  | succ count ih =>
    rw [List.range'_succ, List.foldl_cons]
    cases k with
    | zero =>
      have hmem : m.top ∉ List.range' (first + 1) count := by
        rw [List.mem_range'_1]
        omega
      have hkept := slot_foldl_liftValue (List.range' (first + 1) count) (m.liftValue first)
        (j := m.top) (Nat.lt_succ_self _)
      rw [if_neg hmem] at hkept
      exact hkept.trans ((m.put first .nil).slot_push_top (m.slot first))
    | succ k =>
      have hrest := ih (m.liftValue first) (first + 1) (by rw [top_liftValue]; omega)
        (Nat.lt_of_succ_lt_succ hk)
      have hsource := m.slot_liftValue first (j := first + 1 + k) (by omega)
      rw [if_neg (by omega)] at hsource
      rw [top_liftValue, hsource, Nat.add_right_comm m.top, Nat.add_right_comm first] at hrest
      exact hrest

/-! ## Entering a function -/

/-- The arguments of a function that was entered: those that it was given, and nil for every parameter
that is missing. -/
theorem slot_enterScript {m : Machine} {func : Nat} {args : List Value}
    (htop : m.top = func + 1 + args.length)
    (hargs : ∀ i (h : i < args.length), m.slot (func + 1 + i) = args[i]) (proto : Proto)
    (flags : CallFlags) {i : Nat} (hi : i < max args.length proto.paramCount) :
    (m.enterScript proto func flags).slot (func + 1 + i) = args[i]?.getD .nil := by
  have habove : m.above func = args.length := by
    rw [above, htop]
    omega
  by_cases hgiven : i < args.length
  · rw [m.slot_enterScript_of_lt proto func flags (by omega), hargs i hgiven,
      List.getElem?_eq_getElem hgiven, Option.getD_some]
  · have hmissing := slot_pushAll_getElem (List.replicate (proto.paramCount - args.length) .nil)
      (m.ensureStack (max proto.maxStack proto.paramCount)) (i := i - args.length)
      (by rw [List.length_replicate]; omega)
    have hplace : (m.ensureStack (max proto.maxStack proto.paramCount)).top + (i - args.length) =
        func + 1 + i := by
      change m.top + (i - args.length) = func + 1 + i
      omega
    rw [hplace, List.getElem_replicate, ← habove] at hmissing
    rw [List.getElem?_eq_none (Nat.le_of_not_lt hgiven), Option.getD_none]
    exact (slot_growTo _ _ _).trans hmissing

/-! ## Setting extra arguments apart -/

section Adjust

variable (m : Machine) {fixed : Nat}

/-- The fixed parameters follow the function in their order. -/
theorem slot_adjustVarargs_param (hfits : fixed ≤ m.above m.current.func)
    (hfunc : m.current.func < m.top) {i : Nat} (hi : i < fixed) :
    (m.adjustVarargs fixed).slot (m.top + 1 + i) = m.slot (m.current.func + 1 + i) := by
  have hbelow : m.current.func + 1 + i < m.top := by
    rw [above] at hfits
    omega
  have hlift := slot_liftValues
    ((m.ensureStack (((m.frameProto? m.currentId).map Proto.maxStack).getD 0 + 1)).push
      (m.slot m.current.func)) (m.current.func + 1)
    (by rw [top_push]; change _ ≤ m.top + 1; rw [above] at hfits; omega) hi
  have hpush := slot_push_of_ne
    (m.ensureStack (((m.frameProto? m.currentId).map Proto.maxStack).getD 0 + 1))
    (i := m.current.func + 1 + i) (Nat.ne_of_gt hbelow) (m.slot m.current.func)
  unfold adjustVarargs
  simp only [slot_growTo, slot_modifyFrame]
  exact hlift.trans (hpush.trans (slot_growTo m _ _))

/-- The other arguments stay where they are. -/
theorem slot_adjustVarargs_extra (hfunc : m.current.func < m.top) {i : Nat} (hextra : fixed ≤ i)
    (hi : i < m.above m.current.func) :
    (m.adjustVarargs fixed).slot (m.current.func + 1 + i) = m.slot (m.current.func + 1 + i) := by
  have hbelow : m.current.func + 1 + i < m.top := by
    rw [above] at hi
    omega
  have hmem : m.current.func + 1 + i ∉ List.range' (m.current.func + 1) fixed := by
    rw [List.mem_range'_1]
    omega
  have hlift := slot_foldl_liftValue (List.range' (m.current.func + 1) fixed)
    ((m.ensureStack (((m.frameProto? m.currentId).map Proto.maxStack).getD 0 + 1)).push
      (m.slot m.current.func)) (j := m.current.func + 1 + i) (Nat.lt_succ_of_lt hbelow)
  rw [if_neg hmem] at hlift
  have hpush := slot_push_of_ne
    (m.ensureStack (((m.frameProto? m.currentId).map Proto.maxStack).getD 0 + 1))
    (i := m.current.func + 1 + i) (Nat.ne_of_gt hbelow) (m.slot m.current.func)
  unfold adjustVarargs
  simp only [slot_growTo, slot_modifyFrame]
  exact hlift.trans (hpush.trans (slot_growTo m _ _))

end Adjust

/-! ## The numbers of extra arguments -/

/-- A frame has its extra arguments under the numbers from minus one down to minus their number, and
they lie below the function in their order. -/
theorem local?_of_neg {m : Machine} {id : Nat} {f : Frame} {p : Progress} {proto : Proto}
    (hf : m.frame? id = some f) (hp : f.progress? = some p)
    (hproto : m.frameProto? id = some proto) (hvararg : proto.isVararg = true) {n : Int}
    (hn : n < 0) :
    m.local? id n =
      if -(p.extraArgs : Int) ≤ n then
        some ("(vararg)", ((f.func : Int) - p.extraArgs - (n + 1)).toNat)
      else none := by
  have hscript : f.isScript = true := by
    rw [Frame.isScript, hp]
    rfl
  have hextra : f.extraArgs = p.extraArgs := by
    rw [Frame.extraArgs, hp]
    rfl
  have hat : m.frameAt id = f := frameAt_eq hf
  rw [local?, hf, Option.bind_some, hscript, decide_eq_true hn]
  simp only [Bool.and_self, if_true, varargSlot?, hproto, Option.any_some, hvararg, hat, true_and,
    hextra]
  split
  · rfl
  · rfl

section Numbers

variable {m : Machine} {f : Frame} {p : Progress} {proto : Proto} {fixed : Nat}

/-- A frame whose extra arguments are set apart has its function where the top was. -/
theorem func_adjustedFrame (hfunc : f.func < m.top) :
    (adjustedFrame (m.above f.func) fixed f).func = m.top := by
  show f.func + (m.above f.func + 1) = m.top
  rw [above]
  omega

/-- The extra arguments are those behind the fixed parameters. -/
theorem local?_adjustVarargs (hf : m.frame? m.currentId = some f) (hp : f.progress? = some p)
    (hproto : m.frameProto? m.currentId = some proto) (hvararg : proto.isVararg = true)
    (hfunc : f.func < m.top) (hfits : fixed ≤ m.above f.func) {n : Int} (hn : n < 0) :
    (m.adjustVarargs fixed).local? m.currentId n =
      if -((m.above f.func - fixed : Nat) : Int) ≤ n then
        some ("(vararg)", f.func + fixed + n.natAbs)
      else none := by
  have hruns := frameProto?_adjustVarargs hf hfunc fixed
  rw [if_neg (Nat.not_lt.2 hfits), hproto] at hruns
  have hlocal := local?_of_neg (frame?_adjustVarargs hf fixed)
    (progress?_adjustedFrame hp (m.above f.func) fixed) hruns hvararg hn
  rw [func_adjustedFrame hfunc] at hlocal
  have hheight : m.top = f.func + 1 + m.above f.func := by
    rw [above]
    omega
  have hslot : -((m.above f.func - fixed : Nat) : Int) ≤ n →
      ((m.top : Int) - (m.above f.func - fixed : Nat) - (n + 1)).toNat =
        f.func + fixed + n.natAbs := by
    intro hle
    omega
  rw [hlocal]
  split
  · rename_i hle
    rw [hslot hle]
  · rfl

/-- A frame with arguments above its function, nil for each parameter that is missing, once the extra
ones are set apart. -/
theorem adjustVarargs_layout (hf : m.frame? m.currentId = some f) (hp : f.progress? = some p)
    (hproto : m.frameProto? m.currentId = some proto) (hvararg : proto.isVararg = true)
    (hfunc : f.func < m.top) {args : List Value}
    (habove : m.above f.func = max args.length proto.paramCount)
    (hvalues : ∀ i < max args.length proto.paramCount,
      m.slot (f.func + 1 + i) = args[i]?.getD .nil) :
    let m' := m.adjustVarargs proto.paramCount
    ∃ f', m'.frame? m.currentId = some f' ∧
      m'.top = f'.base + proto.paramCount ∧
      f'.extraArgs = args.length - proto.paramCount ∧
      m'.stack[f'.base - 1]? = some (m.slot f.func) ∧
      (∀ i < proto.paramCount, m'.stack[f'.base + i]? = some (args[i]?.getD .nil)) ∧
      (∀ k, 1 ≤ k → k ≤ f'.extraArgs → ∃ slot v,
        m'.local? m.currentId (-(k : Int)) = some ("(vararg)", slot) ∧
          args[proto.paramCount + k - 1]? = some v ∧ m'.stack[slot]? = some v) ∧
      ∀ n : Int, n < -(f'.extraArgs : Int) → m'.local? m.currentId n = none := by
  have hcurrent : m.current = f := current_eq hf
  have hfits : proto.paramCount ≤ m.above f.func := by
    rw [habove]
    exact Nat.le_max_right _ _
  have hextra : m.above f.func - proto.paramCount = args.length - proto.paramCount := by
    rw [habove]
    omega
  have hfits' : m.above m.current.func = max args.length proto.paramCount := by
    rw [hcurrent, habove]
  have hheight : m.top = f.func + 1 + m.above f.func := by
    rw [above]
    omega
  have hbase : (adjustedFrame (m.above f.func) proto.paramCount f).base = m.top + 1 :=
    congrArg (· + 1) (func_adjustedFrame hfunc)
  have hnumber : (adjustedFrame (m.above f.func) proto.paramCount f).extraArgs =
      args.length - proto.paramCount := by
    rw [Frame.extraArgs, progress?_adjustedFrame hp, Option.map_some, Option.getD_some, hextra]
  intro m'
  have hroom : m.top + 1 + proto.paramCount ≤ m'.stack.size := by
    have hroom := hasRoom_adjustVarargs m proto.paramCount
    rw [HasRoom, top_adjustVarargs] at hroom
    exact hroom
  refine ⟨_, frame?_adjustVarargs hf proto.paramCount, ?_, hnumber, ?_, ?_, ?_, ?_⟩
  · rw [hbase]
    exact top_adjustVarargs m proto.paramCount
  · rw [hbase, Nat.add_sub_cancel]
    refine getElem?_of_slot (by omega) ?_
    have hmoved := slot_adjustVarargs m (hcurrent.symm ▸ hfunc) proto.paramCount
    rw [hcurrent, if_neg (Nat.not_lt.2 hfits)] at hmoved
    exact hmoved
  · intro i hi
    rw [hbase]
    refine getElem?_of_slot (by omega) ?_
    have hparam := slot_adjustVarargs_param m (hcurrent.symm ▸ hfits) (hcurrent.symm ▸ hfunc) hi
    rw [hcurrent, hvalues i (Nat.lt_of_lt_of_le hi (Nat.le_max_right _ _))] at hparam
    exact hparam
  · intro k hpos hk
    rw [hnumber] at hk
    have hgiven : proto.paramCount + k - 1 < args.length := by omega
    refine ⟨f.func + proto.paramCount + k, args[proto.paramCount + k - 1], ?_,
      List.getElem?_eq_getElem hgiven, ?_⟩
    · have hlocal := local?_adjustVarargs hf hp hproto hvararg hfunc hfits (n := -(k : Int)) (by omega)
      rw [hextra, if_pos (by omega), Int.natAbs_neg, Int.natAbs_natCast] at hlocal
      exact hlocal
    · refine getElem?_of_slot (by omega) ?_
      have hstays := slot_adjustVarargs_extra m (hcurrent.symm ▸ hfunc)
        (show proto.paramCount ≤ proto.paramCount + k - 1 by omega) (by omega)
      have hplace : f.func + 1 + (proto.paramCount + k - 1) = f.func + proto.paramCount + k := by
        omega
      rw [hcurrent, hvalues _ (by omega), hplace, List.getElem?_eq_getElem hgiven,
        Option.getD_some] at hstays
      exact hstays
  · intro n hn
    rw [hnumber] at hn
    have hlocal := local?_adjustVarargs hf hp hproto hvararg hfunc hfits (n := n) (by omega)
    rw [hextra, if_neg (by omega)] at hlocal
    exact hlocal

end Numbers

end Machine

namespace Thread

variable {H W : Type} {t : Thread H W} {proto : Proto} {func : Nat} {upvalues : Array Nat}

/-- **Extra arguments.**  A function that keeps its extra arguments is called with any arguments, and
they are set apart.  Then the registers hold the fixed parameters, nil where an argument is missing,
with the function below them and the top above them.  The other arguments are kept: they have the
names and slots that are found under the negative numbers from minus one on, and no lower number has
any. -/
theorem pushScriptFrame_varargs
    (hslot : t.stack[func]?.bind t.function? = some (.script proto upvalues))
    (hvararg : proto.isVararg = true) {args : List Value} (htop : t.top = func + 1 + args.length)
    (hargs : ∀ i (h : i < args.length), t.slot (func + 1 + i) = args[i]) (flags : CallFlags) :
    let entered := t.pushScriptFrame func flags
    let m := entered.2.adjustVarargs proto.paramCount
    entered.1 = .ok m.currentId ∧
      ∃ f, m.frame? m.currentId = some f ∧
        m.top = f.base + proto.paramCount ∧
        f.extraArgs = args.length - proto.paramCount ∧
        m.stack[f.base - 1]? = t.stack[func]? ∧
        (∀ i < proto.paramCount, m.stack[f.base + i]? = some (args[i]?.getD .nil)) ∧
        (∀ k, 1 ≤ k → k ≤ f.extraArgs → ∃ slot v,
          m.local? m.currentId (-(k : Int)) = some ("(vararg)", slot) ∧
            args[proto.paramCount + k - 1]? = some v ∧ m.stack[slot]? = some v) ∧
        ∀ n : Int, n < -(f.extraArgs : Int) → m.local? m.currentId n = none := by
  have hfunc : func < t.top := by omega
  obtain ⟨v, hv, -⟩ := Option.bind_eq_some_iff.1 hslot
  have hcall := Machine.inCall_enterScript t.toMachine proto hfunc flags
  have hframe := hcall.frame?_current
  rw [Machine.current_enterScript] at hframe
  have habove : (t.enterScript proto func flags).above func = max args.length proto.paramCount := by
    rw [Machine.above, Machine.top_enterScript, Machine.above]
    omega
  have hplace : func < (t.enterScript proto func flags).top := by
    rw [Machine.top_enterScript]
    omega
  have hkept : t.stack[func]? = some ((t.enterScript proto func flags).slot func) := by
    rw [t.toMachine.slot_enterScript_of_lt proto func flags hfunc, Machine.slot, hv, Option.getD_some]
  have hlayout := Machine.adjustVarargs_layout hframe rfl
    (Machine.enterScript_frame hslot hfunc flags).2.1 hvararg hplace habove
    fun i hi => Machine.slot_enterScript htop hargs proto flags hi
  intro entered m
  have hentered : entered = (.ok t.frames.size, t.onMachine (·.enterScript proto func flags)) :=
    pushScriptFrame_of_slot hslot flags
  have hm : m = (t.enterScript proto func flags).adjustVarargs proto.paramCount := by
    show entered.2.toMachine.adjustVarargs proto.paramCount = _
    rw [hentered]
    rfl
  rw [hm, hkept, Machine.currentId_adjustVarargs]
  refine ⟨?_, hlayout⟩
  rw [hentered, hcall.currentId]

/-- A function of two parameters that keeps its extra arguments. -/
def gatheringProto : Proto where
  code := #[.abc .varargPrep 2 0 0, .abc .return0 0 0 0]
  isVararg := true
  paramCount := 2
  maxStack := 3

/-- A thread that is about to call the function in slot 1 with four arguments. -/
def gatheringThread : Thread Unit Unit :=
  (Thread.initial ()).onMachine fun m =>
    ((m.register (.script gatheringProto #[])).push (.function 0)).pushAll
      [.integer 1, .integer 2, .integer 3, .integer 4]

/-- The function moves to slot 6, and its extra arguments stay in the slots 4 and 5. -/
theorem pushScriptFrame_varargs_gathered :
    let m := (gatheringThread.pushScriptFrame 1 {}).2.adjustVarargs 2
    m.current.base = 7 ∧ m.top = 9 ∧ m.stack[8]? = some (.integer 2) ∧
      m.local? 1 (-1) = some ("(vararg)", 4) ∧ m.local? 1 (-2) = some ("(vararg)", 5) ∧
      m.stack[5]? = some (.integer 4) ∧ ∀ n : Int, n < -2 → m.local? 1 n = none := by
  have hslot : gatheringThread.stack[1]?.bind gatheringThread.function? =
      some (.script gatheringProto #[]) := rfl
  have htop : gatheringThread.top =
      1 + 1 + [Value.integer 1, .integer 2, .integer 3, .integer 4].length := rfl
  have hargs : ∀ i (h : i < [Value.integer 1, .integer 2, .integer 3, .integer 4].length),
      gatheringThread.slot (1 + 1 + i) = [Value.integer 1, .integer 2, .integer 3, .integer 4][i] := by
    decide +kernel
  intro m
  have hlayout := pushScriptFrame_varargs hslot rfl htop hargs {}
  obtain ⟨-, f, hf, -, hextra, -, -, -, hnone⟩ := hlayout
  have hid : m.currentId = 1 := by decide +kernel
  refine ⟨by decide +kernel, by decide +kernel, by decide +kernel, by decide +kernel,
    by decide +kernel, by decide +kernel, fun n hn => ?_⟩
  rw [← hid]
  refine hnone n ?_
  rw [hextra]
  exact hn

end Thread

end VmInspect
