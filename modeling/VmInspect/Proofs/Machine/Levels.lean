import Mathlib.Data.List.Basic
import VmInspect.Machine.Description
import VmInspect.Proofs.Machine.Nesting

/-!
# The chain of calls

Every frame names the frame that called it.  As frames are added and taken away at one end only, that is
the frame just below it, so walking from caller to caller is counting down.  This file proves it of a
machine in which the frames are linked in this way:

* `Machine.Linked` — each frame was called by the one below it, and the first frame, a native one, by none.
* `Machine.Linked.level?_eq` — the frame of a level, for every number.
* `Machine.Linked.traceback_eq` — a traceback goes through the frames one by one and leaves none out.
-/

namespace VmInspect

namespace Machine

/-- There is a native frame below all calls, and every other frame was called by the one below it. -/
structure Linked (m : Machine) : Prop where
  nonempty : 0 < m.frames.size
  previous : ∀ id f, m.frame? id = some f → f.previous = if id = baseFrame then none else some (id - 1)
  native : ∀ f, m.frame? baseFrame = some f → f.isScript = false

namespace Linked

variable {m m' : Machine}

theorem initial : Linked Machine.initial := by
  refine ⟨by decide, fun id f hf => ?_, fun f hf => ?_⟩
  · cases id with
    | zero =>
      obtain rfl := Option.some.inj hf
      rfl
    | succ id => cases hf
  · obtain rfl := Option.some.inj hf
    rfl

/-- Values have no part in it. -/
theorem of_frames_eq (h : m.Linked) (hframes : m'.frames = m.frames) : m'.Linked := by
  have hframe : ∀ id, m'.frame? id = m.frame? id := fun id => congrArg (·[id]?) hframes
  refine ⟨by rw [hframes]; exact h.nonempty, fun id f hf => ?_, fun f hf => ?_⟩
  · exact h.previous id f ((hframe id).symm.trans hf)
  · exact h.native f ((hframe baseFrame).symm.trans hf)

theorem modifyFrame (h : m.Linked) (id : Nat) {change : Frame → Frame}
    (hchange : ∀ f, (change f).previous = f.previous ∧ (change f).isScript = f.isScript) :
    (m.modifyFrame id change).Linked := by
  have hframe : ∀ j f', (m.modifyFrame id change).frame? j = some f' →
      ∃ f, m.frame? j = some f ∧ f'.previous = f.previous ∧ f'.isScript = f.isScript := by
    intro j f' hf'
    rw [frame?_modifyFrame] at hf'
    split at hf'
    · obtain ⟨f, hf, rfl⟩ := Option.map_eq_some_iff.1 hf'
      exact ⟨f, hf, hchange f⟩
    · exact ⟨f', hf', rfl, rfl⟩
  refine ⟨?_, fun j f' hf' => ?_, fun f' hf' => ?_⟩
  · rw [Machine.modifyFrame, Array.size_modify]
    exact h.nonempty
  · obtain ⟨f, hf, hprevious, -⟩ := hframe j f' hf'
    exact hprevious.trans (h.previous j f hf)
  · obtain ⟨f, hf, -, hscript⟩ := hframe baseFrame f' hf'
    exact hscript.trans (h.native f hf)

/-- A call from the current frame. -/
theorem push (h : m.Linked) {f : Frame} (hframes : m'.frames = m.frames.push f)
    (hprevious : f.previous = some m.currentId) : m'.Linked := by
  have hpos := h.nonempty
  refine ⟨by rw [hframes, Array.size_push]; omega, fun id g hg => ?_, fun g hg => ?_⟩
  · rw [frame?, hframes, Array.getElem?_push] at hg
    split at hg
    · rename_i hid
      obtain rfl := Option.some.inj hg
      rw [hprevious, hid, if_neg (by unfold baseFrame; omega), currentId]
    · exact h.previous id g hg
  · rw [frame?, hframes, Array.getElem?_push, if_neg (by unfold baseFrame; omega)] at hg
    exact h.native g hg

/-- A return from any frame but the first. -/
theorem pop (h : m.Linked) (hid : m.currentId ≠ baseFrame) (hframes : m'.frames = m.frames.pop) :
    m'.Linked := by
  have hpos : 1 < m.frames.size := by
    unfold currentId baseFrame at hid
    omega
  have hframe : ∀ id f, m'.frame? id = some f → m.frame? id = some f := by
    intro id f hf
    rw [frame?, hframes, Array.getElem?_pop] at hf
    split at hf
    · exact hf
    · cases hf
  refine ⟨by rw [hframes, Array.size_pop]; omega, fun id f hf => ?_, fun f hf => ?_⟩
  · exact h.previous id f (hframe id f hf)
  · exact h.native f (hframe baseFrame f hf)

theorem exists_frame {id : Nat} (hid : id < m.frames.size) : ∃ f, m.frame? id = some f :=
  ⟨m.frames[id], Array.getElem?_eq_getElem hid⟩

theorem previous_succ (h : m.Linked) {id : Nat} (hid : id + 1 < m.frames.size) :
    (m.frame? (id + 1)).bind Frame.previous = some id := by
  obtain ⟨f, hf⟩ := exists_frame hid
  rw [hf, Option.bind_some, h.previous _ f hf, if_neg (show id + 1 ≠ baseFrame from Nat.succ_ne_zero id),
    Nat.add_sub_cancel]

/-! ## Levels -/

/-- Going up a number of callers is going down as many frames, unless that leads to the first one. -/
theorem callerAt?_eq (h : m.Linked) (level : Nat) {id : Nat} (hid : id < m.frames.size) :
    m.callerAt? level id = if level < id then some (id - level) else none := by
  induction level generalizing id with
  | zero =>
    unfold callerAt? baseFrame
    cases id with
    | zero => rfl
    | succ id => rfl
  | succ level ih =>
    unfold callerAt? baseFrame
    cases id with
    | zero => rfl
    | succ id =>
      rw [if_neg (Nat.succ_ne_zero id), h.previous_succ hid, Option.bind_some,
        ih (Nat.lt_of_succ_lt hid), Nat.add_sub_add_right]
      simp only [Nat.add_lt_add_iff_right]

/-- The frame of a level lies as far below the current one. -/
theorem level?_eq (h : m.Linked) (level : Int) :
    m.level? level =
      if 0 ≤ level ∧ level < m.depth then some (m.depth - level.toNat) else none := by
  have hid : m.currentId < m.frames.size := by
    have hpos := h.nonempty
    unfold currentId
    omega
  unfold level?
  rw [h.callerAt?_eq level.toNat hid]
  have hdepth : m.currentId = m.depth := rfl
  rw [hdepth]
  by_cases hneg : level < 0
  · rw [if_pos hneg, if_neg (by omega)]
  · rw [if_neg hneg]
    by_cases hlt : level.toNat < m.depth
    · rw [if_pos hlt, if_pos (by omega)]
    · rw [if_neg hlt, if_neg (by omega)]

/-! ## Tracebacks -/

/-- The frames from one on are that frame and all below it. -/
theorem takeWhile_chain (h : m.Linked) (fuel : Nat) {id : Nat} (hid : id < m.frames.size)
    (hfuel : id < fuel) :
    (m.chain fuel (some id)).takeWhile (· ≠ baseFrame) = (List.range id).map (id - ·) := by
  induction id generalizing fuel with
  | zero =>
    cases fuel with
    | zero => rfl
    | succ fuel => rfl
  | succ id ih =>
    cases fuel with
    | zero => omega
    | succ fuel =>
      have hbelow := ih fuel (Nat.lt_of_succ_lt hid) (Nat.lt_of_succ_lt_succ hfuel)
      have hkeep : id + 1 ≠ baseFrame := Nat.succ_ne_zero id
      unfold chain
      rw [h.previous_succ hid, List.takeWhile_cons, if_pos (decide_eq_true hkeep), hbelow,
        List.range_succ_eq_map, List.map_cons, List.map_map]
      refine congrArg ((id + 1) :: ·) (List.map_congr_left fun i _ => ?_)
      exact (Nat.add_sub_add_right id 1 i).symm

theorem exists_describeFrame? {id : Nat} (hid : id < m.frames.size) :
    ∃ info, m.describeFrame? id = some info := by
  obtain ⟨f, hf⟩ := exists_frame hid
  unfold describeFrame?
  rw [hf]
  exact ⟨_, rfl⟩

end Linked

/-- The entry of a frame in a traceback. -/
def entryAt (m : Machine) (id : Nat) : TraceEntry :=
  ((m.describeFrame? id).map FunctionInfo.entry).getD default

/-- A traceback has an entry for each frame from that of the level on, the innermost first. -/
theorem Linked.traceback_eq {m : Machine} (h : m.Linked) {level : Int} (hlevel : 0 ≤ level) :
    m.traceback level =
      (List.range (m.depth - level.toNat)).map fun i => m.entryAt (m.depth - level.toNat - i) := by
  have hpos := h.nonempty
  have hdepth : m.depth < m.frames.size := by
    unfold depth
    omega
  unfold traceback
  rw [h.level?_eq level]
  by_cases hlt : level < m.depth
  · have hid : m.depth - level.toNat < m.frames.size := by omega
    have hentry : ∀ id ∈ (List.range (m.depth - level.toNat)).map (m.depth - level.toNat - ·),
        (m.describeFrame? id).map FunctionInfo.entry = some (m.entryAt id) := by
      intro id hmem
      obtain ⟨i, -, rfl⟩ := List.mem_map.1 hmem
      obtain ⟨info, hinfo⟩ :=
        Linked.exists_describeFrame? (Nat.lt_of_le_of_lt (Nat.sub_le _ i) hid)
      rw [entryAt, hinfo]
      rfl
    rw [if_pos ⟨hlevel, hlt⟩]
    dsimp only
    rw [callers, h.takeWhile_chain _ hid hid,
      List.filterMap_eq_map_iff_forall_eq_some.2 hentry, List.map_map]
    rfl
  · have hnone : m.depth - level.toNat = 0 := by omega
    rw [if_neg fun hboth => hlt hboth.2, hnone]
    rfl

/-- There are no frames of negative levels. -/
theorem Linked.traceback_of_neg {m : Machine} (h : m.Linked) {level : Int} (hlevel : level < 0) :
    m.traceback level = [] := by
  unfold traceback
  rw [h.level?_eq level, if_neg (by omega)]

end Machine

end VmInspect
