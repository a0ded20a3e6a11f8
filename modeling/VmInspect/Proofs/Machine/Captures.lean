import VmInspect.Machine.Upvalue

/-!
# Captured variables

Several functions can capture one variable, and they go on sharing it when it moves off the stack: as
long as it is open they share the slot, and those that hold the same handle share its cell afterwards.
What a handle denotes, a slot or a cell, is the identity of its variable.  There are two ways to get one
more handle: to share one, and to copy what it denotes now.  A copy of an open handle is closed by itself.

* `UpvalueStore.get_eq` — to read a handle is to read the variable that it denotes.
* `Captures.Sound.perform` — every handle denotes a variable, in a slot of the stack or in a cell.
* `Captures.later_perform`, `Captures.later_run` — a closed handle denotes its cell for good, and an open
  one its slot until it is closed.
* `Captures.Sound.read_close`, `Captures.Sound.read_set`, `Captures.Sound.read_write` — what each of the
  changes does to all handles.
* `Captures.run_shares_variables` — so handles behave as shared variables after any operations.
-/

namespace VmInspect

namespace UpvalueStore

/-- The value of a variable, by where it lives. -/
def valueOf (s : UpvalueStore) (stack : Array Value) : Upvalue → Value
  | .onStack slot => stack[slot]?.getD .nil
  | .inCell cell => s.cells[cell]?.getD .nil

/-- To read a handle is to read the variable that it denotes. -/
theorem get_eq (s : UpvalueStore) (stack : Array Value) (handle : Nat) :
    s.get stack handle = (s.handles[handle]?.map (s.valueOf stack)).getD .nil := by
  rw [get]
  rcases s.handles[handle]? with _ | u
  · rfl
  · cases u with
    | onStack slot => rfl
    | inCell cell => rfl

end UpvalueStore

/-- What is done with captured variables.  The handles are known by the order in which they were
obtained. -/
inductive CaptureOp where
  /-- a handle of a stack slot -/
  | capture (slot : Nat)
  /-- a handle of a new cell -/
  | enclose (v : Value)
  /-- the same handle again -/
  | share (i : Nat)
  /-- another handle of what a handle denotes now -/
  | clone (i : Nat)
  | close (i : Nat)
  | set (i : Nat) (v : Value)
  /-- a write to a stack slot -/
  | write (slot : Nat) (v : Value)

/-- A stack, the captured variables, and the handles that were obtained. -/
structure Captures where
  stack : Array Value
  store : UpvalueStore := {}
  names : List Nat := []

namespace Captures

/-- A stack of which nothing is captured. -/
def start (stack : Array Value) : Captures := { stack }

/-- The variable that a handle denotes. -/
def upvalue? (c : Captures) (i : Nat) : Option Upvalue :=
  c.names[i]?.bind fun handle => c.store.handles[handle]?

def read (c : Captures) (i : Nat) : Value := (c.names[i]?.map (c.store.get c.stack)).getD .nil

def isOpen (c : Captures) (i : Nat) : Bool := c.names[i]?.any c.store.isOpen

def perform (c : Captures) : CaptureOp → Captures
  | .capture slot =>
    { c with store := c.store.addOpen slot, names := c.names ++ [c.store.handles.size] }
  | .enclose v =>
    { c with store := c.store.addClosed v, names := c.names ++ [c.store.handles.size] }
  | .share i =>
    match c.names[i]? with
    | some handle => { c with names := c.names ++ [handle] }
    | none => c
  | .clone i =>
    match c.names[i]? with
    | some handle =>
      { c with store := c.store.addCopy handle, names := c.names ++ [c.store.handles.size] }
    | none => c
  | .close i =>
    match c.names[i]? with
    | some handle => { c with store := c.store.close c.stack handle }
    | none => c
  | .set i v =>
    match c.names[i]? with
    | some handle =>
      { c with
        store := (c.store.set c.stack handle v).1
        stack := (c.store.set c.stack handle v).2 }
    | none => c
  | .write slot v => { c with stack := c.stack.setIfInBounds slot v }

/-- Perform one operation after another. -/
def run (c : Captures) : List CaptureOp → Captures
  | [] => c
  | op :: ops => (c.perform op).run ops

variable {c c' c'' : Captures} {i j slot : Nat} {u : Upvalue} {op : CaptureOp}

theorem read_eq (c : Captures) (i : Nat) :
    c.read i = ((c.upvalue? i).map (c.store.valueOf c.stack)).getD .nil := by
  rw [read, upvalue?]
  rcases c.names[i]? with _ | handle
  · rfl
  · exact c.store.get_eq c.stack handle

theorem isOpen_iff : c.isOpen i = true ↔ ∃ slot, c.upvalue? i = some (.onStack slot) := by
  rw [isOpen, upvalue?]
  rcases c.names[i]? with _ | handle
  · simp
  · simp only [Option.any_some, Option.bind_some, UpvalueStore.isOpen]
    rcases c.store.handles[handle]? with _ | u
    · simp
    · cases u <;> simp

/-! ## Every variable has a place -/

/-- The slot of a variable is inside the stack, or its cell is there. -/
def Has (c : Captures) : Upvalue → Prop
  | .onStack slot => slot < c.stack.size
  | .inCell cell => cell < c.store.cells.size

theorem Has.mono (h : c.Has u) (hstack : c.stack.size ≤ c'.stack.size)
    (hcells : c.store.cells.size ≤ c'.store.cells.size) : c'.Has u := by
  cases u with
  | onStack slot => exact Nat.lt_of_lt_of_le h hstack
  | inCell cell => exact Nat.lt_of_lt_of_le h hcells

/-- Every handle that was obtained denotes a variable that has a place. -/
structure Sound (c : Captures) : Prop where
  named : ∀ handle ∈ c.names, handle < c.store.handles.size
  placed : ∀ u ∈ c.store.handles, c.Has u

theorem sound_start (stack : Array Value) : (start stack).Sound := by
  refine ⟨?_, ?_⟩
  · intro handle h
    cases h
  · intro u h
    simp [start] at h

namespace Sound

theorem exists_variable (h : c.Sound) (hi : i < c.names.length) :
    ∃ u, c.upvalue? i = some u ∧ c.Has u := by
  have hname := List.getElem?_eq_getElem hi
  have hlt := h.named _ (List.mem_of_getElem? hname)
  refine ⟨c.store.handles[c.names[i]], ?_, h.placed _ (Array.getElem_mem hlt)⟩
  rw [upvalue?, hname, Option.bind_some, Array.getElem?_eq_getElem hlt]

theorem has_of_upvalue (h : c.Sound) (hu : c.upvalue? i = some u) : c.Has u := by
  obtain ⟨handle, -, hhandle⟩ := Option.bind_eq_some_iff.1 hu
  exact h.placed u (Array.mem_of_getElem? hhandle)

/-- Another handle is named. -/
theorem push (h : c.Sound) (hu : c'.Has u) (hstack : c.stack.size ≤ c'.stack.size)
    (hcells : c.store.cells.size ≤ c'.store.cells.size)
    (hhandles : c'.store.handles = c.store.handles.push u)
    (hnames : c'.names = c.names ++ [c.store.handles.size]) : c'.Sound := by
  refine ⟨?_, ?_⟩
  · intro handle hmem
    rw [hhandles, Array.size_push]
    rw [hnames] at hmem
    rcases List.mem_append.1 hmem with hmem | hmem
    · exact Nat.lt_succ_of_lt (h.named handle hmem)
    · rw [List.mem_singleton.1 hmem]
      exact Nat.lt_succ_self _
  · intro u' hmem
    rw [hhandles] at hmem
    rcases Array.mem_push.1 hmem with hmem | rfl
    · exact (h.placed u' hmem).mono hstack hcells
    · exact hu

/-- The step lemma, for slots inside the stack. -/
theorem perform (h : c.Sound) (hinside : ∀ slot, op = .capture slot → slot < c.stack.size) :
    (c.perform op).Sound := by
  cases op with
  | capture slot =>
    have hslot : (c.perform (.capture slot)).Has (.onStack slot) := hinside slot rfl
    exact h.push hslot (Nat.le_refl _) (Nat.le_refl _) rfl rfl
  | enclose v =>
    have hcells : c.store.cells.size ≤ (c.perform (.enclose v)).store.cells.size := by
      simp [Captures.perform, UpvalueStore.addClosed]
    have hcell : (c.perform (.enclose v)).Has (.inCell c.store.cells.size) := by
      simp [Has, Captures.perform, UpvalueStore.addClosed]
    exact h.push hcell (Nat.le_refl _) hcells rfl rfl
  | share i =>
    rw [Captures.perform]
    split
    · rename_i handle hname
      refine ⟨?_, h.placed⟩
      intro handle' hmem
      rcases List.mem_append.1 hmem with hmem | hmem
      · exact h.named handle' hmem
      · rw [List.mem_singleton.1 hmem]
        exact h.named handle (List.mem_of_getElem? hname)
    · exact h
  | clone i =>
    rw [Captures.perform]
    split
    · rename_i handle hname
      have hlt := h.named handle (List.mem_of_getElem? hname)
      have hu := h.placed _ (Array.getElem_mem hlt)
      rw [UpvalueStore.addCopy, Array.getElem?_eq_getElem hlt]
      exact h.push hu (Nat.le_refl _) (Nat.le_refl _) rfl rfl
    · exact h
  | close i =>
    rw [Captures.perform]
    split
    · rename_i handle hname
      rw [UpvalueStore.close]
      split
      · refine ⟨?_, ?_⟩
        · intro handle' hmem
          rw [Array.size_setIfInBounds]
          exact h.named handle' hmem
        · intro u hmem
          rcases Array.mem_or_eq_of_mem_setIfInBounds hmem with hmem | rfl
          · exact (h.placed u hmem).mono (Nat.le_refl _) (by simp)
          · simp [Has]
      · exact h
    · exact h
  | set i v =>
    rw [Captures.perform]
    split
    · rw [UpvalueStore.set]
      split
      · exact ⟨h.named, fun u hmem => (h.placed u hmem).mono (by simp) (Nat.le_refl _)⟩
      · exact ⟨h.named, fun u hmem => (h.placed u hmem).mono (Nat.le_refl _) (by simp)⟩
      · exact h
    · exact h
  | write slot v =>
    exact ⟨h.named, fun u hmem => (h.placed u hmem).mono (by simp [Captures.perform]) (Nat.le_refl _)⟩

end Sound

/-! ## What a handle denotes later on -/

/-- Handles that denote a cell denote it later on, and those that denote a slot denote it until they are
closed. -/
structure Later (c c' : Captures) : Prop where
  names : ∃ new, c'.names = c.names ++ new
  closed : ∀ (handle cell : Nat), c.store.handles[handle]? = some (.inCell cell) →
    c'.store.handles[handle]? = some (.inCell cell)
  opened : ∀ (handle slot : Nat), c.store.handles[handle]? = some (.onStack slot) →
    c'.store.handles[handle]? = some (.onStack slot) ∨
      ∃ cell, c'.store.handles[handle]? = some (.inCell cell)

namespace Later

/-- Nothing becomes of the handles where they are kept, and others are added. -/
theorem of_handles (hnames : ∃ new, c'.names = c.names ++ new)
    (hhandles : ∀ (handle : Nat) (u : Upvalue), c.store.handles[handle]? = some u →
      c'.store.handles[handle]? = some u) : c.Later c' :=
  ⟨hnames, fun handle _ h => hhandles handle _ h, fun handle _ h => .inl (hhandles handle _ h)⟩

theorem of_handles_eq (hnames : ∃ new, c'.names = c.names ++ new)
    (hhandles : c'.store.handles = c.store.handles) : c.Later c' := by
  refine of_handles hnames ?_
  intro handle u hhandle
  rw [hhandles]
  exact hhandle

theorem of_push (hnames : ∃ new, c'.names = c.names ++ new)
    (hhandles : c'.store.handles = c.store.handles.push u) : c.Later c' := by
  refine of_handles hnames ?_
  intro handle u' hhandle
  have hlt := (Array.getElem?_eq_some_iff.1 hhandle).1
  rw [hhandles, Array.getElem?_push, if_neg (Nat.ne_of_lt hlt)]
  exact hhandle

theorem refl (c : Captures) : c.Later c := of_handles_eq ⟨[], (List.append_nil _).symm⟩ rfl

theorem trans (h : c.Later c') (h' : c'.Later c'') : c.Later c'' := by
  obtain ⟨new, hnames⟩ := h.names
  obtain ⟨new', hnames'⟩ := h'.names
  refine ⟨⟨new ++ new', ?_⟩, ?_, ?_⟩
  · rw [hnames', hnames, List.append_assoc]
  · intro handle cell hcell
    exact h'.closed handle cell (h.closed handle cell hcell)
  · intro handle slot hslot
    rcases h.opened handle slot hslot with hslot' | ⟨cell, hcell⟩
    · exact h'.opened handle slot hslot'
    · exact .inr ⟨cell, h'.closed handle cell hcell⟩

/-- A handle goes by its name for good. -/
theorem name {handle : Nat} (h : c.Later c') (hname : c.names[i]? = some handle) :
    c'.names[i]? = some handle := by
  obtain ⟨new, hnames⟩ := h.names
  rw [hnames, List.getElem?_append_left (List.getElem?_eq_some_iff.1 hname).1]
  exact hname

theorem upvalue_closed (h : c.Later c') {cell : Nat} (hi : c.upvalue? i = some (.inCell cell)) :
    c'.upvalue? i = some (.inCell cell) := by
  obtain ⟨handle, hname, hhandle⟩ := Option.bind_eq_some_iff.1 hi
  rw [upvalue?, h.name hname, Option.bind_some]
  exact h.closed handle cell hhandle

theorem upvalue_open (h : c.Later c') (hi : c.upvalue? i = some (.onStack slot))
    (hopen : c'.isOpen i = true) : c'.upvalue? i = some (.onStack slot) := by
  obtain ⟨handle, hname, hhandle⟩ := Option.bind_eq_some_iff.1 hi
  obtain ⟨slot', hslot'⟩ := isOpen_iff.1 hopen
  rw [upvalue?, h.name hname, Option.bind_some] at hslot' ⊢
  rcases h.opened handle slot hhandle with hsame | ⟨cell, hcell⟩
  · exact hsame
  · rw [hcell] at hslot'
    cases hslot'

end Later

/-- A closed handle denotes its cell for good, and an open one its slot until it is closed. -/
theorem later_perform (c : Captures) (op : CaptureOp) : c.Later (c.perform op) := by
  have hsame : ∃ new, c.names = c.names ++ new := ⟨[], (List.append_nil _).symm⟩
  cases op with
  | capture slot => exact .of_push ⟨_, rfl⟩ rfl
  | enclose v => exact .of_push ⟨_, rfl⟩ rfl
  | share i =>
    rw [perform]
    split
    · exact .of_handles_eq ⟨_, rfl⟩ rfl
    · exact .refl c
  | clone i =>
    rw [perform]
    split
    · rw [UpvalueStore.addCopy]
      split
      · exact .of_push ⟨_, rfl⟩ rfl
      · exact .of_handles_eq ⟨_, rfl⟩ rfl
    · exact .refl c
  | close i =>
    rw [perform]
    split
    · rename_i handle hname
      rw [UpvalueStore.close]
      split
      · rename_i slot hslot
        refine ⟨hsame, ?_, ?_⟩
        · intro handle' cell hcell
          have hne : handle ≠ handle' := by
            rintro rfl
            rw [hslot] at hcell
            cases hcell
          rw [Array.getElem?_setIfInBounds_ne hne]
          exact hcell
        · intro handle' slot' hslot'
          by_cases heq : handle = handle'
          · subst heq
            have hlt := (Array.getElem?_eq_some_iff.1 hslot).1
            exact .inr ⟨_, Array.getElem?_setIfInBounds_self_of_lt hlt⟩
          · rw [Array.getElem?_setIfInBounds_ne heq]
            exact .inl hslot'
      · exact .refl c
    · exact .refl c
  | set i v =>
    rw [perform]
    split
    · rw [UpvalueStore.set]
      split
      · exact .of_handles_eq hsame rfl
      · exact .of_handles_eq hsame rfl
      · exact .of_handles_eq hsame rfl
    · exact .refl c
  | write slot v => exact .of_handles_eq hsame rfl

/-- The run lemma. -/
theorem later_run (c : Captures) (ops : List CaptureOp) : c.Later (c.run ops) := by
  induction ops generalizing c with
  | nil => exact .refl c
  | cons op ops ih => exact (c.later_perform op).trans (ih (c.perform op))

/-! ## What changes do to handles -/

/-- Write a variable where it lives. -/
def assign (c : Captures) (u : Upvalue) (v : Value) : Captures :=
  match u with
  | .onStack slot => { c with stack := c.stack.setIfInBounds slot v }
  | .inCell cell =>
    { c with store := { c.store with cells := c.store.cells.setIfInBounds cell v } }

/-- The handles that denote a variable that was written read as what was written, and no others
change. -/
theorem read_assign (hu : c.Has u) (v : Value) (j : Nat) :
    (c.assign u v).read j = if c.upvalue? j = some u then v else c.read j := by
  have hupvalue : (c.assign u v).upvalue? j = c.upvalue? j := by
    cases u with
    | onStack slot => rfl
    | inCell cell => rfl
  rw [read_eq, read_eq, hupvalue]
  rcases c.upvalue? j with _ | u'
  · rfl
  · simp only [Option.map_some, Option.getD_some, Option.some.injEq]
    cases u with
    | onStack slot =>
      cases u' with
      | onStack slot' =>
        have hlt : slot < c.stack.size := hu
        simp only [assign, UpvalueStore.valueOf, Upvalue.onStack.injEq]
        by_cases heq : slot' = slot
        · subst heq
          rw [if_pos rfl, Array.getElem?_setIfInBounds_self_of_lt hlt, Option.getD_some]
        · rw [if_neg heq, Array.getElem?_setIfInBounds_ne (Ne.symm heq)]
      | inCell cell' => rfl
    | inCell cell =>
      cases u' with
      | onStack slot' => rfl
      | inCell cell' =>
        have hlt : cell < c.store.cells.size := hu
        simp only [assign, UpvalueStore.valueOf, Upvalue.inCell.injEq]
        by_cases heq : cell' = cell
        · subst heq
          rw [if_pos rfl, Array.getElem?_setIfInBounds_self_of_lt hlt, Option.getD_some]
        · rw [if_neg heq, Array.getElem?_setIfInBounds_ne (Ne.symm heq)]

/-- To set a handle is to write the variable that it denotes. -/
theorem perform_set_eq (hi : c.upvalue? i = some u) (v : Value) :
    c.perform (.set i v) = c.assign u v := by
  obtain ⟨handle, hname, hhandle⟩ := Option.bind_eq_some_iff.1 hi
  simp only [perform, hname, UpvalueStore.set, hhandle]
  cases u with
  | onStack slot => rfl
  | inCell cell => rfl

namespace Sound

theorem read_set (h : c.Sound) (hi : i < c.names.length) (v : Value) (j : Nat) :
    (c.perform (.set i v)).read j = if c.upvalue? j = c.upvalue? i then v else c.read j := by
  obtain ⟨u, hu, hhas⟩ := h.exists_variable hi
  rw [perform_set_eq hu, hu, read_assign hhas]

theorem read_write (h : c.Sound) (slot : Nat) (v : Value) (j : Nat) :
    (c.perform (.write slot v)).read j =
      if c.upvalue? j = some (.onStack slot) then v else c.read j := by
  by_cases hslot : slot < c.stack.size
  · have hhas : c.Has (.onStack slot) := hslot
    exact read_assign hhas v j
  · -- a write outside the stack is none, and no handle denotes such a slot
    have hnone : c.perform (.write slot v) = c := by
      rw [Captures.perform, Array.setIfInBounds_eq_of_size_le (Nat.le_of_not_lt hslot)]
    have hj : c.upvalue? j ≠ some (.onStack slot) := by
      intro hj
      exact hslot (h.has_of_upvalue hj)
    rw [hnone, if_neg hj]

/-- Closing a handle moves the value of its variable, and no handle reads differently. -/
theorem read_close (h : c.Sound) (i j : Nat) : (c.perform (.close i)).read j = c.read j := by
  rw [Captures.perform]
  split
  · rename_i handle hname
    rw [UpvalueStore.close]
    split
    · rename_i slot hslot
      have hlt := (Array.getElem?_eq_some_iff.1 hslot).1
      rw [read, read]
      rcases hj : c.names[j]? with _ | handle'
      · rfl
      · simp only [Option.map_some, Option.getD_some, UpvalueStore.get_eq]
        by_cases heq : handle = handle'
        · -- the cell is new, and holds what was in the slot
          subst heq
          rw [Array.getElem?_setIfInBounds_self_of_lt hlt, hslot]
          simp [UpvalueStore.valueOf]
        · rw [Array.getElem?_setIfInBounds_ne heq]
          rcases hu : c.store.handles[handle']? with _ | u
          · rfl
          · cases u with
            | onStack slot' => rfl
            | inCell cell =>
              have hcell : cell < c.store.cells.size := h.placed _ (Array.mem_of_getElem? hu)
              simp only [Option.map_some, UpvalueStore.valueOf, Array.getElem?_push,
                if_neg (Nat.ne_of_lt hcell)]
    · rfl
  · rfl

end Sound

/-! ## Two handles of one variable -/

/-- Handles that denote the same variable read the same. -/
theorem read_congr (h : c.upvalue? i = c.upvalue? j) : c.read i = c.read j := by
  rw [read_eq, read_eq, h]

/-- A shared handle goes by another name. -/
theorem names_share {handle : Nat} (hi : c.names[i]? = some handle) :
    (c.perform (.share i)).names[c.names.length]? = some handle := by
  simp [perform, hi]

theorem variable_share (hi : i < c.names.length) (ops : List CaptureOp) :
    ((c.perform (.share i)).run ops).upvalue? c.names.length =
      ((c.perform (.share i)).run ops).upvalue? i := by
  have hname := List.getElem?_eq_getElem hi
  have hlater := (c.perform (.share i)).later_run ops
  rw [upvalue?, upvalue?, hlater.name (names_share hname),
    hlater.name ((c.later_perform (.share i)).name hname)]

/-- A copy denotes what its original denotes. -/
theorem upvalue_clone (hi : c.upvalue? i = some u) :
    (c.perform (.clone i)).upvalue? c.names.length = some u ∧
      (c.perform (.clone i)).upvalue? i = some u := by
  obtain ⟨handle, hname, hhandle⟩ := Option.bind_eq_some_iff.1 hi
  have hlt := (Array.getElem?_eq_some_iff.1 hhandle).1
  have hi' := (List.getElem?_eq_some_iff.1 hname).1
  simp only [upvalue?, perform, hname, UpvalueStore.addCopy, hhandle, UpvalueStore.add]
  rw [List.getElem?_concat_length, List.getElem?_append_left hi', hname]
  simp only [Option.bind_some, Array.getElem?_push, if_neg (Nat.ne_of_lt hlt), hhandle, if_true,
    and_self]

/-! ## Runs -/

theorem size_stack_perform (c : Captures) (op : CaptureOp) :
    (c.perform op).stack.size = c.stack.size := by
  cases op with
  | set i v =>
    rw [perform]
    split
    · rw [UpvalueStore.set]
      split <;> simp
    · rfl
  | write slot v => simp [perform]
  | capture slot => rfl
  | enclose v => rfl
  | share i =>
    rw [perform]
    split <;> rfl
  | clone i =>
    rw [perform]
    split <;> rfl
  | close i =>
    rw [perform]
    split <;> rfl

/-- The run lemma, for slots inside the stack. -/
theorem Sound.run (h : c.Sound) {ops : List CaptureOp}
    (hinside : ∀ slot, .capture slot ∈ ops → slot < c.stack.size) : (c.run ops).Sound := by
  induction ops generalizing c with
  | nil => exact h
  | cons op ops ih =>
    refine ih (h.perform ?_) ?_
    · rintro slot rfl
      exact hinside slot List.mem_cons_self
    · intro slot hmem
      rw [size_stack_perform]
      exact hinside slot (List.mem_cons_of_mem _ hmem)

/-- **Captured variables are shared.**  Any operations are performed on a stack with no captured
variables, and all slots that are captured are inside the stack.  After them:

* Closing changes nothing that any handle reads.
* Setting a handle changes exactly the handles of the same variable, which read the new value: the open
  ones on the same slot, or those of the same cell.
* A write to a slot changes exactly the handles that are still open on it.
* A shared handle reads as its original after any further operations, and so does a copy of a closed one.
  A copy of an open one does while both are open. -/
theorem run_shares_variables (stack : Array Value) (ops : List CaptureOp)
    (hinside : ∀ slot, .capture slot ∈ ops → slot < stack.size) :
    let c := (start stack).run ops
    (∀ i j, (c.perform (.close i)).read j = c.read j) ∧
      (∀ i < c.names.length, ∀ v j, (c.perform (.set i v)).read j =
        if c.upvalue? j = c.upvalue? i then v else c.read j) ∧
      (∀ slot v j, (c.perform (.write slot v)).read j =
        if c.upvalue? j = some (.onStack slot) then v else c.read j) ∧
      (∀ i < c.names.length, ∀ later, let c' := (c.perform (.share i)).run later
        c'.read c.names.length = c'.read i) ∧
      ∀ i < c.names.length, ∀ later, let c' := (c.perform (.clone i)).run later
        (c.isOpen i = false ∨ c'.isOpen c.names.length = true ∧ c'.isOpen i = true) →
          c'.read c.names.length = c'.read i := by
  intro c
  have hsound : c.Sound := (sound_start stack).run hinside
  refine ⟨hsound.read_close, fun i hi => hsound.read_set hi, hsound.read_write, ?_, ?_⟩
  · intro i hi later c'
    exact read_congr (variable_share hi later)
  · intro i hi later c' hsame
    obtain ⟨u, hu, -⟩ := hsound.exists_variable hi
    obtain ⟨hcopy, horiginal⟩ := upvalue_clone hu
    have hlater : (c.perform (.clone i)).Later c' := (c.perform (.clone i)).later_run later
    refine read_congr ?_
    cases u with
    | inCell cell => rw [hlater.upvalue_closed hcopy, hlater.upvalue_closed horiginal]
    | onStack slot =>
      have hopen : c.isOpen i = true := isOpen_iff.2 ⟨slot, hu⟩
      rcases hsame with hclosed | ⟨hcopyOpen, horiginalOpen⟩
      · rw [hopen] at hclosed
        cases hclosed
      · rw [hlater.upvalue_open hcopy hcopyOpen, hlater.upvalue_open horiginal horiginalOpen]

/-- A slot is captured, copied and shared, and the original is closed.  The copy is still open and goes its
own way: it follows the slot, and the shared handle follows the cell. -/
theorem run_shares_variables_copied :
    let ops := [.capture 1, .clone 0, .share 0, .close 0]
    let c := (start #[.integer 10, .integer 20]).run ops
    (∀ slot, .capture slot ∈ ops → slot < 2) ∧
      c.isOpen 0 = false ∧ c.isOpen 1 = true ∧
      (∀ v, (c.perform (.set 2 v)).read 0 = v ∧ (c.perform (.set 2 v)).read 1 = .integer 20) ∧
      (∀ v, (c.perform (.write 1 v)).read 1 = v ∧ (c.perform (.write 1 v)).read 0 = .integer 20) ∧
      ∀ later, ((c.perform (.clone 0)).run later).read 3 = ((c.perform (.clone 0)).run later).read 0 := by
  intro ops c
  have hinside : ∀ slot, .capture slot ∈ ops → slot < 2 := by
    intro slot hmem
    simp [ops] at hmem
    omega
  obtain ⟨-, hset, hwrite, -, hclone⟩ :=
    run_shares_variables #[.integer 10, .integer 20] ops hinside
  refine ⟨hinside, rfl, rfl, ?_, ?_, ?_⟩
  · intro v
    exact ⟨hset 2 (by decide) v 0, hset 2 (by decide) v 1⟩
  · intro v
    exact ⟨hwrite 1 v 1, hwrite 1 v 0⟩
  · intro later
    exact hclone 0 (by decide) later (.inl rfl)

end Captures

end VmInspect
