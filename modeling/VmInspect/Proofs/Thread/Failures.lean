import VmInspect.Proofs.Thread.Levels

/-!
# Failures and tracebacks

A failure of running code says three times where it happened: in its position, in front of its message, and in
the first entry of its traceback.  This file proves that the three agree, whatever the code complains about,
in every thread that a program and its callbacks can bring about:

* `Complaint`, `Machine.failure_eq` — all complaints are words behind the position, with a traceback.
* `Machine.Linked.traceback_current` — the first entry of a traceback is that of the current call.
* `Thread.Reachable`, `Thread.Reachable.linked` — the threads that can be brought about have linked frames.
* `Thread.raise_agrees` — so failures agree with their tracebacks, and an error handler changes the message
  and nothing else, or the kind.
-/

namespace VmInspect

/-- What running code can complain about. -/
inductive Complaint where
  /-- an operation met a value of the wrong type -/
  | type (v : Operand) (operation : String)
  /-- a value that is no function was called -/
  | call (v : Operand)
  /-- a numeric loop was given something else than a number -/
  | loop (v : Operand) (what : String)
  /-- one of two values cannot be concatenated -/
  | concat (v w : Operand)
  /-- one of two values is no number -/
  | arithmetic (v w : Operand) (operation : String)
  /-- one of two numbers is no integer -/
  | integer (v w : Operand)
  /-- two values have no order -/
  | order (v w : Operand)
  /-- anything else, in words of its own -/
  | other (message : String)

namespace Machine

variable {m : Machine} {proto : Proto}

/-! ## Complaints -/

/-- The failure for a complaint. -/
def failure (m : Machine) : Complaint → Failure
  | .type v operation => m.typeFailure v operation
  | .call v => m.callFailure v
  | .loop v what => m.loopFailure v what
  | .concat v w => m.concatFailure v w
  | .arithmetic v w operation => m.arithmeticFailure v w operation
  | .integer v w => m.integerFailure v w
  | .order v w => m.orderFailure v w
  | .other message => m.blame message

/-- The words for a value of the wrong type, with a note. -/
def typeWords (m : Machine) (v : Operand) (operation note : String) : String :=
  "attempt to " ++ operation ++ " a " ++ (m.valueOf v).typeName ++ " value" ++ note

/-- The words of a complaint, without a position. -/
def words (m : Machine) : Complaint → String
  | .type v operation => m.typeWords v operation (m.operandNote v)
  | .call v =>
    m.typeWords v "call" <|
      match m.calledName? m.currentId with
      | some name => nameNote (some name)
      | none => m.operandNote v
  | .loop v what =>
    "bad 'for' " ++ what ++ " (number expected, got " ++ (m.valueOf v).typeName ++ ")"
  | .concat v w =>
    let culprit := if (m.valueOf v).concatenates then w else v
    m.typeWords culprit "concatenate" (m.operandNote culprit)
  | .arithmetic v w operation =>
    let culprit := if (m.valueOf v).isNumber then w else v
    m.typeWords culprit operation (m.operandNote culprit)
  | .integer v w =>
    let culprit := if (m.valueOf v).toInteger?.isNone then v else w
    "number" ++ m.operandNote culprit ++ " has no integer representation"
  | .order v w =>
    let a := (m.valueOf v).typeName
    let b := (m.valueOf w).typeName
    if a = b then "attempt to compare two " ++ a ++ " values"
    else "attempt to compare " ++ a ++ " with " ++ b
  | .other message => message

/-- Every complaint is reported in the same way. -/
theorem failure_eq (c : Complaint) : m.failure c = m.blame (m.words c) := by
  cases c with
  | type v operation => rfl
  | call v => rfl
  | loop v what => rfl
  | concat v w => rfl
  | arithmetic v w operation => rfl
  | integer v w => rfl
  | order v w => rfl
  | other message => rfl

/-! ## Where the current call is -/

/-- A position and a description show the same for a source that is not known. -/
theorem label_getD (source : Option String) :
    Source.label (source.getD FunctionInfo.unknownSource) =
      (source.map Source.label).getD Name.unknown := by
  cases source with
  | none => decide
  | some source => rfl

theorem position?_of_native (h : m.current.isScript = false) : m.position? = none := by
  unfold position?
  rw [h]
  rfl

theorem position?_of_script (hscript : m.current.isScript = true)
    (hproto : m.frameProto? m.currentId = some proto) :
    m.position? = some ⟨Source.label (proto.source.getD FunctionInfo.unknownSource),
      (m.currentLine? m.currentId m.current).getD (-1)⟩ := by
  unfold position?
  rw [hscript, hproto, label_getD]
  rfl

theorem currentLine?_eq (hproto : m.frameProto? m.currentId = some proto) (frame : Frame) :
    m.currentLine? m.currentId frame = frame.currentPc?.bind proto.line? := by
  unfold currentLine?
  rw [hproto]
  rfl

/-- The entry of the current call in a traceback. -/
theorem entryAt_currentId (h : m.Linked) (hproto : m.frameProto? m.currentId = some proto) :
    (m.entryAt m.currentId).source = Source.label (proto.source.getD FunctionInfo.unknownSource) ∧
      (m.entryAt m.currentId).line = m.currentLine? m.currentId m.current := by
  have hpos := h.nonempty
  have hcurrent : m.currentId < m.frames.size := by
    unfold currentId
    omega
  obtain ⟨f, hf⟩ := Linked.exists_frame hcurrent
  obtain ⟨function, hfunction, hscript⟩ := Option.bind_eq_some_iff.1 hproto
  cases function with
  | native name count => cases hscript
  | script running upvalues =>
    obtain rfl : running = proto := Option.some.inj hscript
    unfold entryAt describeFrame?
    rw [hf, hfunction, current_eq hf]
    exact ⟨rfl, rfl⟩

/-- While a function is running, the first entry of a traceback is that of its call. -/
theorem Linked.traceback_current (h : m.Linked) (hscript : m.current.isScript = true) :
    ∃ rest, m.traceback 0 = m.entryAt m.currentId :: rest := by
  have hpos := h.nonempty
  have hinner : m.depth ≠ 0 := by
    intro hdepth
    have hbase : m.currentId = baseFrame := hdepth
    obtain ⟨f, hf⟩ : ∃ f, m.frame? baseFrame = some f := Linked.exists_frame hpos
    have hcurrent : m.current = f := by
      rw [current, hbase, frameAt, show m.frames[baseFrame]? = some f from hf]
      rfl
    rw [hcurrent, h.native f hf] at hscript
    cases hscript
  obtain ⟨n, hn⟩ := Nat.exists_eq_succ_of_ne_zero hinner
  have hall := h.traceback_eq (Int.le_refl 0)
  rw [Int.toNat_zero, Nat.sub_zero, hn, List.range_succ_eq_map, List.map_cons, Nat.sub_zero,
    ← hn] at hall
  exact ⟨_, hall⟩

end Machine

namespace Thread

variable {H W : Type} {run : Callback H W} {t : Thread H W}

/-- Complain, through the error handler. -/
def raise (t : Thread H W) (c : Complaint) : Failure := t.handle (t.failure c)

/-! ## Threads that can be brought about -/

/-- The threads that a program and its callbacks can bring about.  A callback starts with the thread that is
made ready for it, and goes on with operations. -/
inductive Reachable (run : Callback H W) : Thread H W → Prop where
  | initial (host : W) : Reachable run (Thread.initial host)
  | operate {t : Thread H W} (h : Reachable run t) (op : Operation H W) : Reachable run (t.operate run op)
  /-- a callback is told about an event -/
  | told {t : Thread H W} (h : Reachable run t) {hook : H} (hhook : t.hook = some hook)
      (hallow : t.allowHook = true) (first count : Nat) : Reachable run (t.beginReport first count)
  /-- a frame notes something, and stays where it stands -/
  | note {t : Thread H W} (h : Reachable run t) (id : Nat) {change : Frame → Frame}
      (hchange : ∀ f, (change f).outline = f.outline) : Reachable run (t.onFrame id change)
  /-- upvalues are opened, closed or written -/
  | capture {t : Thread H W} (h : Reachable run t) (upvalues : UpvalueStore) :
      Reachable run { t with upvalues }
  /-- an error handler is installed, or removed -/
  | handler {t : Thread H W} (h : Reachable run t)
      (errorHandler : Option (Machine → String → Except String String)) :
      Reachable run { t with errorHandler }

/-- Their frames are linked. -/
theorem Reachable.linked (hrun : SparesReturning run) (h : Reachable run t) : t.Linked := by
  induction h with
  | initial host => exact Machine.Linked.initial
  | operate _ op ih => exact linked_operate (keepsChain_of_spares hrun) ih op
  | told _ _ _ first count ih => exact linked_beginReport ih first count
  | note _ id hchange ih =>
    exact ih.modifyFrame id fun f =>
      ⟨congrArg (·.2.2.1) (hchange f), congrArg (·.2.2.2) (hchange f)⟩
  | capture _ _ ih => exact ih.of_frames_eq rfl
  | handler _ _ ih => exact ih

/-- What operations lead to can be brought about. -/
theorem reachable_operateAll (h : Reachable run t) (ops : List (Operation H W)) :
    Reachable run (t.operateAll run ops) := by
  induction ops generalizing t with
  | nil => exact h
  | cons op ops ih => exact ih (h.operate op)

/-! ## Failures -/

/-- **Failures agree with their tracebacks.**  In every thread that can be brought about, by callbacks that spare
a frame that returns, whatever is complained about: without an error handler the traceback has an entry for
each call in progress.  While a function is running, the first entry shows the source and the line of the
position, and so does the message in front of its words; a line that is not known is minus one there.  While
a native function is running, there is no position, and the message is the words.  An error handler that
succeeds changes the message only.  One that fails changes the kind, and keeps the traceback. -/
theorem raise_agrees (hrun : SparesReturning run) (h : Reachable run t) (c : Complaint) :
    let f := raise { t with errorHandler := none } c
    f.kind = .runtime ∧ f.traceback.length = t.depth ∧
    (∀ proto, t.current.isScript = true → t.frameProto? t.currentId = some proto →
      ∃ entry rest, f.traceback = entry :: rest ∧
        entry.source = (proto.source.map Source.label).getD "?" ∧
        entry.line = t.current.currentPc?.bind proto.line? ∧
        f.position = some ⟨entry.source, entry.line.getD (-1)⟩ ∧
        f.message = entry.source ++ ":" ++ toString (entry.line.getD (-1)) ++ ": " ++ t.words c) ∧
    (t.current.isScript = false → f.position = none ∧ f.message = t.words c) ∧
    ∀ handler, t.errorHandler = some handler →
      (∀ message, handler t.toMachine f.message = .ok message → t.raise c = { f with message }) ∧
      ∀ reason, handler t.toMachine f.message = .error reason →
        (t.raise c).kind = .errorHandler ∧ (t.raise c).traceback = f.traceback := by
  intro f
  have hlinked : t.Linked := h.linked hrun
  have hf : f = t.blame (t.words c) := Machine.failure_eq c
  refine ⟨by rw [hf]; rfl, ?length, fun proto hscript hproto => ?script, fun hnative => ?native,
    fun handler hhandler => ⟨fun message hdone => ?changed, fun reason hfailed => ?failed⟩⟩
  case length =>
    have hall := hlinked.traceback_eq (Int.le_refl 0)
    rw [hf, Machine.blame, hall, List.length_map, List.length_range]
    rfl
  case script =>
    obtain ⟨rest, hfirst⟩ := hlinked.traceback_current hscript
    obtain ⟨hsource, hline⟩ := Machine.entryAt_currentId hlinked hproto
    have hposition : t.position? =
        some ⟨(t.entryAt t.currentId).source, (t.entryAt t.currentId).line.getD (-1)⟩ := by
      rw [hsource, hline]
      exact Machine.position?_of_script hscript hproto
    refine ⟨t.entryAt t.currentId, rest, ?_, ?_, ?_, ?_, ?_⟩
    · rw [hf]
      exact hfirst
    · rw [hsource]
      exact Machine.label_getD proto.source
    · rw [hline, Machine.currentLine?_eq hproto]
    · rw [hf]
      exact hposition
    · rw [hf, Machine.blame, hposition]
      rfl
  case native =>
    have hnone : t.position? = none := Machine.position?_of_native hnative
    rw [hf, Machine.blame, hnone]
    exact ⟨rfl, rfl⟩
  case changed =>
    have hsame : t.failure c = f := rfl
    rw [raise, handle, hhandler, hsame]
    simp only [hdone]
  case failed =>
    have hsame : t.failure c = f := rfl
    rw [raise, handle, hhandler, hsame]
    simp only [hfailed, and_self]

/-- A function that adds two registers on line four, and has a name for the first one. -/
def addingProto : Proto :=
  let b := (Builder.empty.withSource "@main.sol").withLines 1 9
  (((b.emit (.abc .add 0 0 1) 4).emit (.abc .return0 0 0 0) 5).addLocal ⟨"x", 0, 2⟩).build

/-- The function is about to add, under a hook. -/
def addingOps : List (Operation Unit Nat) :=
  [.register (.script addingProto #[]), .step (.stack (.push (.function 0))), .enterScript 1 {},
    .step (.setHook (some ()) { line := true } 0), .step (.setSavedPc 1 1)]

/-- An error handler that gives up. -/
def givingUp : Machine → String → Except String String := fun _ message => .error message

/-- The function is about to add, and its hook has been called. -/
def addingThread : Thread Unit Nat :=
  { ((Thread.initial 0).operateAll (careful emitting) addingOps).beginReport 0 0 with
    errorHandler := some givingUp }

/-- The callback complains about the first register. -/
theorem raise_agrees_adding :
    SparesReturning (careful emitting) ∧ Reachable (careful emitting) addingThread ∧
      addingThread.depth = 1 ∧ addingThread.current.isScript = true ∧
      addingThread.frameProto? addingThread.currentId = some addingProto ∧
      (raise { addingThread with errorHandler := none }
        (.arithmetic (.slot 2) (.detached (.integer 1)) "perform arithmetic on")).position =
          some ⟨"main.sol", 4⟩ ∧
      (raise { addingThread with errorHandler := none }
        (.arithmetic (.slot 2) (.detached (.integer 1)) "perform arithmetic on")).message =
          "main.sol:4: attempt to perform arithmetic on a nil value (local 'x')" ∧
      (addingThread.raise
        (.arithmetic (.slot 2) (.detached (.integer 1)) "perform arithmetic on")).kind =
          .errorHandler := by
  have hrun : SparesReturning (careful emitting) := (keepsDepth_careful emitting).spares
  have hreachable : Reachable (careful emitting) addingThread :=
    ((reachable_operateAll (.initial 0) addingOps).told rfl rfl 0 0).handler _
  have hscript : addingThread.current.isScript = true := by decide +kernel
  have hproto : addingThread.frameProto? addingThread.currentId = some addingProto := rfl
  obtain ⟨-, -, hat, -, hhandled⟩ := raise_agrees hrun hreachable
    (.arithmetic (.slot 2) (.detached (.integer 1)) "perform arithmetic on")
  obtain ⟨entry, rest, -, hsource, hline, hposition, hmessage⟩ := hat addingProto hscript hproto
  have hsource' : entry.source = "main.sol" := hsource.trans (by decide)
  have hline' : entry.line = some 4 := hline.trans (by decide +kernel)
  rw [hsource', hline'] at hposition hmessage
  have hwords : addingThread.words
      (.arithmetic (.slot 2) (.detached (.integer 1)) "perform arithmetic on") =
        "attempt to perform arithmetic on a nil value (local 'x')" := by decide +kernel
  rw [hwords] at hmessage
  exact ⟨hrun, hreachable, by decide +kernel, hscript, hproto, hposition, hmessage,
    ((hhandled givingUp rfl).2 _ rfl).1⟩

end Thread

end VmInspect
