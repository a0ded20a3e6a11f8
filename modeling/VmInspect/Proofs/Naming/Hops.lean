import VmInspect.Proofs.Naming.FarPlaces
import VmInspect.Proofs.Naming.Forward

/-!
# The search for a name ends

Whenever the setter of a register is a move, the search for its name goes on with another register at
another place, and takes both from the code.  A move is followed if its source is lower than its target;
that the target is the register asked about is nowhere looked at.  This file runs the search round by
round, with a limit on the rounds and a check on every setter that is read, and shows that neither ever
stops it, whatever the code is:

* `Proto.searchRound_cases` — a round answers, or goes on with a lower register at an earlier place.
* `Proto.runSearch_settles` — so a search is over after as many rounds as there are registers up to the
  one asked about.
* `Proto.describeChecked_returns` — and so are those for the table and the key that a field is named by.

Look-ups that may come to nothing by design, such as the one for a long index behind the last
instruction, are not among those checked.
-/

namespace VmInspect

/-! ## Searches in rounds -/

/-- What one round of the search comes to. -/
inductive SearchRound where
  | answer (found : Finding)
  /-- the search goes on at another place with another register -/
  | hop (pc register : Nat)
  /-- there is no instruction at the place of the setter -/
  | misread (pc : Nat)
deriving DecidableEq, Repr

/-- Why a search ends without an answer. -/
inductive SearchFault where
  /-- there is no instruction at a place that is read -/
  | misread (pc : Nat)
  /-- no more rounds are allowed -/
  | unfinished
deriving DecidableEq, Repr

/-- A search that was run. -/
structure SearchRun where
  /-- the places and registers asked about, one pair for each round -/
  asked : List (Nat × Nat)
  outcome : Except SearchFault Finding

namespace Proto

/-- One round of the search.  Whether to go on is told from the operands of the move alone. -/
def searchRound (p : Proto) (pc register : Nat) : SearchRound :=
  match p.localName? (register + 1) pc with
  | some name => .answer ⟨some ⟨.localVariable, name⟩, some pc⟩
  | none =>
    match p.findSetter? pc register with
    | none => .answer ⟨none, none⟩
    | some setter =>
      match p.code[setter]? with
      | none => .misread setter
      | some i =>
        if i.opcode = .move ∧ i.b < i.a then .hop setter i.b
        else .answer ⟨p.loadedName? setter i, some setter⟩

/-- The search, for at most a number of rounds. -/
def runSearch (p : Proto) : Nat → Nat → Nat → SearchRun
  | 0, _, _ => ⟨[], .error .unfinished⟩
  | n + 1, pc, register =>
    match p.searchRound pc register with
    | .answer found => ⟨[(pc, register)], .ok found⟩
    | .misread setter => ⟨[(pc, register)], .error (.misread setter)⟩
    | .hop setter lower =>
      let run := p.runSearch n setter lower
      ⟨(pc, register) :: run.asked, run.outcome⟩

/-- The search, for as many rounds as there are registers up to the one asked about. -/
def searchFor (p : Proto) (pc register : Nat) : Except SearchFault Finding :=
  (p.runSearch (register + 1) pc register).outcome

/-- The name of the field that an instruction reads, with its table and its key searched for. -/
def fieldNameChecked (p : Proto) (pc : Nat) (i : Instruction) : Except SearchFault (Option Name) :=
  match i.opcode with
  | .getTabUp => return some ⟨fieldKind (some (p.upvalueName i.b)), p.constantKey i.c⟩
  | .getTable => do
    let table ← p.searchFor pc i.b
    let key ← p.searchFor pc i.c
    return some ⟨fieldKind (Name.variableText? table.name), Name.keyText key.name⟩
  | .getI => return some ⟨.field, "integer index"⟩
  | .getField => do
    let table ← p.searchFor pc i.b
    return some ⟨fieldKind (Name.variableText? table.name), p.constantKey i.c⟩
  | .selfIndex =>
    if i.k then return some ⟨.method, p.constantKey i.c⟩
    else do
      let key ← p.searchFor pc i.c
      return some ⟨.method, Name.keyText key.name⟩
  | _ => return none

/-- The name of the value in a register, with every search run in rounds and every setter checked. -/
def describeChecked (p : Proto) (pc register : Nat) : Except SearchFault (Option Name) := do
  let found ← p.searchFor pc register
  match found.name, found.setter with
  | some name, _ => return some name
  | none, none => return none
  | none, some setter =>
    match p.code[setter]? with
    | none => throw (.misread setter)
    | some i => p.fieldNameChecked setter i

/-! ## One round -/

variable {p : Proto} {pc register s : Nat}

/-- A setter is an instruction in front of the place, and it writes the register. -/
theorem exists_of_findSetter? (h : p.findSetter? pc register = some s) :
    ∃ i, p.code[s]? = some i ∧ s < pc ∧ p.WritesAt s register := by
  obtain ⟨hlt, hwrites, -⟩ := ((p.findSetter?_eq_some_iff pc register s).1 h).1
  exact ⟨_, Array.getElem?_eq_getElem hwrites.lt_size, Nat.lt_of_lt_of_le hlt (p.pendingPc_le pc),
    hwrites⟩

/-- The step lemma: a round gives the answer, or goes on with a lower register at an earlier place, and
the answer is found there.  The setter is always there to be read. -/
theorem searchRound_cases (p : Proto) (pc register : Nat) :
    p.searchRound pc register = .answer (p.findObject pc register) ∨
      ∃ setter lower, p.searchRound pc register = .hop setter lower ∧ setter < pc ∧
        lower < register ∧ p.findObject pc register = p.findObject setter lower := by
  rw [searchRound, findObject]
  cases p.localName? (register + 1) pc with
  | some name => exact Or.inl rfl
  | none =>
    cases hset : p.findSetter? pc register with
    | none => exact Or.inl rfl
    | some s =>
      obtain ⟨i, hi, hlt, hwrites⟩ := exists_of_findSetter? hset
      simp only [hi]
      by_cases hmove : i.opcode = .move ∧ i.b < i.a
      · -- a move writes no register but its own, which is therefore the one asked about
        obtain rfl := eq_of_move hi hmove.1 hwrites
        rw [if_pos hmove, if_pos hmove]
        exact Or.inr ⟨s, i.b, rfl, hlt, hmove.2, rfl⟩
      · have hno : ¬ (i.opcode = .move ∧ i.b < register) := by
          rintro ⟨hop, hb⟩
          rw [eq_of_move hi hop hwrites] at hb
          exact hmove ⟨hop, hb⟩
        rw [if_neg hmove, if_neg hno]
        exact Or.inl rfl

/-- An answer without a name comes with a setter that can be read, or with none. -/
theorem exists_of_searchRound {found : Finding} (h : p.searchRound pc register = .answer found)
    (hname : found.name = none) (hset : found.setter = some s) : ∃ i, p.code[s]? = some i := by
  rw [searchRound] at h
  split at h
  · cases h
    cases hname
  · split at h
    · cases h
      cases hset
    · split at h
      · cases h
      · rename_i i hi
        split at h
        · cases h
        · cases h
          rw [← Option.some.inj hset]
          exact ⟨i, hi⟩

end Proto

/-! ## Whole searches -/

/-- The search found the answer, and went down on its way: every round asked about a lower register at
an earlier place than all rounds before it. -/
structure SearchRun.Settles (run : SearchRun) (p : Proto) (pc register : Nat) : Prop where
  outcome : run.outcome = .ok (p.findObject pc register)
  begins : run.asked.head? = some (pc, register)
  within : ∀ q ∈ run.asked, q.1 ≤ pc ∧ q.2 ≤ register
  descends : run.asked.Pairwise fun before after => after.1 < before.1 ∧ after.2 < before.2
  rounds : run.asked.length ≤ register + 1

namespace Proto

variable {p : Proto} {pc register s : Nat}

/-- The run lemma: a search that is allowed more rounds than the number of its register settles. -/
theorem runSearch_settles (p : Proto) :
    ∀ {limit pc register : Nat}, register < limit →
      (p.runSearch limit pc register).Settles p pc register := by
  intro limit
  induction limit with
  | zero => intro pc register h; omega
  | succ n ih =>
    intro pc register h
    rw [runSearch]
    rcases p.searchRound_cases pc register with hround | ⟨s, r, hround, hs, hr, heq⟩
    · rw [hround]
      exact ⟨rfl, rfl, by simp, List.pairwise_singleton _ _, by simp⟩
    · rw [hround]
      have hrest : (p.runSearch n s r).Settles p s r := ih (by omega)
      have hbelow : ∀ q ∈ (p.runSearch n s r).asked, q.1 < pc ∧ q.2 < register := by
        intro q hq
        have := hrest.within q hq
        omega
      refine ⟨heq ▸ hrest.outcome, rfl, ?_, List.pairwise_cons.2 ⟨hbelow, hrest.descends⟩, ?_⟩
      · rintro q hq
        rcases List.mem_cons.1 hq with rfl | hq
        · exact ⟨Nat.le_refl _, Nat.le_refl _⟩
        · have := hbelow q hq
          omega
      · have := hrest.rounds
        simp only [List.length_cons]
        omega

theorem searchFor_eq (p : Proto) (pc register : Nat) :
    p.searchFor pc register = .ok (p.findObject pc register) :=
  (p.runSearch_settles (Nat.lt_succ_self register)).outcome

/-- So does the answer of a whole search. -/
theorem exists_of_findObject (hname : (p.findObject pc register).name = none)
    (hset : (p.findObject pc register).setter = some s) : ∃ i, p.code[s]? = some i := by
  induction register using Nat.strongRecOn generalizing pc with
  | ind register ih =>
    rcases p.searchRound_cases pc register with hround | ⟨t, r, -, -, hr, heq⟩
    · exact exists_of_searchRound hround hname hset
    · rw [heq] at hname hset
      exact ih r hr hname hset

/-! ## Descriptions -/

/-- The searches for a table and for a key end as well. -/
theorem fieldNameChecked_eq (p : Proto) (pc : Nat) (i : Instruction) :
    p.fieldNameChecked pc i = .ok (p.fieldName? pc i) := by
  unfold fieldNameChecked fieldName?
  cases hop : i.opcode
  case selfIndex =>
    cases hk : i.k
    · simp only [searchFor_eq]
      rfl
    · rfl
  all_goals
    simp only [searchFor_eq]
    rfl

/-- A description reads no instruction that is missing, and none of its searches fails. -/
theorem describeChecked_eq (p : Proto) (pc register : Nat) :
    p.describeChecked pc register = .ok (p.describe? pc register) := by
  rw [describeChecked, describe?, searchFor_eq]
  cases hname : (p.findObject pc register).name with
  | some name =>
    simp only [bind, Except.bind, hname]
    rfl
  | none =>
    cases hset : (p.findObject pc register).setter with
    | none =>
      simp only [bind, Except.bind, hname, hset]
      rfl
    | some s =>
      obtain ⟨i, hi⟩ := exists_of_findObject hname hset
      simp [bind, Except.bind, hname, hset, hi, fieldNameChecked_eq]

/-- **Every search ends.**  In any code, from any place and for any register, the search comes to its
answer within as many rounds as there are registers up to the one asked about.  Each round asks about a
lower register at an earlier place than the rounds before it, and no setter that is read is missing.
So the value is always described: the searches for its table and its key end too. -/
theorem describeChecked_returns (p : Proto) (pc register : Nat) :
    let run := p.runSearch (register + 1) pc register
    run.outcome = .ok (p.findObject pc register) ∧ run.asked.head? = some (pc, register) ∧
      run.asked.length ≤ register + 1 ∧
      run.asked.Pairwise (fun before after => after.1 < before.1 ∧ after.2 < before.2) ∧
      p.describeChecked pc register = .ok (p.describe? pc register) := by
  intro run
  have hrun : run.Settles p pc register := p.runSearch_settles (Nat.lt_succ_self register)
  exact ⟨hrun.outcome, hrun.begins, hrun.rounds, hrun.descends, p.describeChecked_eq pc register⟩

/-- Three moves in a row, and none of the rounds is left over. -/
example :
    let p : Proto := { code := #[.abc .move 1 0 0, .abc .move 2 1 0, .abc .move 3 2 0] }
    (p.runSearch 4 3 3).asked = [(3, 3), (2, 2), (1, 1), (0, 0)] := by
  decide

end Proto

end VmInspect
