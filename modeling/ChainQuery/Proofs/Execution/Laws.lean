import ChainQuery.Proofs.Execution.Steps

/-!
# Laws of a run

A relation between states is kept by every instruction and every program as soon as a few laws hold
for it: for quiet changes, for staging, for moving to another folder and for visits. The relation may
depend on how deep the visits of one kind of element are nested.
-/

namespace ChainQuery

/-- A relation that the instructions without a body keep. -/
structure LeafLaws (R : RunState → RunState → Prop) : Prop where
  chains : Run.Chains R
  staged : ∀ {s item o}, s.outputs.stage item = .ok o → R s (s.perform (.staged item))
  moved : ∀ {s path}, R s (s.perform (.moved path))

/-- A relation that the visits of a kind of element keep one level deeper than their bodies, and the
other visits at the same level. -/
structure Laws (c : Cursor) (R : Nat → RunState → RunState → Prop) : Prop where
  chains : ∀ n, Run.Chains (R n)
  staged : ∀ {n s item o}, s.outputs.stage item = .ok o → R n s (s.perform (.staged item))
  moved : ∀ {n s path}, R n s (s.perform (.moved path))
  inner : ∀ {n s e t failure}, e.cursor = c → R n (s.enter e) t → R (n + 1) s (t.exit e.cursor failure)
  outer : ∀ {n s e t failure}, e.cursor ≠ c → R n (s.enter e) t → R n s (t.exit e.cursor failure)

theorem Laws.leaves {c : Cursor} {R : Nat → RunState → RunState → Prop} (hR : Laws c R) (n : Nat) :
    LeafLaws (R n) :=
  ⟨hR.chains n, hR.staged, hR.moved⟩

namespace Instruction

mutual

/-- How deep the filters that move a cursor are nested in an instruction. -/
def depth (c : Cursor) : Instruction → Nat
  | sequence body => depthAll c body
  | filter f body => depthAll c body + if f.cursor? = some c then 1 else 0
  | _ => 0

def depthAll (c : Cursor) : List Instruction → Nat
  | [] => 0
  | i :: is => max (depth c i) (depthAll c is)

end

end Instruction

theorem Emission.run_stage (item : OutputItem) (s : RunState) :
    (stage item).run s = match s.outputs.stage item with
      | .ok _ => some (.ok (), s.perform (.staged item))
      | .error e => (Run.raise (.writer e) : Run Unit).run s := by
  rw [stage, Run.run_get_bind, RunState.perform, Outputs.follow]
  cases s.outputs.stage item with
  | ok _ => rfl
  | error _ => rfl

theorem Statement.run_setFolder (path : String) (s : RunState) :
    (setFolder path).run s = match (s.outputs.disk.makeFolders path).2 with
      | none => some (.ok (), s.perform (.moved path))
      | some e => (Run.raise (.writer (.io e)) : Run Unit).run (s.perform (.moved path)) := by
  rw [setFolder, Run.run_get_bind, RunState.perform, Outputs.follow, Outputs.moveTo]
  simp only [show (s.record (.moved path)).outputs = s.outputs from rfl]
  rcases s.outputs.disk.makeFolders path with ⟨disk, _ | e⟩
  · rfl
  · rfl

/-- The outputs are closed after the instructions, whatever their result. -/
theorem Program.run_closed (looks : Nat) (p : Program) (s : RunState) :
    (p.execute looks).run s = match (executeEach looks p.instructions).run s with
      | none => none
      | some (.ok _, t) =>
        match t.outputs.endProgram.2 with
        | none => some (.ok (), t.perform (.closed none))
        | some e => (Run.raise (.writer e) : Run Unit).run (t.perform (.closed none))
      | some (.error fatal, t) => some (.error fatal, t.perform (.closed (some fatal))) := by
  rw [execute, Run.run_bind, Run.run_outcome]
  rcases (executeEach looks p.instructions).run s with _ | ⟨fatal | _, t⟩
  · rfl
  · rfl
  · simp only [Option.map_some, Run.run_modify_bind]
    rw [Run.run_bind]
    have hend : (Run.tryOutputs Outputs.endProgram).run (t.record (.closed none)) =
        some (.ok t.outputs.endProgram.2, t.perform (.closed none)) := rfl
    rw [hend]
    cases t.outputs.endProgram.2 with
    | none => rfl
    | some e => rfl

/-- What is left to do after the closing of the outputs: the first failure is thrown. -/
def Program.ended : Except ExecutionError Unit → Option WriterError → Run Unit
  | .ok _, none => return
  | .ok _, some e => Run.raise (.writer e)
  | .error fatal, _ => Run.resume (.error fatal)

theorem Program.run_execute_ended (looks : Nat) (p : Program) (s : RunState) :
    (p.execute looks).run s = match (executeEach looks p.instructions).run s with
      | none => none
      | some (result, t) =>
        (ended result (t.outputs.follow (.closed (Run.failure? result))).2).run
          (t.perform (.closed (Run.failure? result))) := by
  rw [run_closed]
  rcases (executeEach looks p.instructions).run s with _ | ⟨fatal | _, t⟩
  · rfl
  · rfl
  · show _ = (ended (.ok ()) t.outputs.endProgram.2).run (t.perform (.closed none))
    rcases hend : t.outputs.endProgram.2 with _ | w
    · simp only [hend]
      rfl
    · simp only [hend]
      rfl

section Statements
variable {R : RunState → RunState → Prop} (hR : LeafLaws R)
include hR

theorem Emission.keeps_stage (item : OutputItem) : Run.Keeps R (stage item) := by
  intro s result t h
  rw [run_stage] at h
  cases hstage : s.outputs.stage item with
  | error e =>
    rw [hstage] at h
    exact Run.keeps_raise hR.chains _ _ _ _ h
  | ok o =>
    rw [hstage] at h
    cases h
    exact hR.staged hstage

theorem Emission.keeps_execute (e : Emission) : Run.Keeps R e.execute :=
  Run.keeps_bind hR.chains (Run.keeps_inView hR.chains _) fun item =>
    Emission.keeps_stage hR item

theorem Statement.keeps_setFolder (path : String) : Run.Keeps R (Statement.setFolder path) := by
  intro s result t h
  rw [run_setFolder] at h
  rcases hmake : (s.outputs.disk.makeFolders path).2 with _ | e
  · rw [hmake] at h
    cases h
    exact hR.moved
  · rw [hmake] at h
    exact hR.chains.trans hR.moved (Run.keeps_raise hR.chains _ _ _ _ h)

theorem Statement.keeps_connect (url : String) : Run.Keeps R (Statement.connect url) := by
  have hn := hR.chains
  refine Run.keeps_bind hn (Run.keeps_get hn) fun s => ?_
  cases s.connector with
  | none => exact Run.keeps_bind hn (Run.keeps_attached hn) fun _ => Run.keeps_pure hn _
  | some connector =>
    refine Run.keeps_bind hn (Run.keeps_note hn _) fun before => ?_
    refine Run.keeps_bind hn (Run.keeps_answer hn _) fun chain => ?_
    exact Run.keeps_modify hn fun s => ⟨rfl, rfl, rfl, rfl, rfl⟩

theorem Statement.keeps_write (target : Target) (v : Value) :
    Run.Keeps R (Statement.write target v) :=
  Run.keeps_modify hR.chains fun _ => ⟨rfl, rfl, rfl, rfl, rfl⟩

theorem Statement.keeps_assign (target : Target) (value : Term) :
    Run.Keeps R (Statement.assign target value) :=
  Run.keeps_bind hR.chains (Run.keeps_inView hR.chains _) fun v =>
    Statement.keeps_write hR target v

theorem Statement.keeps_call (method : Builtin) (args : List Term) (target : Option Target) :
    Run.Keeps R (Statement.call method args target) := by
  have hn := hR.chains
  refine Run.keeps_bind hn (Run.keeps_inView hn _) fun values => ?_
  refine Run.keeps_bind hn (Run.keeps_ofExcept hn _) fun result => ?_
  cases target with
  | none => exact Run.keeps_pure hn _
  | some target => exact Statement.keeps_write hR target result

theorem keeps_beginning (i : Instruction) : Run.Keeps R (Run.beginning i) :=
  Run.keeps_bind hR.chains (Run.keeps_get hR.chains) fun _ => Run.keeps_doing hR.chains _

end Statements

section Execution
variable {c : Cursor} {R : Nat → RunState → RunState → Prop} (hR : Laws c R)
include hR

mutual

/-- What the laws of a relation give for an instruction and its level of nesting. -/
theorem Instruction.keeps_execute (looks : Nat) {n : Nat} (i : Instruction) (hi : i.depth c ≤ n) :
    Run.Keeps (R n) (i.execute looks) := by
  have hn := hR.chains n
  cases i with
  | sequence body =>
    rw [Instruction.execute]
    exact keeps_executeAll looks body hi
  | filter f body =>
    rw [Instruction.execute]
    rw [Instruction.depth] at hi
    by_cases hf : f.cursor? = some c
    · rw [if_pos hf] at hi
      obtain ⟨k, rfl⟩ := Nat.exists_eq_add_of_le' (Nat.le_of_add_left_le hi)
      refine f.keeps_run hn (keeps_executeAll looks body (Nat.le_of_succ_le_succ hi)) looks ?_ ?_
      · intro e he s t failure ht
        exact hR.inner (Option.some.inj (he.symm.trans hf)) ht
      · intro hnone
        rw [hnone] at hf
        cases hf
    · rw [if_neg hf] at hi
      refine f.keeps_run hn (keeps_executeAll looks body hi) looks ?_ fun _ _ _ h => h
      intro e he s t failure ht
      refine hR.outer (fun hc => hf ?_) ht
      rw [he, hc]
  | assign target value =>
    rw [Instruction.execute]
    exact Statement.keeps_assign (hR.leaves n) target value
  | call method args target =>
    rw [Instruction.execute]
    exact Statement.keeps_call (hR.leaves n) method args target
  | emit e =>
    rw [Instruction.execute]
    exact e.keeps_execute (hR.leaves n)
  | setFolder path =>
    rw [Instruction.execute]
    exact Statement.keeps_setFolder (hR.leaves n) path
  | connect url =>
    rw [Instruction.execute]
    exact Statement.keeps_connect (hR.leaves n) url

theorem keeps_executeAll (looks : Nat) {n : Nat} (is : List Instruction)
    (his : Instruction.depthAll c is ≤ n) : Run.Keeps (R n) (executeAll looks is) := by
  cases is with
  | nil =>
    rw [executeAll]
    exact Run.keeps_pure (hR.chains n) _
  | cons i is =>
    rw [executeAll]
    rw [Instruction.depthAll] at his
    refine Run.keeps_bind (hR.chains n) (keeps_beginning (hR.leaves n) i) fun _ => ?_
    exact Run.keeps_bind (hR.chains n)
      (Instruction.keeps_execute looks i (Nat.le_trans (Nat.le_max_left _ _) his)) fun _ =>
        keeps_executeAll looks is (Nat.le_trans (Nat.le_max_right _ _) his)

end

theorem Program.keeps_executeEach (looks : Nat) {n : Nat} (is : List Instruction)
    (his : Instruction.depthAll c is ≤ n) : Run.Keeps (R n) (Program.executeEach looks is) := by
  induction is with
  | nil => exact Run.keeps_pure (hR.chains n) _
  | cons i is ih =>
    rw [Instruction.depthAll] at his
    refine Run.keeps_bind (hR.chains n) (Run.keeps_guarded (hR.chains n) _ ?_) fun _ =>
      ih (Nat.le_trans (Nat.le_max_right _ _) his)
    exact Run.keeps_bind (hR.chains n) (keeps_beginning (hR.leaves n) i) fun _ =>
      i.keeps_execute hR looks (Nat.le_trans (Nat.le_max_left _ _) his)

/-- The state after a program is the one after its instructions and the closing of the outputs, whose
failure may be noted. -/
theorem Program.state_of_run (looks : Nat) {n : Nat} {p : Program}
    (hp : Instruction.depthAll c p.instructions ≤ n) {s t : RunState}
    {result : Except ExecutionError Unit} (h : p.run? looks s = some (result, t)) :
    ∃ u failure, R n s u ∧ (u.perform (.closed failure)).Quiet t := by
  rw [Program.run?, run_closed] at h
  rcases hrun : (Program.executeEach looks p.instructions).run s with _ | ⟨fatal | _, u⟩
  · rw [hrun] at h
    cases h
  · rw [hrun] at h
    cases h
    exact ⟨u, some fatal, Program.keeps_executeEach hR looks _ hp _ _ _ hrun, .refl _⟩
  · have ht : (u.perform (.closed none)).Quiet t := by
      rw [hrun] at h
      cases hfailure : u.outputs.endProgram.2 with
      | none =>
        simp only [hfailure] at h
        cases h
        exact .refl _
      | some e =>
        simp only [hfailure] at h
        cases h
        exact ⟨rfl, rfl, rfl, rfl, rfl⟩
    exact ⟨u, none, Program.keeps_executeEach hR looks _ hp _ _ _ hrun, ht⟩

end Execution

def RunState.Extends (s t : RunState) : Prop :=
  s.journal <+: t.journal

theorem RunState.extends_exit {s t : RunState} {e : Element} {failure : Option ExecutionError}
    (h : (s.enter e).Extends t) : s.Extends (t.exit e.cursor failure) := by
  have henter : s.Extends (s.enter e) := by
    cases e <;> exact List.prefix_append _ _
  have hexit : t.Extends (t.exit e.cursor failure) := by
    cases e <;> exact List.prefix_append _ _
  exact henter.trans (h.trans hexit)

theorem laws_extends (c : Cursor) : Laws c fun _ => RunState.Extends where
  chains _ :=
    { quiet := fun h => ⟨[], (List.append_nil _).trans h.journal.symm⟩
      trans := List.IsPrefix.trans }
  staged _ := List.prefix_append _ _
  moved := List.prefix_append _ _
  inner _ h := RunState.extends_exit h
  outer _ h := RunState.extends_exit h

theorem chains_extends : Run.Chains RunState.Extends :=
  (laws_extends .block).chains 0

end ChainQuery
