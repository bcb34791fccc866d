import ChainQuery.Proofs.Execution.Traces
import ChainQuery.Proofs.Output.OutputAccounts
import ChainQuery.Proofs.Output.Stages

/-!
# What arrives in a run

A run that starts with fresh outputs leaves in the files and on the network just the items that its
journal keeps, as long as no write of a file fails.
-/

namespace ChainQuery

/-- Nothing was staged or written before the run. -/
structure RunState.Fresh (s : RunState) : Prop where
  outputs : ∃ config disk wire, s.outputs = Outputs.start config disk wire
  journal : s.journal = []

theorem Nested.ne_closed {c : Cursor} {n : Nat} {j : Journal} (h : Nested c n j) :
    ∀ e ∈ j, ∀ failure, e ≠ .closed failure := by
  have hvisit : ∀ (x : Element) (body : Journal) (ended : Option ExecutionError),
      (∀ e ∈ body, ∀ failure, e ≠ .closed failure) →
        ∀ e ∈ Journal.visit x body ended, ∀ failure, e ≠ .closed failure := by
    intro x body ended hbody e he
    rcases List.mem_cons.mp he with rfl | he
    · exact nofun
    · rcases List.mem_append.mp he with he | he
      · exact hbody e he
      · rw [List.mem_singleton.mp he]
        exact nofun
  induction h with
  | nil => exact nofun
  | staged item =>
    intro e he
    rw [List.mem_singleton.mp he]
    exact nofun
  | moved path =>
    intro e he
    rw [List.mem_singleton.mp he]
    exact nofun
  | append _ _ ihj ihk =>
    intro e he
    rcases List.mem_append.mp he with he | he
    · exact ihj e he
    · exact ihk e he
  | inner _ _ ih => exact hvisit _ _ _ ih
  | outer _ _ ih => exact hvisit _ _ _ ih

section Runs
variable {looks : Nat} {p : Program} {s t : RunState} {result : Except ExecutionError Unit}
variable (hfresh : s.Fresh) (hrun : p.run? looks s = some (result, t))
include hfresh hrun

/-- The journal of a run: closed visits, nested as the filters of the program are, and then the
closing of the outputs. -/
theorem Program.journal_of_run {c : Cursor} {n : Nat}
    (hp : Instruction.depthAll c p.instructions ≤ n) :
    ∃ j failure, Nested c n j ∧ s.outputs.Accepts j ∧ t.journal = j ++ [.closed failure] ∧
      t.outputs = ((s.outputs.replay j).follow (.closed failure)).1 := by
  obtain ⟨u, failure, ⟨j, hnested, hleads⟩, hquiet⟩ := p.state_of_run (laws_traced c) looks hp hrun
  refine ⟨j, failure, hnested, hleads.accepts, ?_, ?_⟩
  · rw [hquiet.journal]
    show u.journal ++ [.closed failure] = _
    rw [hleads.journal, hfresh.journal]
    rfl
  · rw [hquiet.outputs]
    show (u.outputs.follow (.closed failure)).1 = _
    rw [hleads.outputs]

/-- At any point of a run the stages hold the items that are still to be decided about. -/
theorem Program.stages_of_run {j k : Journal} (hsplit : t.journal = j ++ k) :
    (s.outputs.replay j).Stages j.waiting := by
  obtain ⟨run, failure, -, haccepts, hjournal, -⟩ :=
    Program.journal_of_run hfresh hrun (c := .block) (Nat.le_refl _)
  obtain ⟨config, disk, wire, hstart⟩ := hfresh.outputs
  have hall : s.outputs.Accepts (j ++ k) := by
    rw [← hsplit, hjournal]
    exact Outputs.succeeds_append.mpr ⟨haccepts, Outputs.accepts_singleton nofun⟩
  refine Outputs.stages_replay j (Outputs.succeeds_append.mp hall).1 ?_
  rw [hstart]
  exact ⟨rfl, rfl, rfl, rfl⟩

/-- The outputs after a run are those of its start after a replay of its journal. -/
theorem Program.outputs_of_run :
    s.outputs.Accepts t.journal ∧ t.outputs = s.outputs.replay t.journal := by
  obtain ⟨j, failure, -, haccepts, hjournal, houtputs⟩ :=
    Program.journal_of_run hfresh hrun (c := .block) (Nat.le_refl _)
  rw [hjournal, houtputs, Outputs.replay_append]
  exact ⟨Outputs.succeeds_append.mpr ⟨haccepts, Outputs.accepts_singleton nofun⟩, rfl⟩

theorem Program.received_of_run (hwrites : s.outputs.Writes t.journal) :
    s.outputs.Received t.journal.kept t.outputs := by
  obtain ⟨haccepts, hreplay⟩ := Program.outputs_of_run hfresh hrun
  obtain ⟨j, failure, hnested, -, hjournal, -⟩ :=
    Program.journal_of_run hfresh hrun (c := .block) (Nat.le_refl _)
  obtain ⟨config, disk, wire, hstart⟩ := hfresh.outputs
  rw [hjournal, hstart] at haccepts hwrites
  rw [hreplay, hjournal, hstart]
  exact (Outputs.settles_replay hnested.ne_closed haccepts hwrites).received
    (Outputs.wrote_replay _ _) fun w hw => Outputs.named_of_mem_flushed hw

end Runs
end ChainQuery
