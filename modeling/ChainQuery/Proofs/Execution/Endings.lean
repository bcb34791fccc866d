import ChainQuery.Proofs.Execution.Arrivals
import ChainQuery.Proofs.Execution.Atomicity
import ChainQuery.Proofs.Output.Handovers

/-!
# What is left of a run

However a run ends and whatever could not be written, no element is current after it and its writers
hold nothing.
-/

namespace ChainQuery

section Runs
variable {looks : Nat} {p : Program} {s t : RunState} {result : Except ExecutionError Unit}
variable (hrun : p.run? looks s = some (result, t))
include hrun

theorem Program.current_of_run (hcursors : ∀ c, s.current c = none) (c : Cursor) :
    t.current c = none := by
  obtain ⟨u, failure, ⟨j, -, hleads⟩, hquiet⟩ :=
    p.state_of_run (laws_traced .block) looks (Nat.le_refl _) hrun
  have hbody : u.current c = none := by
    rw [hleads.current, hcursors]
    exact ite_self none
  have hclosed : (u.perform (.closed failure)).current c = u.current c := by
    cases c <;> rfl
  rw [(RunState.leads_nil hquiet).current, hclosed, hbody]
  exact ite_self none

/-- What the journal of a run keeps was handed over. -/
theorem Program.handsOver_of_run (hfresh : s.Fresh) :
    Outputs.HandsOver (s.outputs.handovers t.journal) t.journal.kept := by
  obtain ⟨j, failure, hnested, haccepts, hjournal, -⟩ :=
    Program.journal_of_run hfresh hrun (c := .block) (Nat.le_refl _)
  obtain ⟨config, disk, wire, hstart⟩ := hfresh.outputs
  have hledger : (s.outputs.replay j).Ledger (s.outputs.handovers j) j.kept j.waiting := by
    refine Outputs.ledger_replay j hnested.ne_closed haccepts ?_
    rw [hstart]
    exact Outputs.ledger_start config disk wire
  rw [hjournal, Outputs.handovers_concat, Journal.kept_concat]
  have hhanded := hledger.close failure
  cases failure <;> exact hhanded

/-- However a run ends, no element is current after it and no writer holds anything. What its journal
has kept was handed over, each item once and in order, also what could not be written; and what is
handed over at the end of a block or of the run is flushed there. -/
theorem nothing_left_of_run (hfresh : s.Fresh) (hcursors : ∀ c, s.current c = none) :
    (∀ c, t.current c = none) ∧ t.outputs.Empty ∧
      t.outputs = s.outputs.replay t.journal ∧
      Outputs.HandsOver (s.outputs.handovers t.journal) t.journal.kept ∧
      ∀ (j : Journal) (e : JournalEntry) (k : Journal), t.journal = j ++ e :: k →
        e.decision?.isSome →
          s.outputs.replay (j ++ [e]) =
            (((s.outputs.replay j).handOver e).1.flush ((s.outputs.replay j).handOver e).2).1 := by
  refine ⟨Program.current_of_run hrun hcursors, ?_, (Program.outputs_of_run hfresh hrun).2,
    Program.handsOver_of_run hrun hfresh, ?_⟩
  · obtain ⟨j, failure, -, -, -, houtputs⟩ :=
      Program.journal_of_run hfresh hrun (c := .block) (Nat.le_refl _)
    rw [houtputs]
    exact Outputs.empty_closed _ failure
  · intro before e after _ hdecision
    rw [Outputs.replay_concat, Outputs.follow_eq_flush]
    · rintro item rfl
      cases hdecision
    · rintro path rfl
      cases hdecision

end Runs

def unwritten : Program :=
  ⟨[singleScan [fixedLine "lost"]]⟩

def unwrittenStart : RunState :=
  { RunState.start {} {} {} with chain := some .single }

/-- The line is handed over, though it cannot be written. -/
theorem unwritten_handed : ∃ t, unwritten.run? 0 unwrittenStart = some (.ok (), t) ∧
    t.errors.reported = 1 ∧ t.outputs.Empty ∧
    (unwrittenStart.outputs.handovers t.journal).flatMap Handover.lines = ["lost"] := by
  obtain ⟨t, hrun, hreported, hkept⟩ : ∃ t, unwritten.run? 0 unwrittenStart = some (.ok (), t) ∧
      t.errors.reported = 1 ∧ t.journal.kept = [.line "lost"] := ⟨_, rfl, rfl, rfl⟩
  have hcursors : ∀ c, unwrittenStart.current c = none := by
    intro c
    cases c <;> rfl
  obtain ⟨-, hempty, -, hhanded, -⟩ := nothing_left_of_run hrun ⟨⟨_, _, _, rfl⟩, rfl⟩ hcursors
  refine ⟨t, hrun, hreported, hempty, ?_⟩
  rw [hhanded.lines, hkept]
  rfl

end ChainQuery
