import ChainQuery.Proofs.Execution.Cuts
import ChainQuery.Proofs.Execution.Endings
import ChainQuery.Proofs.Execution.Modes
import ChainQuery.Proofs.Output.Prefixes

/-!
# What a run leaves that aborts

What a run that aborts on every failure keeps is the first part of what the same run keeps that goes
on after failures. So are the texts of its files and the requests that it hands over.
-/

namespace ChainQuery

namespace Journal

variable {whole cut : Journal}

theorem Cuts.kept_prefix (h : whole.Cuts cut) : cut.kept <+: whole.kept := by
  obtain ⟨before, after, ⟨rest, rfl⟩, rfl, hafter⟩ := h
  have hdecision : decision? after ≠ some none := by
    intro hkeeps
    obtain ⟨e, he, hdecides⟩ := List.exists_of_findSome?_eq_some hkeeps
    obtain ⟨c, f, rfl⟩ := hafter e he
    cases c <;> cases hdecides
  have hnothing : kept after = [] := by
    refine List.eq_nil_iff_forall_not_mem.mpr fun item hitem => ?_
    obtain ⟨c, f, heq⟩ := hafter _ (mem_of_mem_kept hitem)
    cases heq
  rw [kept_append before after, if_neg hdecision, hnothing, List.append_nil, List.append_nil,
    kept_append, List.append_assoc]
  exact List.prefix_append _ _

end Journal

namespace Outputs

theorem place_of_cuts {o : Outputs} {whole cut : Journal} {place : Option Location}
    (hsteady : ∀ k l, whole = k ++ l → (∃ item, .staged item ∈ k) → (o.replay k).place = place)
    (hcuts : whole.Cuts cut) (failure : Option ExecutionError) {k l : Journal}
    (hsplit : cut ++ [.closed failure] = k ++ l) (hstaged : ∃ item, .staged item ∈ k) :
    (o.replay k).place = place := by
  obtain ⟨before, after, ⟨rest, hwhole⟩, rfl, hafter⟩ := hcuts
  have hend : ∀ e ∈ after ++ [.closed failure],
      (∀ path, e ≠ .moved path) ∧ ∀ item, e ≠ .staged item := by
    intro e he
    rcases List.mem_append.mp he with he | he
    · obtain ⟨c, f, rfl⟩ := hafter e he
      exact ⟨nofun, nofun⟩
    · rw [List.mem_singleton.mp he]
      exact ⟨nofun, nofun⟩
  rw [List.append_assoc] at hsplit
  rcases List.append_eq_append_iff.mp hsplit with ⟨m, rfl, hm⟩ | ⟨m, rfl, -⟩
  · have hm' : ∀ e ∈ m, (∀ path, e ≠ .moved path) ∧ ∀ item, e ≠ .staged item := by
      intro e he
      exact hend e (hm ▸ List.mem_append_left l he)
    obtain ⟨item, hitem⟩ := hstaged
    have hbefore : .staged item ∈ before := (List.mem_append.mp hitem).resolve_right fun he =>
      (hm' _ he).2 item rfl
    rw [replay_append, place_replay fun path hpath => (hm' _ hpath).1 path rfl]
    exact hsteady before rest hwhole.symm ⟨item, hbefore⟩
  · exact hsteady k (m ++ rest) (by rw [← hwhole, List.append_assoc]) hstaged

end Outputs

namespace Program

section Runs
variable {looks : Nat} {p : Program} {s t : RunState} {result : Except ExecutionError Unit}

/-- A run that aborts keeps the first part of what is kept otherwise, with the output folder in the
same place. -/
theorem abortive_of_run (hrun : p.run? looks s = some (result, t)) :
    ∃ result' t', p.run? looks s.abortive = some (result', t') ∧
      t'.journal.kept <+: t.journal.kept ∧
      ∀ place, (∀ k l, t.journal = k ++ l → (∃ item, .staged item ∈ k) →
          (s.outputs.replay k).place = place) →
        ∀ k l, t'.journal = k ++ l → (∃ item, .staged item ∈ k) →
          (s.outputs.replay k).place = place := by
  rcases run_abortive hrun with hsame | ⟨e, u, j, hbroken, hcuts, hjournal⟩
  · exact ⟨result, t.abortive, hsame, List.prefix_rfl, fun _ hsteady => hsteady⟩
  · refine ⟨.error e, u, hbroken, ?_, fun place hsteady k l hsplit => ?_⟩
    · rw [hjournal, Journal.kept_concat, if_neg nofun]
      exact hcuts.kept_prefix
    · exact Outputs.place_of_cuts hsteady hcuts _ (hjournal.symm.trans hsplit)

end Runs
end Program

/-- Where no write fails and the output folder stays in its place, what a run keeps has arrived
there. -/
theorem Program.settles_of_run {looks : Nat} {p : Program} {s t : RunState}
    {result : Except ExecutionError Unit} (hfresh : s.Fresh)
    (hrun : p.Completes looks s result t) {place : Option Location}
    (hsteady : ∀ k l, t.journal = k ++ l → (∃ item, .staged item ∈ k) →
      (s.outputs.replay k).place = place) :
    s.outputs.Settles t.journal.kept t.outputs (s.outputs.flushed t.journal) ∧
      s.outputs.disk.Wrote (s.outputs.flushed t.journal) t.outputs.disk ∧
      ∀ w ∈ s.outputs.flushed t.journal,
        Outputs.Named w ∧ place = some (s.outputs.disk.resolve w.folder) := by
  obtain ⟨haccepts, hreplay⟩ := Program.outputs_of_run hfresh hrun.run
  obtain ⟨j, failure, hnested, -, hjournal, -⟩ :=
    Program.journal_of_run hfresh hrun.run (c := .block) (Nat.le_refl _)
  obtain ⟨config, disk, wire, hstart⟩ := hfresh.outputs
  -- in its own mode
  have hmode : s.outputs = .startIn config.mode config disk wire := hstart
  have hwrites := hrun.writes
  rw [hreplay, hjournal, hmode]
  rw [hjournal, hmode] at haccepts hwrites hsteady
  refine ⟨Outputs.settles_replay hnested.ne_closed haccepts hwrites, Outputs.wrote_replay _ _, ?_⟩
  exact fun w hw => ⟨Outputs.named_of_mem_flushed hw,
    Outputs.placed_flushed hnested.ne_closed haccepts hwrites hsteady hw⟩

theorem RunState.Fresh.abortive {s : RunState} (hfresh : s.Fresh) : s.abortive.Fresh :=
  ⟨hfresh.outputs, hfresh.journal⟩

/-- A run that aborts on every failure comes to an end when the same run does that goes on after
failures, and the requests that it hands over are the first ones that the other run hands over. When
no write of a file fails in either of them, and the output folder stays in its place from the first
emission on, then in a folder without files at the start the log and the file of each table are the
first part of what the other run leaves there, or missing. -/
theorem aborting_cuts_output {looks : Nat} {p : Program} {s t : RunState}
    {result : Except ExecutionError Unit} (hfresh : s.Fresh)
    (hrun : p.Completes looks s result t) (hsteady : s.outputs.Steady t.journal) :
    ∃ result' t', p.run? looks s.abortive = some (result', t') ∧
      (s.outputs.handovers t'.journal).flatMap Handover.requests <+:
        (s.outputs.handovers t.journal).flatMap Handover.requests ∧
      (s.outputs.Writes t'.journal →
        ∀ dir : Location, (∀ name, s.outputs.disk.text? (dir ++ [name]) = none) →
          (∀ table, Begins (t'.outputs.disk.text? (dir ++ [table ++ ".csv"]))
            (t.outputs.disk.text? (dir ++ [table ++ ".csv"]))) ∧
          Begins (t'.outputs.disk.text? (dir ++ ["log.txt"]))
            (t.outputs.disk.text? (dir ++ ["log.txt"]))) := by
  obtain ⟨place, hsteady⟩ := hsteady
  obtain ⟨result', t', hrun', hpart, hsteady'⟩ := Program.abortive_of_run hrun.run
  refine ⟨result', t', hrun', ?_, fun hwrites' dir hempty => ?_⟩
  · have hhanded := (Program.handsOver_of_run hrun.run hfresh).requests
    have hhanded' : (s.outputs.handovers t'.journal).flatMap Handover.requests =
        t'.journal.kept.filterMap OutputItem.request? :=
      (Program.handsOver_of_run hrun' hfresh.abortive).requests
    rw [hhanded, hhanded']
    exact hpart.filterMap _
  · obtain ⟨hsettles, hwrote, hplaced⟩ := Program.settles_of_run hfresh hrun hsteady
    obtain ⟨hsettles', hwrote', hplaced'⟩ :=
      Program.settles_of_run hfresh.abortive ⟨hrun', hwrites'⟩ (hsteady' place hsteady)
    exact hsettles'.begins hsettles hpart hwrote' hwrote hplaced' hplaced hempty

theorem rowsAndLine_aborts :
    ((rowsAndLine.run? 0 (singleStartIn .program).abortive).map fun ended =>
      (ended.2.journal, ended.2.outputs.disk.text? ["a", "t.csv"])) =
        some (.moved "a" :: rowsAndLineJournal.take 6 ++
          [.closed (some (.unknownVariable "missing"))], some "x\r\none\r\n") := by
  decide +kernel

/-- The run that aborts leaves the row of the first block. -/
theorem rowsAndLine_cut :
    ∃ t result' t', rowsAndLine.Completes 0 (singleStartIn .program) (.ok ()) t ∧
      rowsAndLine.run? 0 (singleStartIn .program).abortive = some (result', t') ∧
      t'.outputs.disk.text? ["a", "t.csv"] = some "x\r\none\r\n" ∧
      ∃ rest, t.outputs.disk.text? ["a", "t.csv"] = some ("x\r\none\r\n" ++ rest) := by
  obtain ⟨⟨result, t⟩, hrun, heq⟩ := Option.map_eq_some_iff.mp rowsAndLine_ends
  obtain ⟨hresult, hended⟩ := Prod.mk.inj heq
  obtain ⟨hjournal, -⟩ := Prod.mk.inj hended
  have hwrites : (singleStartIn .program).outputs.Writes t.journal := by
    rw [hjournal]
    decide +kernel
  have hsteady : (singleStartIn .program).outputs.Steady t.journal := by
    rw [hjournal]
    refine Outputs.steady_of_unmoved (j := [.moved "a"]) (fun item => ?_) fun path => ?_
    · simp
    · simp
  cases result with
  | error e => cases hresult
  | ok u =>
    obtain ⟨result', t', hrun', -, hbegins⟩ :=
      aborting_cuts_output ⟨⟨_, _, _, rfl⟩, rfl⟩ ⟨hrun, hwrites⟩ hsteady
    have hends := rowsAndLine_aborts
    rw [hrun'] at hends
    obtain ⟨hjournal', htext⟩ := Prod.mk.inj (Option.some.inj hends)
    have hwrites' : (singleStartIn .program).outputs.Writes t'.journal := by
      rw [show t'.journal = _ from hjournal']
      decide +kernel
    obtain ⟨htables, -⟩ := hbegins hwrites' ["a"] fun name => rfl
    exact ⟨t, result', t', ⟨hrun, hwrites⟩, hrun', htext, htables "t" _ htext⟩

end ChainQuery
