import ChainQuery.Proofs.Execution.Arrivals
import ChainQuery.Proofs.Execution.Atomicity
import ChainQuery.Proofs.Execution.Reruns
import ChainQuery.Proofs.Execution.Tandems
import ChainQuery.Proofs.Output.Deferral

/-!
# The modes of emission

A run writes its files at the end of each block or at the end of the program. Where no write fails and
the output folder stays in its place from the first emission on, one cannot tell afterwards which of
both it was.
-/

namespace ChainQuery

namespace Outputs

/-- Outputs that replay the same journal lead a run the same way until the second ones fail to write it,
if both know the same columns of tables at the start and make the same folders. -/
theorem tandem_replay {o₁ o₂ : Outputs} {journal : Journal}
    (hheaders : o₂.tables.headers = o₁.tables.headers) (hwrites : o₁.Writes journal)
    (hmoved : ∀ k path, k ++ [.moved path] <+: journal → o₂.Writes k →
      ((o₂.replay k).disk.makeFolders path).2 = ((o₁.replay k).disk.makeFolders path).2) :
    Tandem (fun k o o' => o = o₁.replay k ∧ o' = o₂.replay k ∧ o₂.Writes k)
      (fun s => s.journal <+: journal) fun k => k <+: journal ∧ ¬ o₂.Writes k where
  same := by
    intro s t _ hjournal hleads
    rwa [hjournal] at hleads
  before h := (List.prefix_append _ _).trans h
  follow := by
    rintro s e o hleads ⟨houtputs, rfl, hwrites₂⟩
    rw [houtputs]
    have hnext : o₂.Writes (s.journal ++ [e]) ↔
        (e.decision?.isSome = true → ((o₂.replay s.journal).follow e).2 = none) := by
      rw [Writes, succeeds_append]
      exact ⟨fun h => h.2.1, fun h => ⟨hwrites₂, h, trivial⟩⟩
    rw [replay_concat o₁, replay_concat o₂, hnext]
    rcases hdecision : e.decision? with _ | decision
    · exact .inl ⟨failure_of_headers (headers_replay hheaders _) hdecision, rfl, rfl, nofun⟩
    · have hfirst : ((o₁.replay s.journal).follow e).2 = none :=
        (succeeds_append.mp (writes_of_extends hwrites hleads)).2.1 (congrArg Option.isSome hdecision)
      by_cases hsecond : ((o₂.replay s.journal).follow e).2 = none
      · exact .inl ⟨hsecond.trans hfirst.symm, rfl, rfl, fun _ => hsecond⟩
      · exact .inr ⟨rfl, hleads, fun h => hsecond (h rfl)⟩
  refuse := by
    rintro s item e o - ⟨houtputs, rfl, -⟩ hrefused
    rw [houtputs] at hrefused
    exact stage_error_of_headers (headers_replay hheaders _) hrefused
  makeFolders := by
    rintro s path o hleads ⟨houtputs, rfl, hwrites₂⟩
    rw [houtputs]
    exact hmoved _ _ hleads hwrites₂

end Outputs

namespace Program

/-- The run of a program comes to an end, and no write of a file fails in it. -/
structure Completes (p : Program) (looks : Nat) (s : RunState) (result : Except ExecutionError Unit)
    (t : RunState) : Prop where
  run : p.run? looks s = some (result, t)
  writes : s.outputs.Writes t.journal

section Pairs
variable {looks : Nat} {p : Program} {s t : RunState} {o₁ o₂ : Outputs}
variable {result : Except ExecutionError Unit} (hjournal : s.journal = [])
variable (hfirst : p.Completes looks (s.withOutputs o₁) result t)
variable (hheaders : o₂.tables.headers = o₁.tables.headers)
variable (hmoved : ∀ k path, k ++ [.moved path] <+: t.journal → o₂.Writes k →
  ((o₂.replay k).disk.makeFolders path).2 = ((o₁.replay k).disk.makeFolders path).2)
include hjournal hfirst hheaders hmoved

/-- A second run ends like the first one, unless it fails to write a part of the journal. -/
theorem Completes.same_or_strays :
    (∃ o', p.run? looks (s.withOutputs o₂) = some (result, t.withOutputs o')) ∨
      Run.Strays (fun k => k <+: t.journal ∧ ¬ o₂.Writes k) (p.execute looks) (s.withOutputs o₂) := by
  obtain ⟨-, hsecond⟩ :=
    (p.tandem_execute (Outputs.tandem_replay hheaders hfirst.writes hmoved) looks).follows _ _ _
      hfirst.run List.prefix_rfl
  have hstart : (s.withOutputs o₁).outputs = o₁.replay (s.withOutputs o₁).journal ∧
      o₂ = o₂.replay (s.withOutputs o₁).journal ∧ o₂.Writes (s.withOutputs o₁).journal := by
    rw [show (s.withOutputs o₁).journal = [] from hjournal]
    exact ⟨rfl, rfl, trivial⟩
  exact (hsecond o₂ hstart).imp_left fun ⟨o', _, hrun⟩ => ⟨o', hrun⟩

/-- If the journal of the first run can be written, the second run ends like the first one. -/
theorem Completes.completes_of_writes (hwrites : o₂.Writes t.journal) :
    ∃ o', p.Completes looks (s.withOutputs o₂) result (t.withOutputs o') := by
  rcases hfirst.same_or_strays hjournal hheaders hmoved with ⟨o', hrun⟩ | ⟨k, ⟨hk, hfails⟩, -⟩
  · exact ⟨o', hrun, hwrites⟩
  · exact absurd (Outputs.writes_of_extends hwrites hk) hfails

/-- A second run that comes to an end, and in which no write fails either, ends like the first one. -/
theorem Completes.eq_of_completes {result' : Except ExecutionError Unit} {t' : RunState}
    (hsecond : p.Completes looks (s.withOutputs o₂) result' t') :
    result' = result ∧ t' = t.withOutputs t'.outputs := by
  rcases hfirst.same_or_strays hjournal hheaders hmoved with ⟨o', hrun⟩ | ⟨k, ⟨-, hfails⟩, hstrays⟩
  · cases hsecond.run.symm.trans hrun
    exact ⟨rfl, rfl⟩
  · exact absurd (Outputs.writes_of_extends hsecond.writes (hstrays _ _ hsecond.run)) hfails

end Pairs

section Modes
variable {looks : Nat} {p : Program} {s t : RunState} {config : RunConfig} {disk : Disk} {wire : Wire}
variable {mode : EmissionMode} {result : Except ExecutionError Unit}

theorem Completes.journal_startIn (hjournal : s.journal = [])
    (h : p.Completes looks (s.withOutputs (.startIn mode config disk wire)) result t) :
    t.outputs = (Outputs.startIn mode config disk wire).replay t.journal ∧
      ∃ j failure, (∀ e ∈ j, ∀ failure, e ≠ .closed failure) ∧ t.journal = j ++ [.closed failure] ∧
        (Outputs.startIn mode config disk wire).Accepts (j ++ [.closed failure]) := by
  have hfresh : (s.withOutputs (.startIn mode config disk wire)).Fresh := ⟨⟨_, _, _, rfl⟩, hjournal⟩
  obtain ⟨haccepts, houtputs⟩ := outputs_of_run hfresh h.run
  obtain ⟨j, failure, hnested, -, hsplit, -⟩ :=
    journal_of_run hfresh h.run (c := .block) (Nat.le_refl _)
  rw [hsplit] at haccepts
  exact ⟨houtputs, j, failure, hnested.ne_closed, hsplit, haccepts⟩

section Agreement
variable (hjournal : s.journal = [])
variable (hsteady : (Outputs.startIn .program config disk wire).Steady t.journal)
include hjournal hsteady

theorem Completes.alike {result' : Except ExecutionError Unit} {t' : RunState}
    (hprogram : p.Completes looks (s.withOutputs (.startIn .program config disk wire)) result t)
    (hblock : p.Completes looks (s.withOutputs (.startIn .block config disk wire)) result' t') :
    result' = result ∧ t' = t.withOutputs t'.outputs ∧ t.outputs.Alike t'.outputs := by
  obtain ⟨dir, hsteady⟩ := hsteady
  obtain ⟨houtputs, j, failure, hclosed, hsplit, haccepts⟩ := hprogram.journal_startIn hjournal
  obtain ⟨houtputs', -⟩ := hblock.journal_startIn hjournal
  have hwrites : (Outputs.startIn .program config disk wire).Writes t.journal := hprogram.writes
  rw [hsplit] at hsteady hwrites houtputs
  obtain ⟨hresult, hstate⟩ := hprogram.eq_of_completes hjournal (Outputs.headers_startIn _ .block ..)
    (fun k path hk => Outputs.makeFolders_replay hclosed haccepts hwrites hsteady (hsplit ▸ hk)) hblock
  have hwrites' : (Outputs.startIn .block config disk wire).Writes t'.journal := hblock.writes
  have hsplit' : t'.journal = j ++ [.closed failure] := by
    rw [hstate]
    exact hsplit
  rw [hsplit'] at hwrites' houtputs'
  refine ⟨hresult, hstate, ?_⟩
  rw [houtputs, houtputs']
  exact Outputs.alike_replay hclosed haccepts hwrites hsteady hwrites'

theorem Completes.in_other_mode (mode' : EmissionMode)
    (hrun : p.Completes looks (s.withOutputs (.startIn mode config disk wire)) result t)
    (hwrites' : (Outputs.startIn mode' config disk wire).Writes t.journal) :
    ∃ o', p.Completes looks (s.withOutputs (.startIn mode' config disk wire)) result
      (t.withOutputs o') := by
  obtain ⟨dir, hsteady⟩ := hsteady
  obtain ⟨-, j, failure, hclosed, hsplit, haccepts⟩ := hrun.journal_startIn hjournal
  refine hrun.completes_of_writes hjournal (Outputs.headers_startIn _ mode' ..)
    (fun k path hk hwritten' => ?_) hwrites'
  have hwrites : (Outputs.startIn mode config disk wire).Writes t.journal := hrun.writes
  rw [hsplit] at hsteady hwrites hwrites' hk
  have hwritten := Outputs.writes_of_extends hwrites ((List.prefix_append _ _).trans hk)
  cases mode with
  | program =>
    cases mode' with
    | program => rfl
    | block => exact Outputs.makeFolders_replay hclosed haccepts hwrites hsteady hk hwritten'
  | block =>
    cases mode' with
    | program =>
      exact (Outputs.makeFolders_replay hclosed (Outputs.accepts_startIn haccepts) hwrites' hsteady
        hk hwritten).symm
    | block => rfl

end Agreement
end Modes
end Program

/-- Whether a run writes its files at the end of each block or at the end of the program, it ends in the
same way and leaves outputs that look alike. If it ends in one of the modes, and its journal can be
written in the other one, it ends in the other one too. -/
theorem modes_agree (looks : Nat) (p : Program) (s : RunState) (config : RunConfig) (disk : Disk)
    (wire : Wire) (hjournal : s.journal = []) :
    (∀ result t result' t',
      p.Completes looks (s.withOutputs (.startIn .program config disk wire)) result t →
      p.Completes looks (s.withOutputs (.startIn .block config disk wire)) result' t' →
      (Outputs.startIn .program config disk wire).Steady t.journal →
        result' = result ∧ t' = t.withOutputs t'.outputs ∧ t.outputs.Alike t'.outputs) ∧
    ∀ mode mode' result t,
      p.Completes looks (s.withOutputs (.startIn mode config disk wire)) result t →
      (Outputs.startIn mode' config disk wire).Writes t.journal →
      (Outputs.startIn .program config disk wire).Steady t.journal →
        ∃ o', p.Completes looks (s.withOutputs (.startIn mode' config disk wire)) result
          (t.withOutputs o') := by
  constructor
  · intro result t result' t' hprogram hblock hsteady
    exact hprogram.alike hjournal hsteady hblock
  · intro mode mode' result t hrun hwrites' hsteady
    exact hrun.in_other_mode hjournal hsteady mode' hwrites'

def rowsAndLine : Program :=
  ⟨[.setFolder "a", singleScan [fixedRow "one"], singleScan [fixedRow "two", failingAssign],
    singleScan [fixedRow "three"], fixedLine "end"]⟩

def rowsAndLineJournal : Journal :=
  [.entered (.block { number := 1 }), .staged (.row "t" [("x", "one")]), .left .block none,
    .entered (.block { number := 1 }), .staged (.row "t" [("x", "two")]),
    .left .block (some (.unknownVariable "missing")), .entered (.block { number := 1 }),
    .staged (.row "t" [("x", "three")]), .left .block none, .staged (.line "end"), .closed none]

def singleStartIn (mode : EmissionMode) : RunState :=
  singleStart.withOutputs (.startIn mode { outputFolder := some "/" } {} {})

theorem rowsAndLine_ends : ((rowsAndLine.run? 0 (singleStartIn .program)).map fun ended =>
    (Run.failure? ended.1, ended.2.journal, ended.2.outputs.disk.text? ["a", "t.csv"])) =
      some (none, .moved "a" :: rowsAndLineJournal, some "x\r\none\r\nthree\r\n") := by
  decide +kernel

theorem modes_agree_rowsAndLine :
    ∃ t o', rowsAndLine.Completes 0 (singleStartIn .program) (.ok ()) t ∧
      rowsAndLine.Completes 0 (singleStartIn .block) (.ok ()) (t.withOutputs o') ∧
      t.outputs.Alike o' ∧ o'.disk.text? ["a", "t.csv"] = some "x\r\none\r\nthree\r\n" := by
  obtain ⟨⟨result, t⟩, hrun, heq⟩ := Option.map_eq_some_iff.mp rowsAndLine_ends
  obtain ⟨hresult, hended⟩ := Prod.mk.inj heq
  obtain ⟨hjournal, htext⟩ := Prod.mk.inj hended
  have hwrites : ∀ mode, (singleStartIn mode).outputs.Writes t.journal := by
    intro mode
    rw [hjournal]
    cases mode with
    | block => decide +kernel
    | program => decide +kernel
  have hsteady : (singleStartIn .program).outputs.Steady t.journal := by
    rw [hjournal]
    refine Outputs.steady_of_unmoved (j := [.moved "a"]) (fun item => ?_) fun path => ?_
    · simp
    · simp
  cases result with
  | error e => cases hresult
  | ok u =>
    have hprogram : rowsAndLine.Completes 0 (singleStartIn .program) (.ok u) t :=
      ⟨hrun, hwrites .program⟩
    obtain ⟨hagree, hends⟩ :=
      modes_agree 0 rowsAndLine singleStart { outputFolder := some "/" } {} {} rfl
    obtain ⟨o', hblock⟩ := hends .program .block _ t hprogram (hwrites .block) hsteady
    obtain ⟨-, -, halike⟩ := hagree _ t _ _ hprogram hblock hsteady
    exact ⟨t, o', hprogram, hblock, halike, (halike.texts _).trans htext⟩

end ChainQuery
