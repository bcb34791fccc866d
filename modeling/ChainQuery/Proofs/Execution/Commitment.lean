import ChainQuery.Proofs.Execution.Arrivals
import ChainQuery.Proofs.Execution.Atomicity
import ChainQuery.Proofs.Execution.Ownership

/-!
# What the end of a block commits

All bodies stage into the same place. The end of a block therefore decides also about items that the
program or the body of a block around it has staged, unless another block has ended since.
-/

namespace ChainQuery

namespace Journal

/-- The items that an entry drops, with the number of blocks that were open when they were staged. -/
def dropped (j : Journal) (e : JournalEntry) : List (Nat × OutputItem) :=
  match e.decision? with
  | some (some _) => owned 0 j
  | _ => []

def committed (j : Journal) (e : JournalEntry) : List (Nat × OutputItem) :=
  match e.decision? with
  | some none => owned 0 j
  | _ => []

/-- The end of a visit leaves the items alone that were staged before the visit: it drops none of
them, and makes none permanent that the body of a block around it has staged. -/
def Spares (pre : Journal) (b : Block) (body : Journal) (failure : Option ExecutionError) : Prop :=
  (∀ w ∈ dropped (pre ++ .entered (.block b) :: body) (.left .block failure), level 0 pre < w.1) ∧
    ∀ w ∈ committed (pre ++ .entered (.block b) :: body) (.left .block failure),
      level 0 pre < w.1 ∨ w.1 = 0

/-- The items that wait at the end of a visit: those from before the visit unless another block has
ended since, and those of the body. -/
theorem mem_owned_visit {pre body : Journal} {b : Block} {w : Nat × OutputItem} :
    w ∈ owned 0 (pre ++ .entered (.block b) :: body) ↔
      (decision? body = none ∧ w ∈ owned 0 pre) ∨ w ∈ owned (level 0 pre + 1) body := by
  have hinside : decision? (.entered (.block b) :: body) = decision? body := rfl
  have howned : owned (level 0 pre) (.entered (.block b) :: body) = owned (level 0 pre + 1) body := by
    rw [owned]
    split <;> rfl
  rw [owned_append, hinside, howned, List.mem_append]
  split
  · next h => simp [h]
  · next h => simp [h]

theorem spares_iff {m : Nat} {pre body : Journal} {b : Block} {failure : Option ExecutionError}
    (hbody : Nested .block m body) :
    Spares pre b body failure ↔
      decision? body ≠ none ∨ owned 0 pre = [] ∨ failure = none ∧ ∀ w ∈ owned 0 pre, w.1 = 0 := by
  have hinner : ∀ w ∈ owned (level 0 pre + 1) body, level 0 pre < w.1 :=
    (hbody.level_owned (level 0 pre + 1)).2
  have houter : ∀ w ∈ owned 0 pre, ¬ level 0 pre < w.1 := fun w hw =>
    Nat.not_lt_of_le (owned_le_level hw)
  constructor
  · intro hex
    obtain ⟨hdropped, hcommitted⟩ := hex
    by_cases hdecision : decision? body = none
    · refine .inr ?_
      have hwaits : ∀ w ∈ owned 0 pre, w ∈ owned 0 (pre ++ .entered (.block b) :: body) :=
        fun w hw => mem_owned_visit.mpr (.inl ⟨hdecision, hw⟩)
      cases failure with
      | none =>
        refine .inr ⟨rfl, fun w hw => ?_⟩
        exact (hcommitted w (hwaits w hw)).resolve_left (houter w hw)
      | some f =>
        refine .inl (List.eq_nil_iff_forall_not_mem.mpr fun w hw => ?_)
        exact houter w hw (hdropped w (hwaits w hw))
    · exact .inl hdecision
  · intro h
    -- what waits at the end is of the body, or else the program's and about to be kept
    have hcases : ∀ w ∈ owned 0 (pre ++ .entered (.block b) :: body),
        level 0 pre < w.1 ∨ failure = none ∧ w.1 = 0 := by
      intro w hw
      rcases mem_owned_visit.mp hw with ⟨hdecision, hw⟩ | hw
      · rcases h with h | h | ⟨hfailure, h⟩
        · exact absurd hdecision h
        · rw [h] at hw
          cases hw
        · exact .inr ⟨hfailure, h w hw⟩
      · exact .inl (hinner w hw)
    cases failure with
    | none => exact ⟨nofun, fun w hw => (hcases w hw).imp_right And.right⟩
    | some f => exact ⟨fun w hw => (hcases w hw).resolve_right nofun, nofun⟩

end Journal

/-- The end of the visit of a block leaves the items from before the visit alone just if another block
has ended in between, if none of them waits, or if the body has not failed and all of them were staged
while no block was open. -/
theorem block_end_spares_iff {looks : Nat} {p : Program} {s t : RunState}
    {result : Except ExecutionError Unit} (hfresh : s.Fresh)
    (hrun : p.run? looks s = some (result, t)) :
    (∀ (pre : Journal) (b : Block) (rest : Journal), t.journal = pre ++ .entered (.block b) :: rest →
      ∃ (body : Journal) (failure : Option ExecutionError) (post : Journal),
        rest = body ++ .left .block failure :: post ∧ (∃ m, Nested .block m body) ∧
        (Journal.Spares pre b body failure ↔
          body.decision? ≠ none ∨ pre.owned 0 = [] ∨
            failure = none ∧ ∀ w ∈ pre.owned 0, w.1 = 0)) ∧
      (∀ j k : Journal, t.journal = j ++ k → (s.outputs.replay j).Stages j.waiting) ∧
      (s.outputs.Writes t.journal → s.outputs.Received t.journal.kept t.outputs) := by
  refine ⟨fun pre b rest hsplit => ?_, fun j k => Program.stages_of_run hfresh hrun,
    Program.received_of_run hfresh hrun⟩
  obtain ⟨j, closing, hnested, -, hjournal, -⟩ :=
    Program.journal_of_run hfresh hrun (c := .block) (Nat.le_refl _)
  obtain ⟨rest', hj, hrest⟩ := entered_mem_body (hjournal.symm.trans hsplit) nofun
  obtain ⟨m, body, failure, post, -, hbody, hvisit⟩ := hnested.visit_of_entered hj rfl
  refine ⟨body, failure, post ++ [.closed closing], ?_, ⟨m, hbody⟩, Journal.spares_iff hbody⟩
  rw [hrest, hvisit]
  exact List.append_assoc ..

def scanInVisit : Program :=
  ⟨[singleScan [fixedLine "outer", singleScan [], failingAssign]]⟩

theorem scanInVisit_received :
    ∃ t, scanInVisit.run? 0 singleStart = some (.ok (), t) ∧
      singleStart.outputs.Received [.line "outer"] t.outputs := by
  obtain ⟨t, hrun, hjournal⟩ : ∃ t, scanInVisit.run? 0 singleStart = some (.ok (), t) ∧
      t.journal = [.entered (.block { number := 1 }), .staged (.line "outer"),
        .entered (.block { number := 1 }), .left .block none,
        .left .block (some (.unknownVariable "missing")), .closed none] := ⟨_, rfl, rfl⟩
  have hwrites : singleStart.outputs.Writes t.journal := by
    rw [hjournal]
    exact ⟨nofun, nofun, nofun, fun _ => rfl, fun _ => rfl, fun _ => rfl, trivial⟩
  have hreceived := (block_end_spares_iff ⟨⟨_, _, _, rfl⟩, rfl⟩ hrun).2.2 hwrites
  rw [hjournal] at hreceived
  exact ⟨t, hrun, hreceived⟩

def lineBeforeVisit : Program :=
  ⟨[fixedLine "program", singleScan [fixedLine "block", failingAssign]]⟩

/-- The end of an inner block commits a line of the outer one, which fails later, and the end of a
failed block drops a line of the program. -/
theorem outer_lines_not_spared :
    (∃ t, scanInVisit.run? 0 singleStart = some (.ok (), t) ∧
      t.journal = [.entered (.block { number := 1 }), .staged (.line "outer"),
        .entered (.block { number := 1 }), .left .block none,
        .left .block (some (.unknownVariable "missing")), .closed none] ∧
      ¬ Journal.Spares [.entered (.block { number := 1 }), .staged (.line "outer")] { number := 1 } []
        none ∧
      t.outputs.disk.text? ["log.txt"] = some "outer\n") ∧
    ∃ t, lineBeforeVisit.run? 0 singleStart = some (.ok (), t) ∧
      t.journal = [.staged (.line "program"), .entered (.block { number := 1 }),
        .staged (.line "block"), .left .block (some (.unknownVariable "missing")), .closed none] ∧
      ¬ Journal.Spares [.staged (.line "program")] { number := 1 } [.staged (.line "block")]
        (some (.unknownVariable "missing")) ∧
      t.outputs.disk.text? ["log.txt"] = none := by
  constructor
  · refine ⟨_, rfl, rfl, fun hspares => ?_, rfl⟩
    have hline := hspares.2 (1, .line "outer") (by decide)
    exact absurd hline (by decide)
  · refine ⟨_, rfl, rfl, fun hspares => ?_, rfl⟩
    have hline := hspares.1 (0, .line "program") (by decide)
    exact absurd hline (by decide)

end ChainQuery
