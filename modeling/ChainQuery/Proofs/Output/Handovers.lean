import ChainQuery.Proofs.Output.OutputAccounts
import ChainQuery.Proofs.Output.Stages

/-!
# What is handed over to be written

At the end of a block and of the run each writer hands over what is due and holds it no longer,
whether or not it can then be written. What was handed over along a journal, with what the writers
still hold of it, is what the journal keeps, and nothing is handed over twice.
-/

namespace ChainQuery

/-- A stage after an entry, and the items that are due at it. -/
def Staging.handOver (s : Staging α) : JournalEntry → Staging α × List α
  | .left .block none => s.endBlock
  | .left .block (some _) => (s.discard, [])
  | .closed none => s.endProgram
  | .closed (some _) => s.discard.endProgram
  | _ => (s, [])

/-- The process logs after an entry, and the documents that are due at it. -/
def EventLogs.handOver (l : EventLogs) : JournalEntry → EventLogs × Keyed Document
  | .left .block none => (l.endBlock, [])
  | .left .block (some _) => (l.discard, [])
  | .closed none => ({}, l.endBlock.documents)
  | .closed (some _) => ({}, l.discard.endBlock.documents)
  | _ => (l, [])

/-- What the four writers are given to write at one time. -/
structure Handover where
  rows : List TableRow
  lines : List String
  documents : Keyed Document
  requests : List Delivery

namespace Staging

variable {s : Staging α} {e : JournalEntry}

/-- At an entry that keeps what is staged it becomes due or committed; otherwise nothing does. -/
theorem handOver_due (s : Staging α) (e : JournalEntry) :
    (s.handOver e).2 ++ (s.handOver e).1.committed =
      s.committed ++ if e.decision? = some none then s.staged else [] := by
  have hquiet : [] ++ s.committed = s.committed ++ [] := (List.append_nil _).symm
  cases e with
  | left c failure =>
    cases c with
    | block =>
      cases failure with
      | none =>
        show s.endBlock.2 ++ s.endBlock.1.committed = s.committed ++ s.staged
        unfold endBlock
        cases s.mode with
        | block => exact List.append_nil _
        | program => rfl
      | some f => exact hquiet
    | _ => exact hquiet
  | closed failure =>
    cases failure with
    | none => exact List.append_nil _
    | some f => exact List.append_nil _
  | _ => exact hquiet

theorem ledger_handOver {f : OutputItem → Option α} {due : List α} {kept waiting : List OutputItem}
    (hheld : due ++ s.committed = kept.filterMap f) (hstaged : s.staged = waiting.filterMap f) :
    due ++ (s.handOver e).2 ++ (s.handOver e).1.committed =
      (if e.decision? = some none then kept ++ waiting else kept).filterMap f := by
  rw [List.append_assoc, handOver_due, ← List.append_assoc, hheld, hstaged]
  split
  · rw [List.filterMap_append]
  · exact List.append_nil _

theorem committed_closed (s : Staging α) (failure : Option ExecutionError) :
    (s.handOver (.closed failure)).1.committed = [] := by
  cases failure <;> rfl

end Staging

namespace Outputs

/-- The outputs once the writers have handed over what is due at an entry, and what that is. -/
def handOver (o : Outputs) (e : JournalEntry) : Outputs × Handover :=
  let (rows, dueRows) := o.tables.rows.handOver e
  let (lines, dueLines) := o.lines.lines.handOver e
  let (events, dueDocuments) := o.events.handOver e
  let (requests, dueRequests) := o.deliveries.requests.handOver e
  ({ o with
      tables := { o.tables with rows := rows }
      lines := { o.lines with lines := lines }
      events := events
      deliveries := { o.deliveries with requests := requests } },
    ⟨dueRows, dueLines, dueDocuments, dueRequests⟩)

/-- Writes and posts what was handed over. The first failure is returned. -/
def flush (o : Outputs) (h : Handover) : Outputs × Option WriterError :=
  let (tables, disk, tableFailure) := o.tables.writeTables o.folder o.disk (TableRow.byTable h.rows)
  let (lines, disk, lineFailure) := o.lines.writeLines o.folder disk h.lines
  let (disk, eventFailure) := EventLogs.writeDocuments o.folder disk h.documents
  let (deliveries, wire) := o.deliveries.deliver o.wire h.requests
  ({ o with tables := tables, lines := lines, deliveries := deliveries, disk := disk, wire := wire },
    tableFailure <|> lineFailure <|> eventFailure)

/-- An entry that neither stages an item nor changes the folder writes what is due at it. -/
theorem follow_eq_flush (o : Outputs) {e : JournalEntry} (hstaged : ∀ item, e ≠ .staged item)
    (hmoved : ∀ path, e ≠ .moved path) : o.follow e = (o.handOver e).1.flush (o.handOver e).2 := by
  have hpassed : ∀ failure : Option WriterError, failure = (failure <|> none) := by
    intro failure
    cases failure <;> rfl
  cases e with
  | entered x => rfl
  | staged item => exact absurd rfl (hstaged item)
  | moved path => exact absurd rfl (hmoved path)
  | closed failure =>
    cases failure with
    | none => rfl
    | some f => rfl
  | left c failure =>
    cases c with
    | block =>
      cases failure with
      | none => exact Prod.ext rfl (congrArg (_ <|> ·) (hpassed _))
      | some f => rfl
    | _ => rfl

def held (o : Outputs) : Handover :=
  ⟨o.tables.rows.committed, o.lines.lines.committed, o.events.documents,
    o.deliveries.requests.committed⟩

theorem held_flush (o : Outputs) (h : Handover) : (o.flush h).1.held = o.held := by
  have hrows : (o.flush h).1.tables.rows = o.tables.rows := rows_writeTables _ _ _ _
  have hlines : (o.flush h).1.lines.lines = o.lines.lines := lines_writeLines _ _ _ _
  have hrequests : (o.flush h).1.deliveries.requests = o.deliveries.requests :=
    (Deliveries.deliver_sent _ _ _).1
  rw [held, hrows, hlines, hrequests]
  rfl

/-- What is held after an entry is what was not handed over at it. -/
theorem held_follow (o : Outputs) (e : JournalEntry) :
    (o.follow e).1.held = (o.handOver e).1.held := by
  have hflushed : (∀ item, e ≠ .staged item) → (∀ path, e ≠ .moved path) →
      (o.follow e).1.held = (o.handOver e).1.held := by
    intro hstaged hmoved
    rw [follow_eq_flush o hstaged hmoved, held_flush]
  cases e with
  | entered x => exact hflushed nofun nofun
  | left c failure => exact hflushed nofun nofun
  | closed failure => exact hflushed nofun nofun
  | moved path =>
    show (o.moveTo path).held = _
    unfold moveTo
    split
    · rfl
    · rfl
  | staged item =>
    rw [follow]
    cases hstage : o.stage item with
    | error e => rfl
    | ok o' =>
      cases item with
      | row table cells =>
        obtain ⟨t, hadd, rfl⟩ := except_map_eq_ok.mp hstage
        show Handover.mk t.rows.committed _ _ _ = _
        rw [(Tables.addRow_eq_ok hadd).1]
        rfl
      | _ =>
        cases hstage
        rfl

def handovers (o : Outputs) : Journal → List Handover
  | [] => []
  | e :: j => (o.handOver e).2 :: (o.follow e).1.handovers j

theorem handovers_concat (o : Outputs) (j : Journal) (e : JournalEntry) :
    o.handovers (j ++ [e]) = o.handovers j ++ [((o.replay j).handOver e).2] := by
  induction j generalizing o with
  | nil => rfl
  | cons x j ih => rw [List.cons_append, handovers, handovers, ih, replay_cons, List.cons_append]

/-- What was handed over, with what the writers still hold, is what was kept. No document is handed
over before the end. -/
structure Ledger (o : Outputs) (handed : List Handover) (kept waiting : List OutputItem) : Prop where
  stages : o.Stages waiting
  rows : handed.flatMap Handover.rows ++ o.held.rows = kept.filterMap OutputItem.row?
  lines : handed.flatMap Handover.lines ++ o.held.lines = kept.filterMap OutputItem.line?
  requests : handed.flatMap Handover.requests ++ o.held.requests =
    kept.filterMap OutputItem.request?
  documents : o.held.documents = EventLogs.ofItems kept
  undocumented : handed.flatMap Handover.documents = []

/-- Items were handed over, each of them once and in their order, and nothing else was. The records
of a process are handed over in one document. -/
structure HandsOver (handed : List Handover) (items : List OutputItem) : Prop where
  rows : handed.flatMap Handover.rows = items.filterMap OutputItem.row?
  lines : handed.flatMap Handover.lines = items.filterMap OutputItem.line?
  requests : handed.flatMap Handover.requests = items.filterMap OutputItem.request?
  documents : handed.flatMap Handover.documents = EventLogs.ofItems items

structure Empty (o : Outputs) : Prop where
  stages : o.Stages []
  held : o.held = ⟨[], [], [], []⟩

theorem ledger_start (config : RunConfig) (disk : Disk) (wire : Wire) :
    (start config disk wire).Ledger [] [] [] :=
  ⟨⟨rfl, rfl, rfl, rfl⟩, rfl, rfl, rfl, rfl, rfl⟩

variable {o : Outputs} {handed : List Handover} {kept waiting : List OutputItem}

theorem Ledger.follow (h : o.Ledger handed kept waiting) {e : JournalEntry}
    (hclosed : ∀ failure, e ≠ .closed failure)
    (haccepts : (∃ item, e = .staged item) → (o.follow e).2 = none) :
    (o.follow e).1.Ledger (handed ++ [(o.handOver e).2])
      (if e.decision? = some none then kept ++ waiting else kept)
      (if e.decision? = none then waiting ++ e.item?.toList else []) := by
  refine ⟨h.stages.follow haccepts, ?_, ?_, ?_, ?_, ?_⟩
  · rw [List.flatMap_append, List.flatMap_singleton, held_follow]
    exact Staging.ledger_handOver h.rows h.stages.rows
  · rw [List.flatMap_append, List.flatMap_singleton, held_follow]
    exact Staging.ledger_handOver h.lines h.stages.lines
  · rw [List.flatMap_append, List.flatMap_singleton, held_follow]
    exact Staging.ledger_handOver h.requests h.stages.requests
  · have hholds : o.events.Holds kept waiting := ⟨h.stages.records, h.documents⟩
    rw [held_follow]
    cases e with
    | closed failure => exact absurd rfl (hclosed failure)
    | left c failure =>
      cases c with
      | block =>
        cases failure with
        | none => exact hholds.endBlock.documents
        | some f => exact h.documents
      | _ => exact h.documents
    | _ => exact h.documents
  · rw [List.flatMap_append, List.flatMap_singleton, h.undocumented]
    cases e with
    | closed failure => exact absurd rfl (hclosed failure)
    | left c failure =>
      cases c with
      | block => cases failure <;> rfl
      | _ => rfl
    | _ => rfl

/-- The account after a journal that has not closed the outputs, whether or not writes succeed. -/
theorem ledger_replay (j : Journal) (hclosed : ∀ e ∈ j, ∀ failure, e ≠ .closed failure)
    (haccepts : o.Accepts j) (hstart : o.Ledger [] [] []) :
    (o.replay j).Ledger (o.handovers j) j.kept j.waiting := by
  revert hclosed
  refine (replay_induction (motive := fun k o' => o' = o.replay k ∧
    ((∀ e ∈ k, ∀ failure, e ≠ .closed failure) →
      o'.Ledger (o.handovers k) (Journal.kept k) (Journal.waiting k)))
    ⟨rfl, fun _ => hstart⟩ ?_ haccepts).2
  rintro k e o' ⟨rfl, h⟩ haccept
  refine ⟨(replay_concat _ k e).symm, fun hclosed => ?_⟩
  rw [Journal.kept_concat, Journal.waiting_concat, handovers_concat]
  have hk := h fun x hx => hclosed x (List.mem_append_left _ hx)
  exact hk.follow (hclosed e List.mem_concat_self) haccept

/-- When the outputs are closed, all that was kept is handed over. -/
theorem Ledger.close (h : o.Ledger handed kept waiting) (failure : Option ExecutionError) :
    HandsOver (handed ++ [(o.handOver (.closed failure)).2])
      (if failure = none then kept ++ waiting else kept) := by
  have hstage : ∀ {α : Type} {f : OutputItem → Option α} {s : Staging α} {due : List α},
      due ++ s.committed = kept.filterMap f → s.staged = waiting.filterMap f →
        due ++ (s.handOver (.closed failure)).2 =
          (if failure = none then kept ++ waiting else kept).filterMap f := by
    intro α f s due hheld hstaged
    have hledger := s.ledger_handOver (e := .closed failure) hheld hstaged
    rw [s.committed_closed, List.append_nil] at hledger
    cases failure <;> exact hledger
  refine ⟨?_, ?_, ?_, ?_⟩
  · rw [List.flatMap_append, List.flatMap_singleton]
    exact hstage h.rows h.stages.rows
  · rw [List.flatMap_append, List.flatMap_singleton]
    exact hstage h.lines h.stages.lines
  · rw [List.flatMap_append, List.flatMap_singleton]
    exact hstage h.requests h.stages.requests
  · have hholds : o.events.Holds kept waiting := ⟨h.stages.records, h.documents⟩
    rw [List.flatMap_append, List.flatMap_singleton, h.undocumented, List.nil_append]
    cases failure with
    | none => exact hholds.endBlock.documents
    | some f =>
      have hdiscarded := hholds.discard.endBlock.documents
      rw [List.append_nil] at hdiscarded
      exact hdiscarded

/-- Closed outputs are empty, whether or not the last writes succeed. -/
theorem empty_closed (o : Outputs) (failure : Option ExecutionError) :
    (o.follow (.closed failure)).1.Empty := by
  constructor
  · cases failure with
    | none => exact (stages_ended o).2
    | some f => exact (stages_ended o.discard).2
  · rw [held_follow]
    cases failure <;> rfl

end Outputs
end ChainQuery
