import ChainQuery.Proofs.Output.Replay
import ChainQuery.Proofs.Output.TableAccounts
import ChainQuery.Proofs.Results

/-!
# What is in the stages

Whether or not writes succeed, the stages of the four writers hold the items of a journal that no end
of a block or of the run has decided about yet.
-/

namespace ChainQuery

namespace Outputs

variable {o : Outputs}

/-- The stages of the writers hold items, each writer those of its kind. -/
structure Stages (o : Outputs) (items : List OutputItem) : Prop where
  rows : o.tables.rows.staged = items.filterMap OutputItem.row?
  lines : o.lines.lines.staged = items.filterMap OutputItem.line?
  records : o.events.staged = items.filterMap OutputItem.record?
  requests : o.deliveries.requests.staged = items.filterMap OutputItem.request?

theorem stages_discard (o : Outputs) : o.discard.Stages [] :=
  ⟨rfl, rfl, rfl, rfl⟩

theorem staged_of_stage {o' : Outputs} {item : OutputItem} (h : o.stage item = .ok o') :
    o'.tables.rows.staged = o.tables.rows.staged ++ item.row?.toList ∧
      o'.lines.lines.staged = o.lines.lines.staged ++ item.line?.toList ∧
      o'.events.staged = o.events.staged ++ item.record?.toList ∧
      o'.deliveries.requests.staged = o.deliveries.requests.staged ++ item.request?.toList := by
  have hnil : ∀ {α : Type} (as : List α), as = as ++ [] := fun as => (List.append_nil as).symm
  cases item with
  | row table cells =>
    obtain ⟨t, hadd, rfl⟩ := except_map_eq_ok.mp h
    refine ⟨?_, hnil _, hnil _, hnil _⟩
    rw [(Tables.addRow_eq_ok hadd).1]
    rfl
  | line text =>
    cases h
    exact ⟨hnil _, rfl, hnil _, hnil _⟩
  | record r =>
    cases h
    exact ⟨hnil _, hnil _, rfl, hnil _⟩
  | request d =>
    cases h
    exact ⟨hnil _, hnil _, hnil _, rfl⟩

theorem Stages.stage {o' : Outputs} {items : List OutputItem} (h : o.Stages items)
    {item : OutputItem} (hstage : o.stage item = .ok o') : o'.Stages (items ++ [item]) := by
  have hconcat : ∀ {α : Type} (f : OutputItem → Option α),
      (items ++ [item]).filterMap f = items.filterMap f ++ (f item).toList := by
    intro α f
    rw [List.filterMap_append, List.filterMap_cons, List.filterMap_nil]
    cases f item <;> rfl
  obtain ⟨hrows, hlines, hrecords, hrequests⟩ := staged_of_stage hstage
  refine ⟨?_, ?_, ?_, ?_⟩
  · rw [hrows, h.rows, hconcat]
  · rw [hlines, h.lines, hconcat]
  · rw [hrecords, h.records, hconcat]
  · rw [hrequests, h.requests, hconcat]

theorem staged_endBlock (s : Staging α) : s.endBlock.1.staged = [] := by
  unfold Staging.endBlock
  cases s.mode <;> rfl

theorem rows_writeTables (t : Tables) (folder : Option String) (d : Disk)
    (tables : Keyed (List (List String))) : (t.writeTables folder d tables).1.rows = t.rows := by
  have hone : ∀ (t : Tables) (d : Disk) (table : String) (records : List (List String)),
      (t.writeTable folder d table records).1.rows = t.rows := by
    intro t d table records
    unfold Tables.writeTable
    dsimp only
    split <;> rfl
  induction tables generalizing t d with
  | nil => rfl
  | cons entry tables ih =>
    rw [Tables.writeTables]
    exact (ih _ _).trans (hone t d entry.1 entry.2)

theorem headers_writeTables (t : Tables) (folder : Option String) (d : Disk)
    (tables : Keyed (List (List String))) :
    (t.writeTables folder d tables).1.headers = t.headers := by
  have hone : ∀ (t : Tables) (d : Disk) (table : String) (records : List (List String)),
      (t.writeTable folder d table records).1.headers = t.headers := by
    intro t d table records
    unfold Tables.writeTable
    dsimp only
    split <;> rfl
  induction tables generalizing t d with
  | nil => rfl
  | cons entry tables ih =>
    rw [Tables.writeTables]
    exact (ih _ _).trans (hone t d entry.1 entry.2)

theorem lines_writeLines (l : LineLog) (folder : Option String) (d : Disk) (lines : List String) :
    (l.writeLines folder d lines).1.lines = l.lines := by
  unfold LineLog.writeLines
  dsimp only
  split
  · rfl
  · split <;> rfl

/-- Whether or not it fails, the end of a block or of the run leaves nothing in the stages. -/
theorem stages_ended (o : Outputs) : o.endBlock.1.Stages [] ∧ o.endProgram.1.Stages [] := by
  constructor
  · refine ⟨?_, ?_, rfl, ?_⟩
    · exact (congrArg Staging.staged (rows_writeTables _ _ _ _)).trans (staged_endBlock _)
    · exact (congrArg Staging.staged (lines_writeLines _ _ _ _)).trans (staged_endBlock _)
    · exact (congrArg Staging.staged (Deliveries.deliver_sent _ _ _).1).trans (staged_endBlock _)
  · refine ⟨?_, ?_, rfl, ?_⟩
    · exact congrArg Staging.staged (rows_writeTables _ _ _ _)
    · exact congrArg Staging.staged (lines_writeLines _ _ _ _)
    · exact congrArg Staging.staged (Deliveries.deliver_sent _ _ _).1

theorem Stages.follow {items : List OutputItem} (h : o.Stages items) {e : JournalEntry}
    (haccepts : (∃ item, e = .staged item) → (o.follow e).2 = none) :
    (o.follow e).1.Stages (if e.decision? = none then items ++ e.item?.toList else []) := by
  have hquiet : ∀ {o' : Outputs}, o'.Stages items → o'.Stages (items ++ []) := by
    intro o' h'
    rw [List.append_nil]
    exact h'
  cases e with
  | entered x => exact hquiet h
  | staged item =>
    have haccept := haccepts ⟨item, rfl⟩
    rw [Outputs.follow] at haccept ⊢
    cases hstage : o.stage item with
    | error e =>
      rw [hstage] at haccept
      cases haccept
    | ok o' => exact h.stage hstage
  | moved path =>
    refine hquiet ?_
    show (o.moveTo path).Stages items
    unfold Outputs.moveTo
    split
    · exact ⟨h.rows, h.lines, h.records, h.requests⟩
    · exact ⟨h.rows, h.lines, h.records, h.requests⟩
  | closed failure =>
    cases failure with
    | none => exact (stages_ended o).2
    | some f => exact (stages_ended o.discard).2
  | left c failure =>
    cases c with
    | block =>
      cases failure with
      | none => exact (stages_ended o).1
      | some f => exact stages_discard o
    | _ => exact hquiet h

/-- After any journal the stages hold the items that no entry has decided about. -/
theorem stages_replay (j : Journal) (haccepts : o.Accepts j) (hstart : o.Stages []) :
    (o.replay j).Stages j.waiting := by
  apply replay_induction (motive := fun k o' => o'.Stages (Journal.waiting k)) hstart _ haccepts
  intro k e o' h haccept
  rw [Journal.waiting_concat]
  exact h.follow haccept

end Outputs
end ChainQuery
