import ChainQuery.Proofs.Output.OutputAccounts
import ChainQuery.Proofs.Output.Stages

/-!
# Where written items come from

Whether or not writes fail, what a writer has written and what waits in it are items that were emitted,
in the order of their emission; the others were discarded, or their write failed.
-/

namespace ChainQuery

namespace Staging

theorem endProgram_pending (s : Staging α) : s.endProgram.2 ++ s.endProgram.1.pending = s.pending :=
  List.append_nil _

theorem discard_pending (s : Staging α) : s.discard.pending.Sublist s.pending := by
  simp [discard, pending]

end Staging

theorem TableRow.ofTable_append (table : String) (rows rows' : List TableRow) :
    ofTable table (rows ++ rows') = ofTable table rows ++ ofTable table rows' := by
  simp [ofTable]

def OutputItem.rows (table : String) (items : List OutputItem) : List (List String) :=
  TableRow.ofTable table (items.filterMap OutputItem.row?)

theorem OutputItem.rows_append (table : String) (items items' : List OutputItem) :
    rows table (items ++ items') = rows table items ++ rows table items' := by
  rw [rows, List.filterMap_append, TableRow.ofTable_append]
  rfl

namespace Tables

/-- The rows of a file after its columns, if there are any rows. -/
def headed (columns : Option (List String)) (rows : List (List String)) : List (List String) :=
  if rows = [] then [] else columns.toList ++ rows

/-- The files of the tables hold rows of items, each row with the columns of its table. -/
structure Sources (t : Tables) (items : List OutputItem) (ws : List FileWrite) : Prop where
  columns : ∀ table cells, .row table cells ∈ items →
    t.headers.lookup table = some (cells.map (·.1))
  rows : ∀ table, ∃ rows, (rows ++ TableRow.ofTable table t.rows.pending).Sublist
      (OutputItem.rows table items) ∧
    FileWrite.Parts ws table "csv" TableRow.recordsText (headed (t.headers.lookup table) rows)
      (t.opened.contains table = true)

variable {t t' : Tables} {items : List OutputItem} {ws : List FileWrite}

theorem Sources.other (h : t.Sources items ws) {item : OutputItem} (hitem : item.row? = none) :
    t.Sources (items ++ [item]) ws where
  columns := by
    intro table cells hmem
    rcases List.mem_append.mp hmem with hmem | hmem
    · exact h.columns table cells hmem
    · rw [← List.mem_singleton.mp hmem] at hitem
      cases hitem
  rows := by
    intro table
    obtain ⟨rows, hsub, hparts⟩ := h.rows table
    refine ⟨rows, ?_, hparts⟩
    rw [OutputItem.rows_append]
    exact hsub.trans (List.sublist_append_left _ _)

theorem exists_row {table : String} (h : OutputItem.rows table items ≠ []) :
    ∃ cells, .row table cells ∈ items := by
  obtain ⟨row, hrow⟩ := List.exists_mem_of_ne_nil _ h
  obtain ⟨tableRow, hmem, -⟩ := List.mem_map.mp hrow
  obtain ⟨hmem, htable⟩ := List.mem_filter.mp hmem
  obtain ⟨item, hitem, heq⟩ := List.mem_filterMap.mp hmem
  cases item with
  | row name cells =>
    cases heq
    obtain rfl : name = table := of_decide_eq_true htable
    exact ⟨cells, hitem⟩
  | _ => cases heq

theorem Sources.row (h : t.Sources items ws) {table : String} {cells : List (String × String)}
    (hadd : t.addRow table cells = .ok t') : t'.Sources (items ++ [.row table cells]) ws := by
  obtain ⟨hrows, hopened, hheader, hheaders⟩ := addRow_eq_ok hadd
  refine ⟨fun other cells' hmem => ?_, fun other => ?_⟩
  · rcases List.mem_append.mp hmem with hmem | hmem
    · exact hheaders _ _ (h.columns other cells' hmem)
    · cases List.mem_singleton.mp hmem
      exact hheader
  · obtain ⟨rows, hsub, hparts⟩ := h.rows other
    refine ⟨rows, ?_, ?_⟩
    · rw [hrows, Staging.pending_push, TableRow.ofTable_append, ← List.append_assoc,
        OutputItem.rows_append]
      exact hsub.append_right _
    · have hsame : headed (t'.headers.lookup other) rows = headed (t.headers.lookup other) rows := by
        by_cases hnone : rows = []
        · rw [hnone]
          rfl
        · have hemitted : OutputItem.rows other items ≠ [] := by
            intro hnil
            rw [hnil] at hsub
            exact hnone (List.append_eq_nil_iff.mp (List.sublist_nil.mp hsub)).1
          obtain ⟨cells', hmem⟩ := exists_row hemitted
          have hcolumns := h.columns other cells' hmem
          rw [hcolumns, hheaders _ _ hcolumns]
      rw [hsame, hopened]
      exact hparts

theorem Sources.drop (h : t.Sources items ws) {rows : Staging TableRow}
    (hrows : rows.pending.Sublist t.rows.pending) : Sources { t with rows := rows } items ws where
  columns := h.columns
  rows := by
    intro table
    obtain ⟨written, hsub, hparts⟩ := h.rows table
    refine ⟨written, List.Sublist.trans (List.Sublist.append_left ?_ _) hsub, hparts⟩
    exact (hrows.filter _).map _

theorem Sources.same {vs : List FileWrite} (h : t.Sources items ws)
    (hvs : ∀ w ∈ vs, w.extension ≠ "csv") : t.Sources items (ws ++ vs) where
  columns := h.columns
  rows := by
    intro table
    obtain ⟨rows, hsub, hparts⟩ := h.rows table
    exact ⟨rows, hsub, hparts.same (FileWrite.toFile_eq_nil_of_extension hvs)⟩

theorem dueRecords_headed {table : String} {rows due : List (List String)}
    (hopened : t.opened.contains table = true ↔ rows ≠ []) (hdue : due ≠ []) :
    headed (t.headers.lookup table) (rows ++ due) =
      headed (t.headers.lookup table) rows ++ t.dueRecords table due := by
  by_cases hnone : rows = []
  · have hclosed : t.opened.contains table = false :=
      Bool.eq_false_iff.mpr fun h => hopened.mp h hnone
    rw [hnone, List.nil_append, headed, if_neg hdue, headed, if_pos rfl, List.nil_append, dueRecords,
      hclosed]
    rfl
  · rw [headed, if_neg (by simp [hnone]), headed, if_neg hnone, dueRecords, hopened.mpr hnone,
      List.append_assoc]
    rfl

theorem headed_eq_nil {columns : Option (List String)} {rows : List (List String)} :
    headed columns rows = [] ↔ rows = [] := by
  by_cases h : rows = []
  · simp [headed, h]
  · simp [headed, h]

/-- The due rows of a table are added to its file, or its write fails. -/
theorem parts_flushed {folder : Option String} {d d' : Disk} {rows : Staging TableRow}
    {due : List TableRow} {failure : Option WriterError}
    (hwrite : writeTables { t with rows := rows } folder d (TableRow.byTable due) = (t', d', failure))
    {table : String} {written : List (List String)}
    (hparts : FileWrite.Parts ws table "csv" TableRow.recordsText
      (headed (t.headers.lookup table) written) (t.opened.contains table = true)) :
    FileWrite.Parts
      (ws ++ flushed folder { t with rows := rows } d (TableRow.byTable due)) table "csv"
      TableRow.recordsText
      (headed (t.headers.lookup table) (written ++
        if FileWrite.toFile table "csv"
            (flushed folder { t with rows := rows } d (TableRow.byTable due)) = [] then []
        else TableRow.ofTable table due))
      (t'.opened.contains table = true) := by
  obtain ⟨-, -, -, hall⟩ := writeTables_flushed hwrite (TableRow.nodup_keys_byTable due)
  have hopened : t.opened.contains table = true ↔ written ≠ [] := by
    have hnone := hparts.contents_eq_nil
    rw [headed_eq_nil] at hnone
    rw [ne_eq, hnone, Decidable.not_not]
  rcases hall table with ⟨hto, hopen, -⟩ | ⟨f, records, hlookup, hto, hopen⟩
  · rw [if_pos hto, List.append_nil, hopen]
    exact hparts.same hto
  · rw [TableRow.lookup_byTable] at hlookup
    split at hlookup
    · cases hlookup
    · next hdue =>
      cases hlookup
      have hsome : FileWrite.toFile table "csv"
          (flushed folder { t with rows := rows } d (TableRow.byTable due)) ≠ [] := by
        rw [hto]
        exact List.cons_ne_nil _ _
      rw [if_neg hsome, hopen, dueRecords_headed hopened hdue, eq_self_iff_true]
      refine hparts.add ?_ ?_ ?_ hto
      · exact List.append_ne_nil_of_right_ne_nil _ hdue
      · intro hcontains
        exact if_pos hcontains
      · intro hcontains
        exact if_neg hcontains

theorem Sources.flush (h : t.Sources items ws) {folder : Option String} {d d' : Disk}
    {rows : Staging TableRow} {due : List TableRow} {failure : Option WriterError}
    (hpending : due ++ rows.pending = t.rows.pending)
    (hwrite : writeTables { t with rows := rows } folder d (TableRow.byTable due) = (t', d', failure)) :
    t'.Sources items (ws ++ flushed folder { t with rows := rows } d (TableRow.byTable due)) := by
  obtain ⟨-, hrows, hheaders, -⟩ := writeTables_flushed hwrite (TableRow.nodup_keys_byTable due)
  refine ⟨fun table cells hmem => ?_, fun table => ?_⟩
  · rw [hheaders]
    exact h.columns table cells hmem
  · obtain ⟨written, hsub, hparts⟩ := h.rows table
    rw [← hpending, TableRow.ofTable_append] at hsub
    rw [hrows, hheaders]
    refine ⟨_, ?_, parts_flushed hwrite hparts⟩
    rw [List.append_assoc]
    refine (List.Sublist.append_left ?_ _).trans hsub
    split
    · exact List.sublist_append_right _ _
    · exact List.Sublist.refl _

end Tables

namespace LineLog

/-- The file of the log holds lines of items. -/
def Sources (l : LineLog) (items : List OutputItem) (ws : List FileWrite) : Prop :=
  ∃ lines, (lines ++ l.lines.pending).Sublist (items.filterMap OutputItem.line?) ∧
    FileWrite.Parts ws "log" "txt" linesText lines (l.opened = true)

variable {l l' : LineLog} {items : List OutputItem} {ws : List FileWrite}

theorem Sources.line (h : l.Sources items ws) (text : String) :
    (l.addLine text).Sources (items ++ [.line text]) ws := by
  obtain ⟨lines, hsub, hparts⟩ := h
  refine ⟨lines, ?_, hparts⟩
  rw [addLine, Staging.pending_push, ← List.append_assoc, List.filterMap_append]
  exact hsub.append_right _

theorem Sources.other (h : l.Sources items ws) (item : OutputItem) :
    l.Sources (items ++ [item]) ws := by
  obtain ⟨lines, hsub, hparts⟩ := h
  refine ⟨lines, ?_, hparts⟩
  rw [List.filterMap_append]
  exact hsub.trans (List.sublist_append_left _ _)

theorem Sources.drop (h : l.Sources items ws) {lines : Staging String}
    (hlines : lines.pending.Sublist l.lines.pending) :
    Sources { l with lines := lines } items ws := by
  obtain ⟨written, hsub, hparts⟩ := h
  exact ⟨written, (List.Sublist.append_left hlines _).trans hsub, hparts⟩

theorem Sources.same {vs : List FileWrite} (h : l.Sources items ws)
    (hvs : ∀ w ∈ vs, w.extension ≠ "txt") : l.Sources items (ws ++ vs) := by
  obtain ⟨lines, hsub, hparts⟩ := h
  exact ⟨lines, hsub, hparts.same (FileWrite.toFile_eq_nil_of_extension hvs)⟩

theorem Sources.flush (h : l.Sources items ws) {folder : Option String} {d d' : Disk}
    {lines : Staging String} {due : List String} {failure : Option WriterError}
    (hpending : due ++ lines.pending = l.lines.pending)
    (hwrite : writeLines { l with lines := lines } folder d due = (l', d', failure)) :
    l'.Sources items (ws ++ flushed folder { l with lines := lines } d due) := by
  obtain ⟨-, hlines, hadd⟩ := writeLines_flushed hwrite
  obtain ⟨written, hsub, hparts⟩ := h
  refine ⟨_, ?_, hadd ws _ hparts⟩
  rw [← hpending] at hsub
  rw [hlines, List.append_assoc]
  by_cases hfailure : failure = none
  · rw [if_pos hfailure]
    exact hsub
  · rw [if_neg hfailure]
    exact (List.Sublist.append_left (List.sublist_append_right _ _) _).trans hsub

end LineLog

namespace Outputs

/-- The files hold items that were emitted. -/
structure Sources (o o' : Outputs) (items : List OutputItem) (ws : List FileWrite) : Prop where
  wrote : o.disk.Wrote ws o'.disk
  tables : o'.tables.Sources items ws
  lines : o'.lines.Sources items ws
  named : ∀ w ∈ ws, Named w

variable {o o' : Outputs} {items : List OutputItem} {ws : List FileWrite}

theorem sources_start (config : RunConfig) (disk : Disk) (wire : Wire) :
    Sources (start config disk wire) (start config disk wire) [] [] where
  wrote := Disk.wrote_nil rfl fun _ => rfl
  tables := ⟨nofun, fun _ => ⟨[], List.nil_sublist _, .nil (by simp [start])⟩⟩
  lines := ⟨[], List.nil_sublist _, .nil (by simp [start])⟩
  named := nofun

theorem Sources.stage (h : Sources o o' items ws) {item : OutputItem} {o'' : Outputs}
    (hstage : o'.stage item = .ok o'') : Sources o o'' (items ++ [item]) ws := by
  cases item with
  | row table cells =>
    obtain ⟨t, hadd, rfl⟩ := except_map_eq_ok.mp hstage
    exact ⟨h.wrote, h.tables.row hadd, h.lines.other _, h.named⟩
  | line text =>
    cases hstage
    exact ⟨h.wrote, h.tables.other rfl, h.lines.line text, h.named⟩
  | record r =>
    cases hstage
    exact ⟨h.wrote, h.tables.other rfl, h.lines.other _, h.named⟩
  | request d =>
    cases hstage
    exact ⟨h.wrote, h.tables.other rfl, h.lines.other _, h.named⟩

theorem Sources.discard (h : Sources o o' items ws) : Sources o o'.discard items ws :=
  ⟨h.wrote, h.tables.drop (Staging.discard_pending _), h.lines.drop (Staging.discard_pending _),
    h.named⟩

theorem Sources.moveTo (h : Sources o o' items ws) (path : String) :
    Sources o (o'.moveTo path) items ws := by
  have hmoved := h.wrote.append (o'.wrote_moveTo path)
  rw [List.append_nil] at hmoved
  refine ⟨hmoved, ?_, ?_, h.named⟩
  · unfold Outputs.moveTo
    split
    · exact h.tables
    · exact h.tables
  · unfold Outputs.moveTo
    split
    · exact h.lines
    · exact h.lines

theorem Sources.endBlock (h : Sources o o' items ws) :
    Sources o o'.endBlock.1 items (ws ++ o'.blockFlushed) := by
  have hwrote := h.wrote.append o'.wrote_endBlock
  rcases ht : o'.tables.endBlock o'.folder o'.disk with ⟨tables, disk, tableFailure⟩
  rcases hl : o'.lines.endBlock o'.folder disk with ⟨lines, disk', lineFailure⟩
  refine ⟨hwrote, ?_, ?_, fun w hw => ?_⟩
  · rw [endBlock_eq ht hl, blockFlushed_eq ht, ← List.append_assoc]
    exact (h.tables.flush (Staging.endBlock_pending _) ht).same
      (FileWrite.extension_ne (fun w hw => (LineLog.mem_flushed hw).2.2) (by decide))
  · rw [endBlock_eq ht hl, blockFlushed_eq ht, ← List.append_assoc]
    exact (h.lines.same (FileWrite.extension_ne (fun w hw => (Tables.mem_flushed hw).2)
      (by decide))).flush (Staging.endBlock_pending _) hl
  · rcases List.mem_append.mp hw with hw | hw
    · exact h.named w hw
    · exact (mem_blockFlushed hw).2.imp_right .inl

theorem Sources.endProgram (h : Sources o o' items ws) :
    Sources o o'.endProgram.1 items (ws ++ o'.programFlushed) := by
  have hwrote := h.wrote.append o'.wrote_endProgram
  rcases ht : o'.tables.endProgram o'.folder o'.disk with ⟨tables, disk, tableFailure⟩
  rcases hl : o'.lines.endProgram o'.folder disk with ⟨lines, disk', lineFailure⟩
  rcases he : o'.events.endProgram o'.folder disk' with ⟨events, disk'', eventFailure⟩
  have hxes : ∀ w ∈ EventLogs.flushed o'.folder disk' o'.events.endBlock.documents,
      w.extension = "xes" := fun w hw => (EventLogs.mem_flushed hw).2
  refine ⟨hwrote, ?_, ?_, fun w hw => ?_⟩
  · rw [endProgram_eq ht hl he, programFlushed_eq ht hl, ← List.append_assoc, ← List.append_assoc]
    exact ((h.tables.flush (Staging.endProgram_pending _) ht).same
      (FileWrite.extension_ne (fun w hw => (LineLog.mem_flushed hw).2.2) (by decide))).same
      (FileWrite.extension_ne hxes (by decide))
  · rw [endProgram_eq ht hl he, programFlushed_eq ht hl, ← List.append_assoc, ← List.append_assoc]
    exact ((h.lines.same (FileWrite.extension_ne (fun w hw => (Tables.mem_flushed hw).2)
      (by decide))).flush (Staging.endProgram_pending _) hl).same
      (FileWrite.extension_ne hxes (by decide))
  · rcases List.mem_append.mp hw with hw | hw
    · exact h.named w hw
    · exact (mem_programFlushed hw).2

theorem Sources.follow (h : Sources o o' items ws) {e : JournalEntry}
    (haccepts : (∃ item, e = .staged item) → (o'.follow e).2 = none) :
    Sources o (o'.follow e).1 (items ++ e.item?.toList) (ws ++ o'.entryFlushed e) := by
  have hquiet : ∀ {o'' : Outputs} {vs : List FileWrite}, Sources o o'' items vs →
      Sources o o'' (items ++ []) vs := by
    intro o'' vs h'
    rwa [List.append_nil]
  have hnone : ∀ {o'' : Outputs} {items' : List OutputItem}, Sources o o'' items' ws →
      Sources o o'' items' (ws ++ []) := by
    intro o'' items' h'
    rwa [List.append_nil]
  cases e with
  | entered x => exact hquiet (hnone h)
  | staged item =>
    have haccept := haccepts ⟨item, rfl⟩
    rw [Outputs.follow] at haccept ⊢
    cases hstage : o'.stage item with
    | error e =>
      rw [hstage] at haccept
      cases haccept
    | ok o'' => exact hnone (h.stage hstage)
  | moved path => exact hquiet (hnone (h.moveTo path))
  | closed failure =>
    cases failure with
    | none => exact hquiet h.endProgram
    | some f => exact hquiet h.discard.endProgram
  | left c failure =>
    cases c with
    | block =>
      cases failure with
      | none => exact hquiet h.endBlock
      | some f => exact hquiet (hnone h.discard)
    | _ => exact hquiet (hnone h)

/-- After any journal the files hold items of the journal, whatever writes have failed. -/
theorem sources_replay (j : Journal) (haccepts : o.Accepts j) (hstart : Sources o o [] []) :
    Sources o (o.replay j) j.items (o.flushed j) := by
  have hmotive := replay_induction
    (motive := fun k o' => o' = o.replay k ∧ Sources o o' (Journal.items k) (o.flushed k))
    ⟨rfl, hstart⟩ ?_ haccepts
  · exact hmotive.2
  · rintro k e o' ⟨rfl, h⟩ haccept
    refine ⟨(replay_concat _ k e).symm, ?_⟩
    have hitems : Journal.items (k ++ [e]) = Journal.items k ++ e.item?.toList := by
      rw [Journal.items, List.filterMap_append, List.filterMap_cons, List.filterMap_nil]
      cases e.item? <;> rfl
    have hflushed : o.flushed (k ++ [e]) = o.flushed k ++ (o.replay k).entryFlushed e := by
      rw [flushed_append, flushed, flushed, List.append_nil]
    rw [hitems, hflushed]
    exact h.follow haccept

end Outputs
end ChainQuery
