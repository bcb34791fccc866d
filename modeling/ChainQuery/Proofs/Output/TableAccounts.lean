import ChainQuery.Proofs.Output.Accounts

/-!
# Accounts of the tables

A write of the tables adds the due rows of each table to its file, the first time after the columns.
-/

namespace ChainQuery

namespace Keyed

theorem lookup_modify (key k : String) (default : α) (f : α → α) (items : Keyed α) :
    (modify key default f items).lookup k =
      if key = k then some (f ((items.lookup key).getD default)) else items.lookup k := by
  induction items with
  | nil =>
    by_cases h : key = k
    · simp [modify, h]
    · simp [modify, lookup_cons_of_ne (Ne.symm h), h]
  | cons item items ih =>
    obtain ⟨key', a⟩ := item
    by_cases hkey : key' = key
    · subst hkey
      by_cases h : key' = k
      · simp [modify, h]
      · simp [modify, lookup_cons_of_ne (Ne.symm h), h]
    · by_cases h : k = key'
      · subst h
        simp [modify, hkey, Ne.symm hkey]
      · simp [modify, hkey, lookup_cons_of_ne h, lookup_cons_of_ne (Ne.symm hkey), ih]

end Keyed

namespace TableRow

def ofTable (table : String) (rows : List TableRow) : List (List String) :=
  (rows.filter fun row => row.table = table).map TableRow.cells

theorem foldl_modify_lookup (table : String) (rows : List TableRow)
    (tables : Keyed (List (List String))) :
    (rows.foldl (fun tables row => Keyed.modify row.table [] (· ++ [row.cells]) tables)
        tables).lookup table =
      if ofTable table rows = [] then tables.lookup table
      else some ((tables.lookup table).getD [] ++ ofTable table rows) := by
  induction rows generalizing tables with
  | nil => simp [ofTable]
  | cons row rows ih =>
    rw [List.foldl_cons, ih, Keyed.lookup_modify]
    by_cases h : row.table = table
    · have hcons : ofTable table (row :: rows) = row.cells :: ofTable table rows := by
        simp [ofTable, h]
      rw [if_pos h, hcons, h]
      by_cases hrows : ofTable table rows = []
      · simp [hrows]
      · simp [hrows]
    · have hcons : ofTable table (row :: rows) = ofTable table rows := by
        simp [ofTable, h]
      rw [if_neg h, hcons]

theorem lookup_byTable (table : String) (rows : List TableRow) :
    (byTable rows).lookup table =
      if ofTable table rows = [] then none else some (ofTable table rows) := by
  rw [byTable, foldl_modify_lookup]
  simp

theorem nodup_keys_byTable (rows : List TableRow) : (Keyed.keys (byTable rows)).Nodup := by
  have hfold : ∀ tables : Keyed (List (List String)), (Keyed.keys tables).Nodup →
      (Keyed.keys (rows.foldl (fun tables row =>
        Keyed.modify row.table [] (· ++ [row.cells]) tables) tables)).Nodup := by
    induction rows with
    | nil => exact fun _ h => h
    | cons row rows ih => exact fun tables h => ih _ (Keyed.nodup_keys_modify h)
  exact hfold [] List.nodup_nil

theorem ofTable_filterMap (table : String) (items : List OutputItem) :
    ofTable table (items.filterMap OutputItem.row?) =
      (items.filterMap (OutputItem.cells? table)).map fun cells => cells.map (·.2) := by
  induction items with
  | nil => rfl
  | cons item items ih =>
    cases item with
    | row name cells =>
      by_cases h : name = table
      · simpa [ofTable, OutputItem.row?, OutputItem.cells?, h] using ih
      · simpa [ofTable, OutputItem.row?, OutputItem.cells?, h] using ih
    | _ => exact ih

end TableRow

namespace Tables

theorem withColumns_append (rows rows' : List (List (String × String))) :
    withColumns (rows ++ rows') = withColumns rows ++
      (if rows = [] then withColumns rows' else rows'.map fun cells => cells.map (·.2)) := by
  cases rows with
  | nil => rfl
  | cons cells rows => simp [withColumns]

theorem withColumns_eq_nil {rows : List (List (String × String))} :
    withColumns rows = [] ↔ rows = [] := by
  cases rows with
  | nil => simp [withColumns]
  | cons cells rows => simp [withColumns]

variable {t t' : Tables} {folder : Option String} {d d' : Disk}

def dueRecords (t : Tables) (table : String) (rows : List (List String)) : List (List String) :=
  (if t.opened.contains table then [] else (t.headers.lookup table).toList) ++ rows

def dueWrite (t : Tables) (f table : String) (rows : List (List String)) : FileWrite :=
  ⟨f, table, "csv", if t.opened.contains table then .append else .replace,
    TableRow.recordsText (t.dueRecords table rows)⟩

/-- What is done with the result of the one write. -/
theorem writeTable_eq (t : Tables) (folder : Option String) (d : Disk) (table : String)
    (rows : List (List String)) : t.writeTable folder d table rows =
      let w := OutputFile.write d (if t.opened.contains table then .append else .replace) folder
        table "csv" (TableRow.recordsText (t.dueRecords table rows))
      (if w.2 = none then
        { t with opened := if t.opened.contains table then t.opened else table :: t.opened }
        else t, w.1, w.2) := by
  unfold writeTable dueRecords
  dsimp only
  rcases OutputFile.write d _ folder table "csv" _ with ⟨d', _ | e⟩
  · rfl
  · rfl

theorem writeTable_write (t : Tables) (folder : Option String) (d : Disk) (table : String)
    (rows : List (List String)) : (t.writeTable folder d table rows).2 =
      OutputFile.write d (if t.opened.contains table then .append else .replace) folder table "csv"
        (TableRow.recordsText (t.dueRecords table rows)) := by
  rw [writeTable_eq]

theorem writeTable_made {table : String} {rows : List (List String)} {failure : Option WriterError}
    (h : t.writeTable folder d table rows = (t', d', failure)) :
    d.Wrote (FileWrite.made folder failure (t.dueWrite · table rows)) d' ∧ t'.rows = t.rows ∧
      t'.headers = t.headers ∧ (failure = none → folder.isSome) ∧ ∀ other,
        t'.opened.contains other = (t.opened.contains other || failure.isNone && other == table) := by
  unfold writeTable at h
  dsimp only at h
  rcases hwrite : OutputFile.write d (if t.opened.contains table then .append else .replace) folder
      table "csv" (TableRow.recordsText (t.dueRecords table rows)) with ⟨d₁, _ | e⟩
  · rw [dueRecords] at hwrite
    rw [hwrite] at h
    cases h
    refine ⟨OutputFile.wrote_made hwrite, rfl, rfl, fun _ => ?_, fun other => ?_⟩
    · obtain ⟨f, rfl, -⟩ := OutputFile.wrote hwrite
      rfl
    dsimp only
    split
    · next hknown =>
      by_cases ho : other = table
      · rw [ho, hknown]
        rfl
      · simp [ho]
    · rw [List.contains_cons, Bool.or_comm]
      rfl
  · rw [dueRecords] at hwrite
    rw [hwrite] at h
    cases h
    exact ⟨OutputFile.wrote_made hwrite, rfl, rfl, nofun, fun other => (Bool.or_false _).symm⟩

def flushed (folder : Option String) : Tables → Disk → Keyed (List (List String)) → List FileWrite
  | _, _, [] => []
  | t, d, (table, rows) :: tables =>
    let step := t.writeTable folder d table rows
    FileWrite.made folder step.2.2 (t.dueWrite · table rows) ++
      flushed folder step.1 step.2.1 tables

theorem mem_flushed {tables : Keyed (List (List String))} {w : FileWrite}
    (h : w ∈ flushed folder t d tables) : folder = some w.folder ∧ w.extension = "csv" := by
  induction tables generalizing t d with
  | nil => exact absurd h List.not_mem_nil
  | cons entry tables ih =>
    rcases List.mem_append.mp h with h | h
    · obtain ⟨f, hfolder, rfl⟩ := FileWrite.mem_made h
      exact ⟨hfolder, rfl⟩
    · exact ih h

theorem toFile_made_of_ne {table key : String} {rows : List (List String)}
    {failure : Option WriterError} (h : table ≠ key) :
    FileWrite.toFile table "csv" (FileWrite.made folder failure (t.dueWrite · key rows)) = [] := by
  refine List.filter_eq_nil_iff.mpr fun w hw => ?_
  obtain ⟨f, -, rfl⟩ := FileWrite.mem_made hw
  simp [dueWrite, Ne.symm h]

theorem dueWrite_congr {table : String} (hheaders : t'.headers = t.headers)
    (hopened : t'.opened.contains table = t.opened.contains table) (f : String)
    (rows : List (List String)) : t'.dueWrite f table rows = t.dueWrite f table rows := by
  rw [dueWrite, dueWrite, dueRecords, dueRecords, hopened, hheaders]

/-- The due rows of several tables are written to the file of each, or its write fails. -/
theorem writeTables_flushed {tables : Keyed (List (List String))} {failure : Option WriterError}
    (h : t.writeTables folder d tables = (t', d', failure)) (hkeys : (Keyed.keys tables).Nodup) :
    d.Wrote (flushed folder t d tables) d' ∧ t'.rows = t.rows ∧ t'.headers = t.headers ∧
      ∀ table, (FileWrite.toFile table "csv" (flushed folder t d tables) = [] ∧
          t'.opened.contains table = t.opened.contains table ∧
          (failure = none → tables.lookup table = none)) ∨
        ∃ f rows, tables.lookup table = some rows ∧
          FileWrite.toFile table "csv" (flushed folder t d tables) = [t.dueWrite f table rows] ∧
          t'.opened.contains table = true := by
  induction tables generalizing t d failure with
  | nil =>
    cases h
    exact ⟨Disk.wrote_nil rfl fun _ => rfl, rfl, rfl, fun _ => .inl ⟨rfl, rfl, fun _ => rfl⟩⟩
  | cons entry tables ih =>
    obtain ⟨key, rows⟩ := entry
    obtain ⟨hkey, hkeys'⟩ := List.nodup_cons.mp hkeys
    rw [writeTables] at h
    rcases hfirst : t.writeTable folder d key rows with ⟨t₁, d₁, first⟩
    rcases hrest : t₁.writeTables folder d₁ tables with ⟨t₂, d₂, later⟩
    simp only [hfirst, hrest] at h
    cases h
    obtain ⟨hwrote, hrows, hheaders, hfolder, hopened⟩ := writeTable_made hfirst
    obtain ⟨hwrote', hrows', hheaders', hall⟩ := ih hrest hkeys'
    have hflushed : flushed folder t d ((key, rows) :: tables) =
        FileWrite.made folder first (t.dueWrite · key rows) ++ flushed folder t₁ d₁ tables := by
      rw [flushed, hfirst]
    rw [hflushed]
    refine ⟨hwrote.append hwrote', hrows'.trans hrows, hheaders'.trans hheaders, fun table => ?_⟩
    have hothers := hall table
    rw [FileWrite.toFile_append]
    by_cases htable : table = key
    · subst htable
      rw [Keyed.lookup_eq_none hkey] at hothers
      obtain ⟨hto, hopen, -⟩ : FileWrite.toFile table "csv" (flushed folder t₁ d₁ tables) = [] ∧
          t'.opened.contains table = t₁.opened.contains table ∧ _ :=
        hothers.resolve_right fun ⟨_, _, hlookup, _⟩ => nomatch hlookup
      rw [List.lookup_cons_self, hto, List.append_nil, hopen, hopened]
      cases first with
      | some e =>
        refine .inl ⟨?_, Bool.or_false _, nofun⟩
        cases folder <;> rfl
      | none =>
        obtain ⟨f, rfl⟩ := Option.isSome_iff_exists.mp (hfolder rfl)
        refine .inr ⟨f, rows, rfl, ?_, by simp⟩
        simp [FileWrite.made, FileWrite.toFile, dueWrite]
    · have hsame : t₁.opened.contains table = t.opened.contains table := by
        rw [hopened, beq_false_of_ne htable, Bool.and_false, Bool.or_false]
      rw [Keyed.lookup_cons_of_ne htable, toFile_made_of_ne htable, List.nil_append]
      rcases hothers with ⟨hnone, hopen, hlookup⟩ | ⟨f, rows', hlookup, hone, hopen⟩
      · refine .inl ⟨hnone, hopen.trans hsame, fun hfailure => hlookup ?_⟩
        cases first with
        | none => exact hfailure
        | some e => cases hfailure
      · refine .inr ⟨f, rows', hlookup, ?_, hopen⟩
        rw [hone, dueWrite_congr hheaders hsame]

def Holds (t : Tables) (kept waiting : List OutputItem) (ws : List FileWrite) : Prop :=
  (∀ table cells, .row table cells ∈ kept ++ waiting →
    t.headers.lookup table = some (cells.map (·.1))) ∧
  ∃ done, t.rows.Splits OutputItem.row? kept waiting done ∧
    ∀ table, FileWrite.Parts ws table "csv" TableRow.recordsText (records table done)
      (t.opened.contains table = true)

variable {kept waiting : List OutputItem} {us : List FileWrite}

theorem Holds.other (h : t.Holds kept waiting us) {item : OutputItem} (hitem : item.row? = none) :
    t.Holds kept (waiting ++ [item]) us := by
  obtain ⟨hcolumns, done, hsplits, hparts⟩ := h
  refine ⟨fun table cells hmem => ?_, done, hsplits.other hitem, hparts⟩
  rw [← List.append_assoc] at hmem
  rcases List.mem_append.mp hmem with hmem | hmem
  · exact hcolumns table cells hmem
  · rw [← List.mem_singleton.mp hmem] at hitem
    cases hitem

/-- A row that is accepted has the columns of its table, and fixes them if it is the first one. -/
theorem addRow_eq_ok {table : String} {cells : List (String × String)}
    (h : t.addRow table cells = .ok t') :
    t'.rows = t.rows.push ⟨table, cells.map (·.2)⟩ ∧ t'.opened = t.opened ∧
      t'.headers.lookup table = some (cells.map (·.1)) ∧
      ∀ other columns, t.headers.lookup other = some columns →
        t'.headers.lookup other = some columns := by
  unfold addRow at h
  dsimp only at h
  rcases hheader : t.headers.lookup table with _ | header
  · rw [hheader] at h
    cases h
    refine ⟨rfl, rfl, ?_, fun other columns hother => ?_⟩
    · simp [List.lookup_append, hheader]
    · simp [List.lookup_append, hother]
  · rw [hheader] at h
    dsimp only at h
    split at h
    · next heq =>
      cases h
      exact ⟨rfl, rfl, by rw [hheader, heq], fun _ _ hother => hother⟩
    · cases h

theorem Holds.row (h : t.Holds kept waiting us) {table : String} {cells : List (String × String)}
    (hadd : t.addRow table cells = .ok t') : t'.Holds kept (waiting ++ [.row table cells]) us := by
  obtain ⟨hcolumns, done, hsplits, hparts⟩ := h
  obtain ⟨hrows, hopened, hheader, hheaders⟩ := addRow_eq_ok hadd
  refine ⟨fun other cells' hmem => ?_, done, ?_, fun other => ?_⟩
  · rw [← List.append_assoc] at hmem
    rcases List.mem_append.mp hmem with hmem | hmem
    · exact hheaders _ _ (hcolumns other cells' hmem)
    · cases List.mem_singleton.mp hmem
      exact hheader
  · rw [hrows]
    exact hsplits.push rfl
  · rw [hopened]
    exact hparts other

theorem Holds.discard (h : t.Holds kept waiting us) : t.discard.Holds kept [] us := by
  obtain ⟨hcolumns, done, hsplits, hparts⟩ := h
  refine ⟨fun table cells hmem => ?_, done, hsplits.discard, hparts⟩
  rw [List.append_nil] at hmem
  exact hcolumns table cells (List.mem_append_left _ hmem)

theorem mem_of_cells {table : String} {items : List OutputItem} {cells : List (String × String)}
    (h : cells ∈ items.filterMap (OutputItem.cells? table)) : .row table cells ∈ items := by
  obtain ⟨item, hitem, hcells⟩ := List.mem_filterMap.mp h
  cases item with
  | row name cells' =>
    simp only [OutputItem.cells?] at hcells
    split at hcells
    · next hname =>
      cases hcells
      rw [← hname]
      exact hitem
    · cases hcells
  | _ => cases hcells

theorem records_append {table : String} {done due : List OutputItem}
    (hopened : t.opened.contains table = true ↔ records table done ≠ [])
    (hcolumns : ∀ cells, .row table cells ∈ due → t.headers.lookup table = some (cells.map (·.1)))
    (hdue : due.filterMap (OutputItem.cells? table) ≠ []) :
    records table (done ++ due) = records table done ++
      t.dueRecords table (TableRow.ofTable table (due.filterMap OutputItem.row?)) := by
  rw [records, List.filterMap_append, withColumns_append, dueRecords, TableRow.ofTable_filterMap]
  rw [records, ne_eq, withColumns_eq_nil] at hopened
  by_cases hdone : done.filterMap (OutputItem.cells? table) = []
  · have hclosed : t.opened.contains table = false := by
      rw [Bool.eq_false_iff]
      exact fun h => hopened.mp h hdone
    rw [if_pos hdone, hclosed]
    rcases hcells : due.filterMap (OutputItem.cells? table) with _ | ⟨cells, rows⟩
    · exact absurd hcells hdue
    · have hmem : OutputItem.row table cells ∈ due := by
        apply mem_of_cells
        rw [hcells]
        exact List.mem_cons_self
      rw [hcolumns cells hmem]
      rfl
  · rw [if_neg hdone, hopened.mpr hdone]
    rfl

theorem parts_writeTables {done due : List OutputItem}
    (hcolumns : ∀ table cells, .row table cells ∈ due →
      t.headers.lookup table = some (cells.map (·.1)))
    (hparts : ∀ table, FileWrite.Parts us table "csv" TableRow.recordsText (records table done)
      (t.opened.contains table = true))
    (h : t.writeTables folder d (TableRow.byTable (due.filterMap OutputItem.row?)) = (t', d', none))
    (table : String) :
    FileWrite.Parts (us ++ flushed folder t d (TableRow.byTable (due.filterMap OutputItem.row?))) table
      "csv" TableRow.recordsText (records table (done ++ due)) (t'.opened.contains table = true) := by
  obtain ⟨-, -, -, hall⟩ := writeTables_flushed h (TableRow.nodup_keys_byTable _)
  have hopened : t.opened.contains table = true ↔ records table done ≠ [] := by
    rw [ne_eq, (hparts table).contents_eq_nil, Decidable.not_not]
  have hlookup := TableRow.lookup_byTable table (due.filterMap OutputItem.row?)
  rw [TableRow.ofTable_filterMap] at hlookup
  rcases hall table with ⟨hto, hsame, hnone⟩ | ⟨f, rows, hrows, hto, hopen⟩
  · have hdue : due.filterMap (OutputItem.cells? table) = [] := by
      rw [hnone rfl] at hlookup
      split at hlookup
      · next hnil => exact List.map_eq_nil_iff.mp hnil
      · cases hlookup
    have hrecords : records table (done ++ due) = records table done := by
      rw [records, records, List.filterMap_append, hdue, List.append_nil]
    rw [hrecords, hsame]
    exact (hparts table).same hto
  · rw [hrows] at hlookup
    split at hlookup
    · cases hlookup
    · next hdue =>
      have hrows' := Option.some.inj hlookup
      rw [← TableRow.ofTable_filterMap] at hdue hrows'
      have hne : t.dueRecords table rows ≠ [] := by
        rw [hrows']
        exact List.append_ne_nil_of_right_ne_nil _ hdue
      rw [TableRow.ofTable_filterMap] at hdue
      have hcells : due.filterMap (OutputItem.cells? table) ≠ [] :=
        fun hnil => hdue (List.map_eq_nil_iff.mpr hnil)
      rw [records_append hopened (hcolumns table) hcells, ← hrows', hopen, eq_self_iff_true]
      refine (hparts table).add hne ?_ ?_ hto
      · intro hcontains
        rw [if_pos hcontains]
      · intro hcontains
        rw [if_neg hcontains]

theorem Holds.endBlock (h : t.Holds kept waiting us) (hend : t.endBlock folder d = (t', d', none)) :
    t'.Holds (kept ++ waiting) [] (us ++ flushed folder { t with rows := t.rows.endBlock.1 } d
      (TableRow.byTable t.rows.endBlock.2)) := by
  obtain ⟨hcolumns, done, hsplits, hparts⟩ := h
  obtain ⟨due, hdue, hsplits'⟩ := hsplits.endBlock
  have hwrite : writeTables { t with rows := t.rows.endBlock.1 } folder d
    (TableRow.byTable t.rows.endBlock.2) = (t', d', none) := hend
  obtain ⟨-, hrows, hheaders, -⟩ := writeTables_flushed hwrite (TableRow.nodup_keys_byTable _)
  rw [hdue] at hwrite ⊢
  have hmem : ∀ item, item ∈ due → item ∈ kept ++ waiting := by
    obtain ⟨left, hleft, -⟩ := hsplits'.committed
    intro item hitem
    rw [hleft]
    exact List.mem_append_left _ (List.mem_append_right _ hitem)
  refine ⟨fun table cells hrow => ?_, done ++ due, ?_, ?_⟩
  · rw [List.append_nil] at hrow
    rw [hheaders]
    exact hcolumns table cells hrow
  · rw [hrows]
    exact hsplits'
  · exact parts_writeTables (t := { t with rows := t.rows.endBlock.1 })
      (fun table cells hrow => hcolumns table cells (hmem _ hrow)) hparts hwrite

theorem Holds.endProgram (h : t.Holds kept waiting us)
    (hend : t.endProgram folder d = (t', d', none)) (table : String) :
    FileWrite.Parts (us ++ flushed folder { t with rows := t.rows.endProgram.1 } d
        (TableRow.byTable t.rows.endProgram.2)) table "csv" TableRow.recordsText
      (records table (kept ++ waiting)) (t'.opened.contains table = true) := by
  obtain ⟨hcolumns, done, hsplits, hparts⟩ := h
  obtain ⟨due, hall, hdue, -⟩ := hsplits.endProgram
  have hwrite : writeTables { t with rows := t.rows.endProgram.1 } folder d
    (TableRow.byTable t.rows.endProgram.2) = (t', d', none) := hend
  rw [hdue] at hwrite ⊢
  have hmem : ∀ item, item ∈ due → item ∈ kept ++ waiting := by
    intro item hitem
    rw [← hall]
    exact List.mem_append_right _ hitem
  rw [← hall]
  exact parts_writeTables (t := { t with rows := t.rows.endProgram.1 })
    (fun table cells hrow => hcolumns table cells (hmem _ hrow)) hparts hwrite table

end Tables
end ChainQuery
