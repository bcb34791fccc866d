import ChainQuery.Proofs.Output.Departures
import ChainQuery.Proofs.Output.Settling

/-!
# The files of the tables

What the file of a table holds after any actions on the tables of a folder, whichever writes fail: the
columns of the first row that was offered, and then the rows that left the stage at a flush which
reached the file.
-/

namespace ChainQuery
namespace Tables

/-- What is done with the tables of a folder. In between, somebody else may make folders. -/
inductive Action where
  | offer (table : String) (cells : List (String × String))
  | endBlock
  | discard
  | endProgram
  | makeFolders (path : String)

namespace Action

/-- The tables and the disk after an action. A row that is refused changes nothing. -/
def perform (folder : String) (t : Tables) (d : Disk) : Action → Tables × Disk
  | .offer table cells =>
    match t.addRow table cells with
    | .ok t' => (t', d)
    | .error _ => (t, d)
  | .endBlock => ((t.endBlock (some folder) d).1, (t.endBlock (some folder) d).2.1)
  | .discard => (t.discard, d)
  | .endProgram => ((t.endProgram (some folder) d).1, (t.endProgram (some folder) d).2.1)
  | .makeFolders path => (t, (d.makeFolders path).1)

def writes (folder : String) (t : Tables) (d : Disk) : Action → List FileWrite
  | .endBlock =>
    flushed (some folder) { t with rows := t.rows.endBlock.1 } d (TableRow.byTable t.rows.endBlock.2)
  | .endProgram =>
    flushed (some folder) { t with rows := t.rows.endProgram.1 } d
      (TableRow.byTable t.rows.endProgram.2)
  | _ => []

def columns? (table : String) : Action → Option (List String)
  | .offer name cells => if name = table then some (cells.map (·.1)) else none
  | _ => none

/-- What an action does to the stage. A row gets there if it has the columns of its table. -/
def stageStep? (columns : String → Option (List String)) : Action → Option (StageStep TableRow)
  | .offer table cells =>
    if columns table = some (cells.map (·.1)) then some (.push ⟨table, cells.map (·.2)⟩) else none
  | .endBlock => some .endBlock
  | .discard => some .discard
  | .endProgram => some .endProgram
  | .makeFolders _ => none

def due (columns : String → Option (List String)) (rows : Staging TableRow) (a : Action) :
    List TableRow :=
  (a.stageStep? columns).elim [] fun step => (rows.perform step).2

end Action

def trace (folder : String) (t : Tables) (d : Disk) : List Action → List (Action × List FileWrite)
  | [] => []
  | a :: as =>
    (a, a.writes folder t d) ::
      trace folder (a.perform folder t d).1 (a.perform folder t d).2 as

def performAll (folder : String) (t : Tables) (d : Disk) : List Action → Tables × Disk
  | [] => (t, d)
  | a :: as => performAll folder (a.perform folder t d).1 (a.perform folder t d).2 as

def firstColumns (table : String) (as : List Action) : Option (List String) :=
  as.findSome? (Action.columns? table)

def stageSteps (columns : String → Option (List String)) (trace : List (Action × List FileWrite)) :
    List (StageStep TableRow × List FileWrite) :=
  trace.filterMap fun entry => (entry.1.stageStep? columns).map (·, entry.2)

/-- The rows of a table that leave the stage with a write to its file. -/
def arrivals (table : String) (leaving : List (TableRow × List FileWrite)) : List (List String) :=
  TableRow.ofTable table
    ((leaving.filter fun entry => FileWrite.toFile table "csv" entry.2 ≠ []).map (·.1))

theorem arrivals_append (table : String) (leaving later : List (TableRow × List FileWrite)) :
    arrivals table (leaving ++ later) = arrivals table leaving ++ arrivals table later := by
  rw [arrivals, List.filter_append, List.map_append, TableRow.ofTable_append]
  rfl

theorem arrivals_map (table : String) (due : List TableRow) (ws : List FileWrite) :
    arrivals table (due.map (·, ws)) =
      if FileWrite.toFile table "csv" ws = [] then [] else TableRow.ofTable table due := by
  rw [arrivals, List.filter_map, List.map_map]
  by_cases hws : FileWrite.toFile table "csv" ws = []
  · simp [hws, TableRow.ofTable]
  · simp [hws, Function.comp_def]

/-- The file of a table is made of rows that fit its columns, and so are the rows that wait. -/
structure Filed (t : Tables) (table : String) (written : List (List String))
    (ws : List FileWrite) : Prop where
  fits : ∀ row ∈ written ++ TableRow.ofTable table t.rows.pending,
    ∃ columns, t.headers.lookup table = some columns ∧ row.length = columns.length
  parts : FileWrite.Parts ws table "csv" TableRow.recordsText
    (headed (t.headers.lookup table) written) (t.opened.contains table = true)

variable {t t' : Tables} {folder table : String} {d d' : Disk} {written : List (List String)}
variable {ws : List FileWrite}

theorem filed_start (mode : EmissionMode) (table : String) :
    Filed { rows := { mode := mode } } table [] [] where
  fits := nofun
  parts := .nil (by simp)

theorem Filed.row (h : t.Filed table written ws) {name : String} {cells : List (String × String)}
    (hadd : t.addRow name cells = .ok t') : t'.Filed table written ws := by
  obtain ⟨hrows, hopened, hheader, hheaders⟩ := addRow_eq_ok hadd
  refine ⟨fun row hrow => ?_, ?_⟩
  · rw [hrows, Staging.pending_push, TableRow.ofTable_append, ← List.append_assoc] at hrow
    rcases List.mem_append.mp hrow with hrow | hrow
    · obtain ⟨columns, hcolumns, hlength⟩ := h.fits row hrow
      exact ⟨columns, hheaders _ _ hcolumns, hlength⟩
    · obtain ⟨added, hadded, rfl⟩ := List.mem_map.mp hrow
      obtain ⟨hmem, htable⟩ := List.mem_filter.mp hadded
      rw [List.mem_singleton.mp hmem] at htable ⊢
      obtain rfl : name = table := of_decide_eq_true htable
      exact ⟨_, hheader, by simp⟩
  · have hsame : headed (t'.headers.lookup table) written =
        headed (t.headers.lookup table) written := by
      cases written with
      | nil => rfl
      | cons row rows =>
        obtain ⟨columns, hcolumns, -⟩ := h.fits row (List.mem_append_left _ List.mem_cons_self)
        rw [hheaders _ _ hcolumns, hcolumns]
    rw [hsame, hopened]
    exact h.parts

theorem Filed.discard (h : t.Filed table written ws) : t.discard.Filed table written ws where
  parts := h.parts
  fits row hrow := by
    have hsub : (TableRow.ofTable table t.discard.rows.pending).Sublist
        (TableRow.ofTable table t.rows.pending) :=
      ((Staging.discard_pending _).filter _).map _
    exact h.fits row ((List.Sublist.append_left hsub written).subset hrow)

theorem Filed.flush (h : t.Filed table written ws) {rows : Staging TableRow} {due : List TableRow}
    (hpending : due ++ rows.pending = t.rows.pending) {failure : Option WriterError}
    (hwrite : writeTables { t with rows := rows } (some folder) d (TableRow.byTable due) =
      (t', d', failure)) :
    t'.Filed table
      (written ++ arrivals table (due.map
        (·, flushed (some folder) { t with rows := rows } d (TableRow.byTable due))))
      (ws ++ flushed (some folder) { t with rows := rows } d (TableRow.byTable due)) := by
  obtain ⟨-, hrows, hheaders, -⟩ := writeTables_flushed hwrite (TableRow.nodup_keys_byTable due)
  have hparts := parts_flushed hwrite h.parts
  rw [arrivals_map]
  refine ⟨fun row hrow => ?_, ?_⟩
  · have hfits := h.fits row
    rw [← hpending, TableRow.ofTable_append, ← List.append_assoc] at hfits
    rw [hheaders]
    rw [hrows] at hrow
    refine hfits (List.Sublist.subset (List.Sublist.append_right (List.Sublist.append_left ?_ _) _) hrow)
    split
    · exact List.nil_sublist _
    · exact List.Sublist.refl _
  · rw [hheaders]
    exact hparts

/-- Every table has the columns of the first row that is offered to it. -/
def Foresees (t : Tables) (as : List Action) (columns : String → Option (List String)) : Prop :=
  ∀ table, columns table = (t.headers.lookup table).or (firstColumns table as)

section Step
variable {a : Action} {as : List Action} {columns : String → Option (List String)}

theorem Foresees.addRow {cells : List (String × String)}
    (h : t.Foresees (.offer table cells :: as) columns) :
    (columns table = some (cells.map (·.1)) ∧ ∃ t', t.addRow table cells = .ok t' ∧
        t'.Foresees as columns) ∨
      (columns table ≠ some (cells.map (·.1)) ∧ t.Foresees as columns ∧
        ∃ e, t.addRow table cells = .error e) := by
  have hown := h table
  have hfirst : ∀ other, other ≠ table →
      firstColumns other (.offer table cells :: as) = firstColumns other as := by
    intro other hother
    simp [firstColumns, Action.columns?, Ne.symm hother]
  unfold Tables.addRow
  dsimp only
  cases hheader : t.headers.lookup table with
  | none =>
    rw [hheader] at hown
    refine .inl ⟨?_, _, rfl, fun other => ?_⟩
    · simpa [firstColumns, Action.columns?] using hown
    · by_cases hother : other = table
      · subst hother
        simpa [List.lookup_append, hheader, firstColumns, Action.columns?] using hown
      · rw [h other, hfirst other hother]
        simp [List.lookup_append, Keyed.lookup_cons_of_ne hother]
  | some header =>
    rw [hheader, Option.some_or] at hown
    have hrest : t.Foresees as columns := by
      intro other
      by_cases hother : other = table
      · rw [hother, hown, hheader]
        rfl
      · rw [h other, hfirst other hother]
    by_cases hcolumns : header = cells.map (·.1)
    · refine .inl ⟨by rw [hown, hcolumns], _, if_pos hcolumns, hrest⟩
    · refine .inr ⟨?_, hrest, _, if_neg hcolumns⟩
      rw [hown]
      exact fun heq => hcolumns (Option.some.inj heq)

theorem Foresees.of_same (h : t.Foresees (a :: as) columns)
    (hquiet : ∀ table, a.columns? table = none) (hheaders : t'.headers = t.headers) :
    t'.Foresees as columns := by
  intro table
  rw [h table, hheaders, firstColumns, List.findSome?_cons, hquiet]
  rfl

theorem Foresees.perform (h : t.Foresees (a :: as) columns) (folder : String) (d : Disk) :
    (a.perform folder t d).1.Foresees as columns ∧
      (a.perform folder t d).1.rows =
        (a.stageStep? columns).elim t.rows fun step => (t.rows.perform step).1 := by
  cases a with
  | offer table cells =>
    rcases h.addRow with ⟨hcolumns, t', hadd, hnext⟩ | ⟨hcolumns, hnext, e, hadd⟩
    · rw [Action.perform, hadd, Action.stageStep?, if_pos hcolumns]
      exact ⟨hnext, (addRow_eq_ok hadd).1⟩
    · rw [Action.perform, hadd, Action.stageStep?, if_neg hcolumns]
      exact ⟨hnext, rfl⟩
  | endBlock =>
    refine ⟨h.of_same (fun _ => rfl) ?_, ?_⟩
    · exact Outputs.headers_writeTables _ _ _ _
    · exact Outputs.rows_writeTables _ _ _ _
  | discard => exact ⟨h.of_same (fun _ => rfl) rfl, rfl⟩
  | endProgram =>
    refine ⟨h.of_same (fun _ => rfl) ?_, ?_⟩
    · exact Outputs.headers_writeTables _ _ _ _
    · exact Outputs.rows_writeTables _ _ _ _
  | makeFolders path => exact ⟨h.of_same (fun _ => rfl) rfl, rfl⟩

/-- What is due at an action is added to the file of its table, if it is written. -/
theorem Filed.perform (h : t.Filed table written ws) (hcolumns : t.Foresees (a :: as) columns)
    (folder : String) (d : Disk) :
    (a.perform folder t d).1.Filed table
      (written ++ arrivals table ((a.due columns t.rows).map (·, a.writes folder t d)))
      (ws ++ a.writes folder t d) := by
  have hquiet : ∀ {t' : Tables}, t'.Filed table written ws →
      t'.Filed table (written ++ []) (ws ++ []) := by
    intro t' h'
    rwa [List.append_nil, List.append_nil]
  cases a with
  | offer name cells =>
    rcases hcolumns.addRow with ⟨hown, t', hadd, -⟩ | ⟨hown, -, e, hadd⟩
    · rw [Action.perform, hadd, Action.due, Action.stageStep?, if_pos hown]
      exact hquiet (h.row hadd)
    · rw [Action.perform, hadd, Action.due, Action.stageStep?, if_neg hown]
      exact hquiet h
  | endBlock => exact h.flush (Staging.endBlock_pending _) rfl
  | discard => exact hquiet h.discard
  | endProgram => exact h.flush (Staging.endProgram_pending _) rfl
  | makeFolders path => exact hquiet h

end Step

theorem Action.wrote (a : Action) (folder : String) (t : Tables) (d : Disk) :
    d.Wrote (a.writes folder t d) (a.perform folder t d).2 ∧
      ∀ w ∈ a.writes folder t d, w.folder = folder ∧ w.extension = "csv" := by
  have hflushed : ∀ {t' : Tables} {tables : Keyed (List (List String))},
      ∀ w ∈ flushed (some folder) t' d tables, w.folder = folder ∧ w.extension = "csv" := by
    intro t' tables w hw
    obtain ⟨hfolder, hextension⟩ := mem_flushed hw
    exact ⟨(Option.some.inj hfolder).symm, hextension⟩
  cases a with
  | offer table cells =>
    refine ⟨?_, nofun⟩
    rw [perform]
    split
    · exact Disk.wrote_nil rfl fun _ => rfl
    · exact Disk.wrote_nil rfl fun _ => rfl
  | endBlock =>
    exact ⟨(writeTables_flushed rfl (TableRow.nodup_keys_byTable _)).1, hflushed⟩
  | discard => exact ⟨Disk.wrote_nil rfl fun _ => rfl, nofun⟩
  | endProgram =>
    exact ⟨(writeTables_flushed rfl (TableRow.nodup_keys_byTable _)).1, hflushed⟩
  | makeFolders path =>
    obtain ⟨hhome, htext⟩ := d.makeFolders_text path
    exact ⟨Disk.wrote_nil hhome htext, nofun⟩

theorem wrote_trace (folder : String) (t : Tables) (d : Disk) (as : List Action) :
    d.Wrote ((trace folder t d as).flatMap (·.2)) (performAll folder t d as).2 ∧
      ∀ w ∈ (trace folder t d as).flatMap (·.2), w.folder = folder ∧ w.extension = "csv" := by
  induction as generalizing t d with
  | nil => exact ⟨Disk.wrote_nil rfl fun _ => rfl, nofun⟩
  | cons a as ih =>
    obtain ⟨hwrote, hmem⟩ := a.wrote folder t d
    obtain ⟨hwrote', hmem'⟩ := ih (a.perform folder t d).1 (a.perform folder t d).2
    refine ⟨hwrote.append hwrote', fun w hw => ?_⟩
    rcases List.mem_append.mp hw with hw | hw
    · exact hmem w hw
    · exact hmem' w hw

/-- Along actions the file of a table receives what leaves the stage. -/
theorem Filed.performAll {as : List Action} {columns : String → Option (List String)}
    (h : t.Filed table written ws) (hcolumns : t.Foresees as columns) (folder : String) (d : Disk) :
    (performAll folder t d as).1.Foresees [] columns ∧
      (performAll folder t d as).1.Filed table
        (written ++ arrivals table (t.rows.given (stageSteps columns (trace folder t d as))))
        (ws ++ (trace folder t d as).flatMap (·.2)) := by
  induction as generalizing t d written ws with
  | nil =>
    refine ⟨hcolumns, ?_⟩
    simpa [Tables.performAll, trace, stageSteps, Staging.given, arrivals, TableRow.ofTable] using h
  | cons a as ih =>
    obtain ⟨hnext, hrows⟩ := hcolumns.perform folder d
    have hgiven : t.rows.given (stageSteps columns (trace folder t d (a :: as))) =
        (a.due columns t.rows).map (·, a.writes folder t d) ++
          (a.perform folder t d).1.rows.given (stageSteps columns
            (trace folder (a.perform folder t d).1 (a.perform folder t d).2 as)) := by
      rw [trace, stageSteps, List.filterMap_cons, Action.due, hrows]
      cases a.stageStep? columns <;> rfl
    rw [hgiven, arrivals_append, ← List.append_assoc, trace, List.flatMap_cons, ← List.append_assoc]
    exact ih (h.perform hcolumns folder d) hnext _

/-- The file of a table is as it was, or it holds the columns of the first row that was offered and
then the rows which left the stage with a write to the file, each one as long as the columns. -/
theorem text_after_actions (mode : EmissionMode) (folder : String) (d : Disk) (as : List Action)
    (table : String) :
    let start : Tables := { rows := { mode := mode } }
    let steps := stageSteps (firstColumns · as) (trace folder start d as)
    let rows := arrivals table (StageStep.departures mode steps)
    let file := d.resolve folder ++ [table ++ ".csv"]
    let text := (performAll folder start d as).2.text? file
    if rows = [] then text = d.text? file
    else ∃ columns, firstColumns table as = some columns ∧
      (∀ row ∈ rows, row.length = columns.length) ∧
      text = some (TableRow.recordsText (columns :: rows)) := by
  intro start steps rows file text
  have hforesees : start.Foresees as (firstColumns · as) := fun _ => rfl
  obtain ⟨hknown, hfiled⟩ := (filed_start mode table).performAll hforesees folder d
  obtain ⟨hwrote, hmem⟩ := wrote_trace folder start d as
  rw [List.nil_append, List.nil_append, Staging.given_eq_departures] at hfiled
  have hheader : (performAll folder start d as).1.headers.lookup table = firstColumns table as := by
    have hlookup := hknown table
    rw [firstColumns, List.findSome?_nil, Option.or_none] at hlookup
    exact hlookup.symm
  have htext := hfiled.parts.text_eq hwrote (fun w hw => .inl (hmem w hw).2)
    (fun w hw => congrArg d.resolve (hmem w hw).1) rfl TableRow.renders_recordsText
  have hname : table ++ "." ++ "csv" = table ++ ".csv" := String.append_assoc
  rw [hheader, hname] at htext
  split
  · next hrows =>
    rw [headed_eq_nil.mpr hrows, if_pos rfl] at htext
    exact htext
  · next hrows =>
    obtain ⟨row, hrow⟩ := List.exists_mem_of_ne_nil _ hrows
    obtain ⟨columns, hcolumns, -⟩ := hfiled.fits row (List.mem_append_left _ hrow)
    rw [hheader] at hcolumns
    refine ⟨columns, hcolumns, fun row hrow => ?_, ?_⟩
    · obtain ⟨columns', hcolumns', hlength⟩ := hfiled.fits row (List.mem_append_left _ hrow)
      rw [hheader, hcolumns] at hcolumns'
      rw [hlength, Option.some.inj hcolumns']
    · rw [if_neg fun hnil => hrows (headed_eq_nil.mp hnil), headed, if_neg hrows, hcolumns] at htext
      exact htext

end Tables
end ChainQuery
