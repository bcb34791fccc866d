import ChainQuery.Proofs.Output.Repetition

/-!
# Outputs that write later

One of two disks already has files that the other one gets later. Until then the same folders can be
made on both. This is how the outputs of a run that writes at the end of the program stand to those of
a run that writes at the end of each block.
-/

namespace ChainQuery

namespace FileWrite

/-- A file is there after writes if it was there before or one of them is to it. -/
theorem isSome_foldl_after {d : Disk} {l : Location} {ws : List FileWrite} {old : Option String} :
    (ws.foldl (after d l) old).isSome = true ↔
      old.isSome = true ∨ ∃ w ∈ ws, w.location d = l := by
  induction ws generalizing old with
  | nil => simp
  | cons w ws ih =>
    rw [List.foldl_cons, ih, after]
    by_cases h : w.location d = l
    · simp [h]
    · simp [h]

end FileWrite

namespace Disk

theorem text?_isSome {d : Disk} {loc : Location} :
    (d.text? loc).isSome = true ↔ ∃ text, d.node? loc = some (.file text) := by
  unfold text?
  rcases d.node? loc with _ | _ | text
  · simp
  · simp
  · simp

theorem Grows.isSome {d last : Disk} (h : d.Grows last) {loc : Location}
    (hloc : (d.text? loc).isSome = true) : (last.text? loc).isSome = true :=
  text?_isSome.mpr (kind?_eq_file.mp (h.kind (kind?_eq_file.mpr (text?_isSome.mp hloc))))

def SameFolders (d d' : Disk) : Prop :=
  ∀ loc, d'.node? loc = some .folder ↔ d.node? loc = some .folder

theorem SameFolders.refl (d : Disk) : d.SameFolders d :=
  fun _ => .rfl

theorem SameFolders.trans {d d' d'' : Disk} (h : d.SameFolders d') (h' : d'.SameFolders d'') :
    d.SameFolders d'' :=
  fun loc => (h' loc).trans (h loc)

theorem sameFolders_put {d : Disk} {loc : Location} {text : String} (h : d.node? loc ≠ some .folder) :
    d.SameFolders (d.put loc (.file text)) := by
  intro l
  rw [node?_put]
  split
  · next hroot =>
    rw [hroot]
    exact iff_of_true rfl rfl
  · split
    · next heq =>
      rw [← heq]
      exact iff_of_false nofun h
    · exact .rfl

theorem sameFolders_write (d : Disk) (mode : WriteMode) (folder name text : String) :
    d.SameFolders (d.write mode folder name text).1 := by
  unfold write
  split
  · exact .refl d
  · next loc _ =>
    have hnoted : d.SameFolders { d with written := loc :: d.written } := fun _ => .rfl
    dsimp only
    split
    · exact hnoted
    · next hnode =>
      split
      · exact hnoted
      · exact hnoted.trans (sameFolders_put hnode)

/-- A disk `d` has the folders of a disk `d'`. It may lack some of its files, which the last disk
has. -/
structure Trails (last d d' : Disk) : Prop where
  home : d'.home = d.home
  folders : d.SameFolders d'
  file : ∀ {loc}, (d.text? loc).isSome = true → (d'.text? loc).isSome = true
  last : ∀ {loc}, (d'.text? loc).isSome = true → (last.text? loc).isSome = true

namespace Trails

variable {last d d' : Disk}

theorem refl (h : d.Grows last) : Trails last d d where
  home := rfl
  folders := .refl d
  file := id
  last := h.isSome

/-- The files that the second disk gets are on the last one. -/
theorem write (h : Trails last d d') {e' : Disk} {ws : List FileWrite} (hwrote : d'.Wrote ws e')
    (hfolders : d'.SameFolders e')
    (hlast : ∀ w ∈ ws, (last.text? (w.location d')).isSome = true) : Trails last d e' where
  home := hwrote.home.trans h.home
  folders := h.folders.trans hfolders
  file := by
    intro loc hloc
    rw [hwrote.text]
    exact FileWrite.isSome_foldl_after.mpr (.inl (h.file hloc))
  last := by
    intro loc hloc
    rw [hwrote.text] at hloc
    rcases FileWrite.isSome_foldl_after.mp hloc with hloc | ⟨w, hw, rfl⟩
    · exact h.last hloc
    · exact hlast w hw

theorem put_folder (h : Trails last d d') {loc : Location} (hloc : d.node? loc = none)
    (hloc' : d'.node? loc = none) : Trails last (d.put loc .folder) (d'.put loc .folder) where
  home := h.home
  folders := by
    intro l
    rw [node?_put, node?_put]
    split
    · exact .rfl
    · split
      · exact .rfl
      · exact h.folders l
  file := by
    intro l
    rw [text?_put_folder hloc, text?_put_folder hloc']
    exact h.file
  last := by
    intro l
    rw [text?_put_folder hloc']
    exact h.last

/-- The same folders are made on both disks: where the second disk has a file already, the first one
makes no folder, because the last disk has that file. -/
theorem follow (h : Trails last d d') (loc : Location) (names : List String)
    (hlast : (Disk.follow true d loc names).1.Grows last) :
    (Disk.follow true d' loc names).2 = (Disk.follow true d loc names).2 ∧
      Trails last (Disk.follow true d loc names).1 (Disk.follow true d' loc names).1 := by
  induction names generalizing d d' loc with
  | nil => exact ⟨rfl, h⟩
  | cons name names ih =>
    rw [Disk.follow] at hlast ⊢
    rw [Disk.follow]
    split
    · next hup =>
      rw [if_pos hup] at hlast
      exact ih h loc.dropLast hlast
    · next hup =>
      rw [if_neg hup] at hlast
      split
      · exact ⟨rfl, h⟩
      · next hlimit =>
        rw [if_neg hlimit] at hlast
        rcases hnode : d.node? (loc ++ [name]) with _ | _ | text
        · rw [hnode] at hlast
          rcases hnode' : d'.node? (loc ++ [name]) with _ | _ | text
          · exact ih (h.put_folder hnode hnode') (loc ++ [name]) hlast
          · rw [(h.folders _).mp hnode'] at hnode
            cases hnode
          · -- a folder that is made here would stay on the last disk
            have hfile := h.last (text?_isSome.mpr ⟨text, hnode'⟩)
            have hfolder := ((grows_follow true _ _ names).trans hlast).kind
              (d.kind?_put_child loc name .folder)
            obtain ⟨text', hfile'⟩ := text?_isSome.mp hfile
            rw [kind?_eq_folder.mp hfolder] at hfile'
            cases hfile'
        · rw [hnode] at hlast
          rw [(h.folders _).mpr hnode]
          exact ih h (loc ++ [name]) hlast
        · obtain ⟨text', hnode'⟩ := text?_isSome.mp (h.file (text?_isSome.mpr ⟨text, hnode⟩))
          rw [hnode']
          exact ⟨rfl, h⟩

theorem makeFolders (h : Trails last d d') {path : String} (hlast : (d.makeFolders path).1.Grows last) :
    (d'.makeFolders path).2 = (d.makeFolders path).2 ∧
      Trails last (d.makeFolders path).1 (d'.makeFolders path).1 := by
  have hstart : d'.pathStart path = d.pathStart path := by
    unfold pathStart
    rw [h.home]
  rw [makeFolders_eq] at hlast
  rw [makeFolders_eq, makeFolders_eq, hstart]
  split
  · exact ⟨rfl, h⟩
  · next hbroken =>
    rw [if_neg hbroken] at hlast
    obtain ⟨hresult, htrails⟩ := h.follow (d.pathStart path) (pathNames path) hlast
    refine ⟨?_, htrails⟩
    dsimp only
    rw [hresult]

end Trails
end Disk

theorem OutputFile.sameFolders_write (d : Disk) (mode : Disk.WriteMode) (folder : Option String)
    (name extension text : String) :
    d.SameFolders (write d mode folder name extension text).1 := by
  rcases hmake : make folder name extension with e | file
  · rw [write_of_refused hmake]
    exact .refl d
  · rw [write_of_make hmake]
    exact d.sameFolders_write _ _ _ _

theorem Tables.sameFolders_writeTables (t : Tables) (folder : Option String) (d : Disk)
    (tables : Keyed (List (List String))) :
    d.SameFolders (t.writeTables folder d tables).2.1 := by
  have hone : ∀ (t : Tables) (d : Disk) (table : String) (records : List (List String)),
      d.SameFolders (t.writeTable folder d table records).2.1 := by
    intro t d table records
    rw [writeTable_eq]
    exact OutputFile.sameFolders_write d _ folder table "csv" _
  induction tables generalizing t d with
  | nil => exact .refl d
  | cons entry tables ih =>
    rw [writeTables]
    exact (hone t d entry.1 entry.2).trans (ih _ _)

theorem LineLog.sameFolders_writeLines (l : LineLog) (folder : Option String) (d : Disk)
    (lines : List String) : d.SameFolders (l.writeLines folder d lines).2.1 := by
  by_cases hlines : lines = []
  · rw [writeLines, if_pos hlines]
    exact .refl d
  · rw [writeLines_eq l folder d hlines]
    exact OutputFile.sameFolders_write d _ folder "log" "txt" _

namespace Outputs

variable {o o' : Outputs}

theorem sameFolders_endBlock (o : Outputs) : o.disk.SameFolders o.endBlock.1.disk :=
  (Tables.sameFolders_writeTables _ o.folder o.disk _).trans
    (LineLog.sameFolders_writeLines _ o.folder _ _)

/-- Rows and lines are written at the end of the program only. -/
structure Defers (o : Outputs) : Prop where
  rows : o.tables.rows.mode = .program
  lines : o.lines.lines.mode = .program

theorem Defers.endBlock (h : o.Defers) : o.endBlock.1.disk = o.disk := by
  have hrows : o.tables.rows.endBlock.2 = [] := by
    rw [Staging.endBlock, h.rows]
  have hlines : o.lines.lines.endBlock.2 = [] := by
    rw [Staging.endBlock, h.lines]
  have htables : (o.tables.endBlock o.folder o.disk).2.1 = o.disk := by
    simp only [Tables.endBlock, hrows]
    rfl
  show (o.lines.endBlock o.folder (o.tables.endBlock o.folder o.disk).2.1).2.1 = o.disk
  rw [htables]
  simp only [LineLog.endBlock, hlines]
  rfl

theorem Defers.blockFlushed (h : o.Defers) : o.blockFlushed = [] := by
  have hrows : o.tables.rows.endBlock.2 = [] := by
    rw [Staging.endBlock, h.rows]
  have hlines : o.lines.lines.endBlock.2 = [] := by
    rw [Staging.endBlock, h.lines]
  rw [Outputs.blockFlushed, hrows, hlines]
  rfl

theorem Defers.follow (h : o.Defers) (e : JournalEntry) : (o.follow e).1.Defers := by
  have hends : ∀ p : Outputs, p.Defers → p.endProgram.1.Defers := by
    intro p hp
    refine ⟨?_, ?_⟩
    · exact (congrArg Staging.mode (rows_writeTables _ _ _ _)).trans hp.rows
    · exact (congrArg Staging.mode (lines_writeLines _ _ _ _)).trans hp.lines
  have hblock : ∀ {α : Type} (s : Staging α), s.endBlock.1.mode = s.mode := by
    intro α s
    unfold Staging.endBlock
    split <;> rfl
  cases e with
  | entered x => exact h
  | staged item =>
    rw [Outputs.follow]
    cases item with
    | row table cells =>
      rw [Outputs.stage]
      rcases hadd : o.tables.addRow table cells with e | t
      · exact h
      · refine ⟨?_, h.lines⟩
        show t.rows.mode = .program
        rw [(Tables.addRow_eq_ok hadd).1]
        exact h.rows
    | _ => exact ⟨h.rows, h.lines⟩
  | moved path =>
    rw [Outputs.follow, moveTo]
    split
    · exact ⟨h.rows, h.lines⟩
    · exact ⟨h.rows, h.lines⟩
  | closed failure =>
    cases failure with
    | none => exact hends o h
    | some f => exact hends o.discard ⟨h.rows, h.lines⟩
  | left c failure =>
    cases c with
    | block =>
      cases failure with
      | none =>
        refine ⟨?_, ?_⟩
        · exact (congrArg Staging.mode (rows_writeTables _ _ _ _)).trans ((hblock _).trans h.rows)
        · exact (congrArg Staging.mode (lines_writeLines _ _ _ _)).trans ((hblock _).trans h.lines)
      | some f => exact ⟨h.rows, h.lines⟩
    | _ => exact h

theorem Defers.replay (h : o.Defers) (j : Journal) : (o.replay j).Defers := by
  induction j generalizing o with
  | nil => exact h
  | cons e j ih => exact ih (h.follow e)

theorem Defers.flushed {j : Journal} (h : o.Defers) (hclosed : ∀ e ∈ j, ∀ failure, e ≠ .closed failure) :
    o.flushed j = [] := by
  induction j generalizing o with
  | nil => rfl
  | cons e j ih =>
    have hentry : o.entryFlushed e = [] := by
      cases e with
      | closed failure => exact absurd rfl (hclosed _ List.mem_cons_self failure)
      | left c failure =>
        cases c with
        | block =>
          cases failure with
          | none => exact h.blockFlushed
          | some f => rfl
        | _ => rfl
      | _ => rfl
    rw [Outputs.flushed, hentry, List.nil_append]
    exact ih (h.follow e) fun e' he' => hclosed e' (List.mem_cons_of_mem _ he')

/-- Outputs `o` have the output folder of outputs `o'`, on a disk that trails the one of theirs. -/
structure Trails (last : Disk) (o o' : Outputs) : Prop where
  folder : o'.folder = o.folder
  disk : Disk.Trails last o.disk o'.disk

variable {last : Disk}

theorem staged_untouched (o : Outputs) (item : OutputItem) :
    (o.follow (.staged item)).1.folder = o.folder ∧ (o.follow (.staged item)).1.disk = o.disk := by
  rw [Outputs.follow]
  cases item with
  | row table cells =>
    rw [Outputs.stage]
    rcases o.tables.addRow table cells with e | t
    · exact ⟨rfl, rfl⟩
    · exact ⟨rfl, rfl⟩
  | _ => exact ⟨rfl, rfl⟩

theorem folder_follow (o : Outputs) {e : JournalEntry} (hmoved : ∀ path, e ≠ .moved path) :
    (o.follow e).1.folder = o.folder := by
  cases e with
  | entered x => rfl
  | staged item => exact (o.staged_untouched item).1
  | moved path => exact absurd rfl (hmoved path)
  | closed failure => cases failure <;> rfl
  | left c failure => cases c <;> cases failure <;> rfl

theorem Trails.moveTo (h : Trails last o o') {path : String}
    (hlast : (o.moveTo path).disk.Grows last) :
    (o'.disk.makeFolders path).2 = (o.disk.makeFolders path).2 ∧
      Trails last (o.moveTo path) (o'.moveTo path) := by
  rw [disk_moveTo] at hlast
  obtain ⟨hresult, htrails⟩ := h.disk.makeFolders hlast
  refine ⟨hresult, ?_⟩
  unfold Outputs.moveTo
  rcases hmade : o.disk.makeFolders path with ⟨disk, failure⟩
  rcases hmade' : o'.disk.makeFolders path with ⟨disk', failure'⟩
  rw [hmade, hmade'] at hresult htrails
  obtain rfl : failure' = failure := hresult
  cases failure' with
  | none => exact ⟨rfl, htrails⟩
  | some e => exact ⟨h.folder, htrails⟩

/-- Before the closing only the second outputs write, and only files that the last disk has. -/
theorem Trails.follow (h : Trails last o o') (hdefers : o.Defers) {e : JournalEntry}
    (hclosed : ∀ failure, e ≠ .closed failure) (hlast : (o.follow e).1.disk.Grows last)
    (hwritten : ∀ w ∈ o'.entryFlushed e, (last.text? (w.location o'.disk)).isSome = true) :
    Trails last (o.follow e).1 (o'.follow e).1 := by
  cases e with
  | entered x => exact h
  | staged item =>
    obtain ⟨hfolder, hdisk⟩ := o.staged_untouched item
    obtain ⟨hfolder', hdisk'⟩ := o'.staged_untouched item
    refine ⟨?_, ?_⟩
    · rw [hfolder, hfolder', h.folder]
    · rw [hdisk, hdisk']
      exact h.disk
  | moved path => exact (h.moveTo hlast).2
  | closed failure => exact absurd rfl (hclosed failure)
  | left c failure =>
    cases c with
    | block =>
      cases failure with
      | none =>
        refine ⟨h.folder, ?_⟩
        show Disk.Trails last o.endBlock.1.disk o'.endBlock.1.disk
        rw [hdefers.endBlock]
        exact h.disk.write o'.wrote_endBlock o'.sameFolders_endBlock hwritten
      | some f => exact ⟨h.folder, h.disk⟩
    | _ => exact h

section Headers
variable (h : o'.tables.headers = o.tables.headers)
include h

/-- Which rows are refused depends on the columns of the tables only. -/
theorem stage_error_of_headers {item : OutputItem} {e : WriterError} (hstage : o.stage item = .error e) :
    o'.stage item = .error e := by
  cases item with
  | row table cells =>
    rw [Outputs.stage, Tables.addRow] at hstage ⊢
    rw [h]
    rcases hheader : o.tables.headers.lookup table with _ | header
    · rw [hheader] at hstage
      cases hstage
    · rw [hheader] at hstage
      dsimp only at hstage ⊢
      split at hstage
      · cases hstage
      · next hne =>
        rw [if_neg hne]
        exact hstage
  | _ => cases hstage

theorem headers_follow (e : JournalEntry) :
    (o'.follow e).1.tables.headers = (o.follow e).1.tables.headers := by
  have hblock : ∀ p : Outputs, p.endBlock.1.tables.headers = p.tables.headers :=
    fun _ => headers_writeTables _ _ _ _
  have hprogram : ∀ p : Outputs, p.endProgram.1.tables.headers = p.tables.headers :=
    fun _ => headers_writeTables _ _ _ _
  cases e with
  | entered x => exact h
  | staged item =>
    rw [Outputs.follow, Outputs.follow]
    cases item with
    | row table cells =>
      rw [Outputs.stage, Outputs.stage, Tables.addRow, Tables.addRow, h]
      rcases o.tables.headers.lookup table with _ | header
      · rfl
      · by_cases hcolumns : header = cells.map (·.1)
        · simp only [if_pos hcolumns]
          rfl
        · simp only [if_neg hcolumns]
          exact h
    | _ => exact h
  | moved path =>
    have hmoved : ∀ p : Outputs, (p.moveTo path).tables = p.tables := by
      intro p
      rw [moveTo]
      split <;> rfl
    rw [Outputs.follow, Outputs.follow, hmoved, hmoved]
    exact h
  | closed failure =>
    cases failure with
    | none => exact (hprogram o').trans (h.trans (hprogram o).symm)
    | some f => exact (hprogram o'.discard).trans (h.trans (hprogram o.discard).symm)
  | left c failure =>
    cases c with
    | block =>
      cases failure with
      | none => exact (hblock o').trans (h.trans (hblock o).symm)
      | some f => exact h
    | _ => exact h

theorem headers_replay (j : Journal) :
    (o'.replay j).tables.headers = (o.replay j).tables.headers := by
  induction j generalizing o o' with
  | nil => exact h
  | cons e j ih => exact ih (headers_follow h e)

theorem failure_of_headers {e : JournalEntry} (hdecision : e.decision? = none) :
    (o'.follow e).2 = (o.follow e).2 := by
  cases e with
  | staged item =>
    rw [Outputs.follow, Outputs.follow]
    rcases hitem : o.stage item with e | o₁
    · rw [stage_error_of_headers h hitem]
    · rcases hitem' : o'.stage item with e | o₁'
      · rw [stage_error_of_headers h.symm hitem'] at hitem
        cases hitem
      · rfl
  | closed failure => cases hdecision
  | left c failure =>
    cases c with
    | block => cases hdecision
    | _ => rfl
  | _ => rfl

theorem accepts_of_headers {j : Journal} (haccepts : o.Accepts j) : o'.Accepts j := by
  induction j generalizing o o' with
  | nil => trivial
  | cons e j ih =>
    refine ⟨fun hstaged => ?_, ih (headers_follow h e) haccepts.2⟩
    rw [failure_of_headers h]
    · exact haccepts.1 hstaged
    · obtain ⟨item, rfl⟩ := hstaged
      rfl

end Headers
end Outputs
end ChainQuery
