import ChainQuery.Proofs.Output.Replay
import ChainQuery.Proofs.Output.TableAccounts
import ChainQuery.Proofs.Results

/-!
# Accounts of all outputs

The four writers share the disk and the network. As long as no write fails, they hold what a journal
has staged and nothing else, and when the outputs are closed the items that were kept have arrived.
-/

namespace ChainQuery

namespace FileWrite

theorem extension_ne {ws : List FileWrite} {own extension : String}
    (h : ∀ w ∈ ws, w.extension = own) (hne : own ≠ extension) :
    ∀ w ∈ ws, w.extension ≠ extension := by
  intro w hw
  rw [h w hw]
  exact hne

theorem toFile_eq_nil_of_extension {ws : List FileWrite} {name extension : String}
    (h : ∀ w ∈ ws, w.extension ≠ extension) : toFile name extension ws = [] := by
  refine List.filter_eq_nil_iff.mpr fun w hw => ?_
  simp [h w hw]

end FileWrite

theorem Tables.Holds.same {t : Tables} {kept waiting : List OutputItem} {us vs : List FileWrite}
    (h : t.Holds kept waiting us) (hvs : ∀ w ∈ vs, w.extension ≠ "csv") :
    t.Holds kept waiting (us ++ vs) := by
  obtain ⟨hcolumns, done, hsplits, hparts⟩ := h
  exact ⟨hcolumns, done, hsplits, fun table =>
    (hparts table).same (FileWrite.toFile_eq_nil_of_extension hvs)⟩

theorem LineLog.Holds.same {l : LineLog} {kept waiting : List OutputItem} {us vs : List FileWrite}
    (h : l.Holds kept waiting us) (hvs : ∀ w ∈ vs, w.extension ≠ "txt") :
    l.Holds kept waiting (us ++ vs) := by
  obtain ⟨done, hsplits, hparts⟩ := h
  exact ⟨done, hsplits, hparts.same (FileWrite.toFile_eq_nil_of_extension hvs)⟩

namespace EventLogs

structure Holds (l : EventLogs) (kept waiting : List OutputItem) : Prop where
  staged : l.staged = waiting.filterMap OutputItem.record?
  documents : l.documents = ofItems kept

variable {l : EventLogs} {kept waiting : List OutputItem} {folder : Option String} {d d' : Disk}

theorem Holds.record (h : l.Holds kept waiting) (r : EventRecord) :
    (l.add r).Holds kept (waiting ++ [.record r]) := by
  refine ⟨?_, h.documents⟩
  rw [add, h.staged]
  simp [OutputItem.record?]

theorem Holds.other (h : l.Holds kept waiting) {item : OutputItem} (hitem : item.record? = none) :
    l.Holds kept (waiting ++ [item]) := by
  refine ⟨?_, h.documents⟩
  rw [h.staged]
  simp [hitem]

theorem Holds.discard (h : l.Holds kept waiting) : l.discard.Holds kept [] :=
  ⟨rfl, h.documents⟩

theorem Holds.endBlock (h : l.Holds kept waiting) : l.endBlock.Holds (kept ++ waiting) [] := by
  refine ⟨rfl, ?_⟩
  rw [EventLogs.endBlock, h.staged, h.documents, ofItems, ofItems, List.filterMap_append,
    List.foldl_append]

theorem nodup_keys_ofItems (items : List OutputItem) : (Keyed.keys (ofItems items)).Nodup := by
  have hfold : ∀ (rs : List EventRecord) (documents : Keyed Document),
      (Keyed.keys documents).Nodup → (Keyed.keys (rs.foldl mergeRecord documents)).Nodup := by
    intro rs
    induction rs with
    | nil => exact fun _ h => h
    | cons r rs ih => exact fun documents h => ih _ (Keyed.nodup_keys_modify h)
  exact hfold _ [] List.nodup_nil

def documentWrite (f process : String) (traces : Document) : FileWrite :=
  ⟨f, process, "xes", .replace, Document.text traces⟩

def flushed (folder : Option String) : Disk → Keyed Document → List FileWrite
  | _, [] => []
  | d, (process, traces) :: documents =>
    let step := OutputFile.write d .replace folder process "xes" (Document.text traces)
    FileWrite.made folder step.2 (documentWrite · process traces) ++
      flushed folder step.1 documents

theorem mem_flushed {documents : Keyed Document} {w : FileWrite} (h : w ∈ flushed folder d documents) :
    folder = some w.folder ∧ w.extension = "xes" := by
  induction documents generalizing d with
  | nil => exact absurd h List.not_mem_nil
  | cons entry documents ih =>
    rcases List.mem_append.mp h with h | h
    · obtain ⟨f, hfolder, rfl⟩ := FileWrite.mem_made h
      exact ⟨hfolder, rfl⟩
    · exact ih h

theorem writeDocuments_flushed (folder : Option String) (d : Disk) (documents : Keyed Document) :
    d.Wrote (flushed folder d documents) (writeDocuments folder d documents).1 := by
  induction documents generalizing d with
  | nil => exact Disk.wrote_nil rfl fun _ => rfl
  | cons entry documents ih =>
    obtain ⟨process, traces⟩ := entry
    rw [writeDocuments, flushed]
    rcases hwrite : OutputFile.write d .replace folder process "xes" (Document.text traces) with
      ⟨d₁, failure⟩
    exact (OutputFile.wrote_made hwrite).append (ih d₁)

theorem toFile_flushed {documents : Keyed Document} (h : (writeDocuments folder d documents).2 = none)
    (hkeys : (Keyed.keys documents).Nodup) (process : String) :
    ∃ f, FileWrite.toFile process "xes" (flushed folder d documents) =
      ((documents.lookup process).map (documentWrite f process)).toList := by
  induction documents generalizing d with
  | nil => exact ⟨"", rfl⟩
  | cons entry documents ih =>
    obtain ⟨key, traces⟩ := entry
    obtain ⟨hkey, hkeys'⟩ := List.nodup_cons.mp hkeys
    rw [writeDocuments] at h
    rw [flushed]
    rcases hfirst : OutputFile.write d .replace folder key "xes" (Document.text traces) with
      ⟨d₁, _ | e⟩
    · simp only [hfirst] at h ⊢
      obtain ⟨f, rfl, -⟩ := OutputFile.wrote hfirst
      obtain ⟨f', hf'⟩ := ih h hkeys'
      rw [FileWrite.toFile_append]
      by_cases hprocess : process = key
      · subst hprocess
        refine ⟨f, ?_⟩
        rw [hf', Keyed.lookup_eq_none hkey]
        simp [FileWrite.made, FileWrite.toFile, documentWrite]
      · refine ⟨f', ?_⟩
        rw [hf', Keyed.lookup_cons_of_ne hprocess]
        simp [FileWrite.made, FileWrite.toFile, documentWrite, Ne.symm hprocess]
    · simp only [hfirst] at h
      cases h

end EventLogs

namespace Outputs

def blockFlushed (o : Outputs) : List FileWrite :=
  Tables.flushed o.folder { o.tables with rows := o.tables.rows.endBlock.1 } o.disk
      (TableRow.byTable o.tables.rows.endBlock.2) ++
    LineLog.flushed o.folder { o.lines with lines := o.lines.lines.endBlock.1 }
      (o.tables.endBlock o.folder o.disk).2.1 o.lines.lines.endBlock.2

def programFlushed (o : Outputs) : List FileWrite :=
  let tablesDisk := (o.tables.endProgram o.folder o.disk).2.1
  Tables.flushed o.folder { o.tables with rows := o.tables.rows.endProgram.1 } o.disk
      (TableRow.byTable o.tables.rows.endProgram.2) ++
    LineLog.flushed o.folder { o.lines with lines := o.lines.lines.endProgram.1 } tablesDisk
      o.lines.lines.endProgram.2 ++
    EventLogs.flushed o.folder (o.lines.endProgram o.folder tablesDisk).2.1 o.events.endBlock.documents

def entryFlushed (o : Outputs) : JournalEntry → List FileWrite
  | .left .block none => o.blockFlushed
  | .closed none => o.programFlushed
  | .closed (some _) => o.discard.programFlushed
  | _ => []

def flushed (o : Outputs) : Journal → List FileWrite
  | [] => []
  | e :: j => o.entryFlushed e ++ (o.follow e).1.flushed j

theorem flushed_append (o : Outputs) (j k : Journal) :
    o.flushed (j ++ k) = o.flushed j ++ (o.replay j).flushed k := by
  induction j generalizing o with
  | nil => rfl
  | cons e j ih => rw [List.cons_append, flushed, flushed, ih, List.append_assoc, replay_cons]

theorem flushed_concat (o : Outputs) (j : Journal) (e : JournalEntry) :
    o.flushed (j ++ [e]) = o.flushed j ++ (o.replay j).entryFlushed e := by
  rw [flushed_append, flushed, flushed, List.append_nil]

def Named (w : FileWrite) : Prop :=
  w.extension = "csv" ∨ w.name = "log" ∧ w.extension = "txt" ∨ w.extension = "xes"

theorem mem_blockFlushed {o : Outputs} {w : FileWrite} (h : w ∈ o.blockFlushed) :
    o.folder = some w.folder ∧ (w.extension = "csv" ∨ w.name = "log" ∧ w.extension = "txt") := by
  rcases List.mem_append.mp h with h | h
  · obtain ⟨hfolder, hcsv⟩ := Tables.mem_flushed h
    exact ⟨hfolder, .inl hcsv⟩
  · obtain ⟨hfolder, htxt⟩ := LineLog.mem_flushed h
    exact ⟨hfolder, .inr htxt⟩

theorem mem_programFlushed {o : Outputs} {w : FileWrite} (h : w ∈ o.programFlushed) :
    o.folder = some w.folder ∧ Named w := by
  rcases List.mem_append.mp h with h | h
  · rcases List.mem_append.mp h with h | h
    · obtain ⟨hfolder, hcsv⟩ := Tables.mem_flushed h
      exact ⟨hfolder, .inl hcsv⟩
    · obtain ⟨hfolder, htxt⟩ := LineLog.mem_flushed h
      exact ⟨hfolder, .inr (.inl htxt)⟩
  · obtain ⟨hfolder, hxes⟩ := EventLogs.mem_flushed h
    exact ⟨hfolder, .inr (.inr hxes)⟩

theorem mem_entryFlushed {o : Outputs} {e : JournalEntry} {w : FileWrite} (h : w ∈ o.entryFlushed e) :
    o.folder = some w.folder ∧ Named w := by
  cases e with
  | closed failure =>
    cases failure with
    | none => exact mem_programFlushed h
    | some f => exact mem_programFlushed (o := o.discard) h
  | left c failure =>
    cases c with
    | block =>
      cases failure with
      | none =>
        obtain ⟨hfolder, hname⟩ := mem_blockFlushed h
        exact ⟨hfolder, hname.imp_right .inl⟩
      | some f => exact absurd h List.not_mem_nil
    | _ => exact absurd h List.not_mem_nil
  | _ => exact absurd h List.not_mem_nil

theorem named_of_mem_flushed {o : Outputs} {j : Journal} {w : FileWrite} (h : w ∈ o.flushed j) :
    Named w := by
  induction j generalizing o with
  | nil => exact absurd h List.not_mem_nil
  | cons e j ih =>
    rcases List.mem_append.mp h with h | h
    · exact (mem_entryFlushed h).2
    · exact ih h

section Ends
variable {o : Outputs} {tables : Tables} {lines : LineLog} {events : EventLogs}
variable {d d' d'' : Disk} {tableFailure lineFailure eventFailure : Option WriterError}

section Block
variable (ht : o.tables.endBlock o.folder o.disk = (tables, d, tableFailure))
variable (hl : o.lines.endBlock o.folder d = (lines, d', lineFailure))
include ht

theorem endBlock_eq (hl : o.lines.endBlock o.folder d = (lines, d', lineFailure)) :
    o.endBlock = ({ o with
      tables := tables, lines := lines, events := o.events.endBlock
      deliveries := (o.deliveries.endBlock o.wire).1, disk := d'
      wire := (o.deliveries.endBlock o.wire).2 }, tableFailure <|> lineFailure) := by
  simp only [Outputs.endBlock, ht, hl]

theorem blockFlushed_eq : o.blockFlushed =
    Tables.flushed o.folder { o.tables with rows := o.tables.rows.endBlock.1 } o.disk
        (TableRow.byTable o.tables.rows.endBlock.2) ++
      LineLog.flushed o.folder { o.lines with lines := o.lines.lines.endBlock.1 } d
        o.lines.lines.endBlock.2 := by
  rw [blockFlushed, ht]

end Block

section Closing
variable (ht : o.tables.endProgram o.folder o.disk = (tables, d, tableFailure))
variable (hl : o.lines.endProgram o.folder d = (lines, d', lineFailure))
include ht hl

theorem endProgram_eq (he : o.events.endProgram o.folder d' = (events, d'', eventFailure)) :
    o.endProgram = ({ o with
      tables := tables, lines := lines, events := events
      deliveries := (o.deliveries.endProgram o.wire).1, disk := d''
      wire := (o.deliveries.endProgram o.wire).2 },
      tableFailure <|> lineFailure <|> eventFailure) := by
  simp only [Outputs.endProgram, ht, hl, he]

theorem programFlushed_eq : o.programFlushed =
    Tables.flushed o.folder { o.tables with rows := o.tables.rows.endProgram.1 } o.disk
        (TableRow.byTable o.tables.rows.endProgram.2) ++
      LineLog.flushed o.folder { o.lines with lines := o.lines.lines.endProgram.1 } d
        o.lines.lines.endProgram.2 ++
      EventLogs.flushed o.folder d' o.events.endBlock.documents := by
  simp only [programFlushed, ht, hl]

end Closing
end Ends

theorem wrote_endBlock (o : Outputs) : o.disk.Wrote o.blockFlushed o.endBlock.1.disk := by
  rcases ht : o.tables.endBlock o.folder o.disk with ⟨tables, d, tableFailure⟩
  rcases hl : o.lines.endBlock o.folder d with ⟨lines, d', lineFailure⟩
  have htables : Tables.writeTables { o.tables with rows := o.tables.rows.endBlock.1 } o.folder o.disk
    (TableRow.byTable o.tables.rows.endBlock.2) = (tables, d, tableFailure) := ht
  have hlines : LineLog.writeLines { o.lines with lines := o.lines.lines.endBlock.1 } o.folder d
    o.lines.lines.endBlock.2 = (lines, d', lineFailure) := hl
  rw [endBlock_eq ht hl, blockFlushed_eq ht]
  exact (Tables.writeTables_flushed htables (TableRow.nodup_keys_byTable _)).1.append
    (LineLog.writeLines_flushed hlines).1

theorem wrote_endProgram (o : Outputs) : o.disk.Wrote o.programFlushed o.endProgram.1.disk := by
  rcases ht : o.tables.endProgram o.folder o.disk with ⟨tables, d, tableFailure⟩
  rcases hl : o.lines.endProgram o.folder d with ⟨lines, d', lineFailure⟩
  rcases he : o.events.endProgram o.folder d' with ⟨events, d'', eventFailure⟩
  have htables : Tables.writeTables { o.tables with rows := o.tables.rows.endProgram.1 } o.folder o.disk
    (TableRow.byTable o.tables.rows.endProgram.2) = (tables, d, tableFailure) := ht
  have hlines : LineLog.writeLines { o.lines with lines := o.lines.lines.endProgram.1 } o.folder d
    o.lines.lines.endProgram.2 = (lines, d', lineFailure) := hl
  have hdisk : (EventLogs.writeDocuments o.folder d' o.events.endBlock.documents).1 = d'' :=
    congrArg (fun step => step.2.1) he
  rw [endProgram_eq ht hl he, programFlushed_eq ht hl, ← hdisk]
  exact ((Tables.writeTables_flushed htables (TableRow.nodup_keys_byTable _)).1.append
    (LineLog.writeLines_flushed hlines).1).append (EventLogs.writeDocuments_flushed _ _ _)

theorem wrote_moveTo (o : Outputs) (path : String) : o.disk.Wrote [] (o.moveTo path).disk := by
  obtain ⟨hhome, htext⟩ := o.disk.makeFolders_text path
  unfold Outputs.moveTo
  rcases hfolders : o.disk.makeFolders path with ⟨disk, _ | e⟩
  · rw [hfolders] at hhome htext
    exact Disk.wrote_nil hhome htext
  · rw [hfolders] at hhome htext
    exact Disk.wrote_nil hhome htext

theorem wrote_follow (o : Outputs) (e : JournalEntry) :
    o.disk.Wrote (o.entryFlushed e) (o.follow e).1.disk := by
  have hsame : o.disk.Wrote [] o.disk := Disk.wrote_nil rfl fun _ => rfl
  cases e with
  | entered x => exact hsame
  | staged item =>
    rw [Outputs.follow]
    cases item with
    | row table cells =>
      rw [Outputs.stage]
      rcases o.tables.addRow table cells with e | t
      · exact hsame
      · exact hsame
    | _ => exact hsame
  | moved path => exact o.wrote_moveTo path
  | closed failure =>
    cases failure with
    | none => exact o.wrote_endProgram
    | some f => exact o.discard.wrote_endProgram
  | left c failure =>
    cases c with
    | block =>
      cases failure with
      | none => exact o.wrote_endBlock
      | some f => exact hsame
    | _ => exact hsame

/-- The disk after a journal is the one after the writes of the journal. -/
theorem wrote_replay (o : Outputs) (j : Journal) : o.disk.Wrote (o.flushed j) (o.replay j).disk := by
  induction j generalizing o with
  | nil => exact Disk.wrote_nil rfl fun _ => rfl
  | cons e j ih => exact (o.wrote_follow e).append (ih _)

/-- The writers of outputs `o'` hold what was kept and what waits, since outputs `o`, and have made
writes `ws`. -/
structure Holds (o o' : Outputs) (kept waiting : List OutputItem) (ws : List FileWrite) : Prop where
  tables : o'.tables.Holds kept waiting ws
  lines : o'.lines.Holds kept waiting ws
  events : o'.events.Holds kept waiting
  deliveries : Deliveries.Holds o.deliveries o.wire o'.deliveries o'.wire kept waiting
  /-- No document is written before the end. -/
  undocumented : ∀ w ∈ ws, w.extension ≠ "xes"

theorem holds_start (config : RunConfig) (disk : Disk) (wire : Wire) :
    Holds (start config disk wire) (start config disk wire) [] [] [] where
  tables := ⟨nofun, [], ⟨rfl, [], rfl, rfl⟩, fun _ => .nil (by simp [start])⟩
  lines := ⟨[], ⟨rfl, [], rfl, rfl⟩, .nil (by simp [start])⟩
  events := ⟨rfl, rfl⟩
  deliveries := ⟨[], ⟨rfl, [], rfl, rfl⟩, rfl⟩
  undocumented := nofun

variable {o o' : Outputs} {kept waiting : List OutputItem} {ws : List FileWrite}

theorem Holds.stage (h : Holds o o' kept waiting ws) {item : OutputItem} {o'' : Outputs}
    (hstage : o'.stage item = .ok o'') : Holds o o'' kept (waiting ++ [item]) ws := by
  cases item with
  | row table cells =>
    obtain ⟨t, hadd, rfl⟩ := except_map_eq_ok.mp hstage
    exact ⟨h.tables.row hadd, h.lines.other rfl, h.events.other rfl, h.deliveries.other rfl,
      h.undocumented⟩
  | line text =>
    cases hstage
    exact ⟨h.tables.other rfl, h.lines.line text, h.events.other rfl, h.deliveries.other rfl,
      h.undocumented⟩
  | record r =>
    cases hstage
    exact ⟨h.tables.other rfl, h.lines.other rfl, h.events.record r, h.deliveries.other rfl,
      h.undocumented⟩
  | request d =>
    cases hstage
    exact ⟨h.tables.other rfl, h.lines.other rfl, h.events.other rfl, h.deliveries.request d,
      h.undocumented⟩

theorem Holds.discard (h : Holds o o' kept waiting ws) : Holds o o'.discard kept [] ws :=
  ⟨h.tables.discard, h.lines.discard, h.events.discard, h.deliveries.discard, h.undocumented⟩

theorem Holds.moveTo (h : Holds o o' kept waiting ws) (path : String) :
    Holds o (o'.moveTo path) kept waiting ws := by
  unfold Outputs.moveTo
  split
  · exact ⟨h.tables, h.lines, h.events, h.deliveries, h.undocumented⟩
  · exact ⟨h.tables, h.lines, h.events, h.deliveries, h.undocumented⟩

theorem Holds.endBlock (h : Holds o o' kept waiting ws) (hend : o'.endBlock.2 = none) :
    Holds o o'.endBlock.1 (kept ++ waiting) [] (ws ++ o'.blockFlushed) := by
  rcases ht : o'.tables.endBlock o'.folder o'.disk with ⟨tables, disk, tableFailure⟩
  rcases hl : o'.lines.endBlock o'.folder disk with ⟨lines, disk', lineFailure⟩
  rw [endBlock_eq ht hl] at hend ⊢
  obtain ⟨rfl, rfl⟩ : tableFailure = none ∧ lineFailure = none := by
    cases tableFailure with
    | some e => cases hend
    | none => exact ⟨rfl, hend⟩
  refine ⟨?_, ?_, h.events.endBlock, h.deliveries.endBlock, fun w hw => ?_⟩
  · rw [blockFlushed_eq ht, ← List.append_assoc]
    exact (h.tables.endBlock ht).same
      (FileWrite.extension_ne (fun w hw => (LineLog.mem_flushed hw).2.2) (by decide))
  · rw [blockFlushed_eq ht, ← List.append_assoc]
    exact (h.lines.same
      (FileWrite.extension_ne (fun w hw => (Tables.mem_flushed hw).2) (by decide))).endBlock hl
  · rcases List.mem_append.mp hw with hw | hw
    · exact h.undocumented w hw
    · rcases (mem_blockFlushed hw).2 with hcsv | ⟨-, htxt⟩
      · rw [hcsv]
        decide
      · rw [htxt]
        decide

/-- Writes and deliveries have brought items where they belong. -/
structure Settles (o : Outputs) (items : List OutputItem) (o' : Outputs) (ws : List FileWrite) :
    Prop where
  tables : ∀ table, ∃ opened, FileWrite.Parts ws table "csv" TableRow.recordsText
    (Tables.records table items) opened
  lines : ∃ opened, FileWrite.Parts ws "log" "txt" LineLog.linesText
    (items.filterMap OutputItem.line?) opened
  documents : ∀ process, ∃ f, FileWrite.toFile process "xes" ws =
    (((EventLogs.ofItems items).lookup process).map (EventLogs.documentWrite f process)).toList
  deliveries : o.deliveries.deliver o.wire (items.filterMap OutputItem.request?) =
    ({ o'.deliveries with requests := o.deliveries.requests }, o'.wire)

/-- Once the outputs are closed, the items that were kept have arrived. -/
theorem Holds.endProgram (h : Holds o o' kept waiting ws) (hend : o'.endProgram.2 = none) :
    o.Settles (kept ++ waiting) o'.endProgram.1 (ws ++ o'.programFlushed) := by
  rcases ht : o'.tables.endProgram o'.folder o'.disk with ⟨tables, disk, tableFailure⟩
  rcases hl : o'.lines.endProgram o'.folder disk with ⟨lines, disk', lineFailure⟩
  rcases he : o'.events.endProgram o'.folder disk' with ⟨events, disk'', eventFailure⟩
  rw [endProgram_eq ht hl he] at hend ⊢
  obtain ⟨rfl, rfl, rfl⟩ : tableFailure = none ∧ lineFailure = none ∧ eventFailure = none := by
    cases tableFailure with
    | some e => cases hend
    | none =>
      cases lineFailure with
      | some e => cases hend
      | none => exact ⟨rfl, rfl, hend⟩
  have hcsv : ∀ w ∈ Tables.flushed o'.folder { o'.tables with rows := o'.tables.rows.endProgram.1 }
      o'.disk (TableRow.byTable o'.tables.rows.endProgram.2), w.extension = "csv" :=
    fun w hw => (Tables.mem_flushed hw).2
  have htxt : ∀ w ∈ LineLog.flushed o'.folder { o'.lines with lines := o'.lines.lines.endProgram.1 }
      disk o'.lines.lines.endProgram.2, w.extension = "txt" :=
    fun w hw => (LineLog.mem_flushed hw).2.2
  have hxes : ∀ w ∈ EventLogs.flushed o'.folder disk' o'.events.endBlock.documents,
      w.extension = "xes" := fun w hw => (EventLogs.mem_flushed hw).2
  have hto : ∀ {vs : List FileWrite} {name own extension : String},
      (∀ w ∈ vs, w.extension = own) → own ≠ extension → FileWrite.toFile name extension vs = [] :=
    fun hvs hne => FileWrite.toFile_eq_nil_of_extension (FileWrite.extension_ne hvs hne)
  rw [programFlushed_eq ht hl, ← List.append_assoc, ← List.append_assoc]
  refine ⟨fun table => ⟨tables.opened.contains table = true, ?_⟩, ?_, fun process => ?_,
    h.deliveries.endProgram⟩
  · exact ((h.tables.endProgram ht table).same (hto htxt (by decide))).same (hto hxes (by decide))
  · obtain ⟨opened, hparts⟩ :=
      (h.lines.same (FileWrite.extension_ne hcsv (by decide))).endProgram hl
    exact ⟨opened, hparts.same (hto hxes (by decide))⟩
  · have hdocuments : (EventLogs.writeDocuments o'.folder disk' o'.events.endBlock.documents).2 = none :=
      congrArg (fun step => step.2.2) he
    rw [FileWrite.toFile_append, FileWrite.toFile_append, FileWrite.toFile_append,
      FileWrite.toFile_eq_nil_of_extension h.undocumented, hto hcsv (by decide),
      hto htxt (by decide), List.nil_append, List.nil_append, List.nil_append]
    rw [h.events.endBlock.documents] at hdocuments ⊢
    exact EventLogs.toFile_flushed hdocuments (EventLogs.nodup_keys_ofItems _) process

theorem Settles.received {items : List OutputItem} (h : o.Settles items o' ws)
    (hwrote : o.disk.Wrote ws o'.disk) (hnamed : ∀ w ∈ ws, Named w) : o.Received items o' := by
  obtain ⟨-, posts, hposts, hsent⟩ :=
    Deliveries.deliver_sent o.deliveries o.wire (items.filterMap OutputItem.request?)
  rw [h.deliveries] at hsent
  refine ⟨ws, posts, hwrote, hsent, fun table => ?_, ?_, h.documents, hnamed, hposts⟩
  · obtain ⟨-, parts, hto, hcontents, -⟩ := h.tables table
    exact ⟨parts, hto, hcontents⟩
  · obtain ⟨-, parts, hto, hcontents, -⟩ := h.lines
    exact ⟨parts, hto, hcontents⟩

theorem Holds.follow (h : Holds o o' kept waiting ws) {e : JournalEntry}
    (hclosed : ∀ failure, e ≠ .closed failure) (hsucceeds : (o'.follow e).2 = none) :
    Holds o (o'.follow e).1
      (if e.decision? = some none then kept ++ waiting else kept)
      (if e.decision? = none then waiting ++ e.item?.toList else [])
      (ws ++ o'.entryFlushed e) := by
  cases e with
  | entered x =>
    simpa [Outputs.follow, JournalEntry.decision?, JournalEntry.item?, entryFlushed] using h
  | staged item =>
    cases hstage : o'.stage item with
    | error e =>
      rw [Outputs.follow, hstage] at hsucceeds
      cases hsucceeds
    | ok o'' =>
      rw [Outputs.follow, hstage, entryFlushed, List.append_nil]
      · exact h.stage hstage
      all_goals exact nofun
  | moved path =>
    simpa [Outputs.follow, JournalEntry.decision?, JournalEntry.item?, entryFlushed] using h.moveTo path
  | closed failure => exact absurd rfl (hclosed failure)
  | left c failure =>
    cases c with
    | block =>
      cases failure with
      | none => exact h.endBlock hsucceeds
      | some f =>
        rw [entryFlushed, List.append_nil]
        · exact h.discard
        all_goals exact nofun
    | _ => simpa [Outputs.follow, JournalEntry.decision?, JournalEntry.item?, entryFlushed] using h

theorem holds_replay (j : Journal) (hclosed : ∀ e ∈ j, ∀ failure, e ≠ .closed failure)
    (haccepts : o.Accepts j) (hwrites : o.Writes j) (hstart : Holds o o [] [] []) :
    Holds o (o.replay j) j.kept j.waiting (o.flushed j) := by
  have hall := succeeds_all haccepts hwrites
  revert hclosed
  refine (replay_induction (motive := fun k o' => o' = o.replay k ∧
    ((∀ e ∈ k, ∀ failure, e ≠ .closed failure) →
      Holds o o' (Journal.kept k) (Journal.waiting k) (o.flushed k))) ⟨rfl, fun _ => hstart⟩ ?_ hall).2
  rintro k e o' ⟨rfl, h⟩ hsucceeds
  refine ⟨(replay_concat _ k e).symm, fun hclosed => ?_⟩
  rw [Journal.kept_concat, Journal.waiting_concat, flushed_concat]
  have hk := h fun x hx => hclosed x (List.mem_append_left _ hx)
  exact hk.follow (hclosed e List.mem_concat_self) (hsucceeds trivial)

theorem settles_replay {config : RunConfig} {disk : Disk} {wire : Wire} {j : Journal}
    {failure : Option ExecutionError} (hclosed : ∀ e ∈ j, ∀ failure, e ≠ .closed failure)
    (haccepts : (start config disk wire).Accepts (j ++ [.closed failure]))
    (hwrites : (start config disk wire).Writes (j ++ [.closed failure])) :
    (start config disk wire).Settles (Journal.kept (j ++ [.closed failure]))
      ((start config disk wire).replay (j ++ [.closed failure]))
      ((start config disk wire).flushed (j ++ [.closed failure])) := by
  obtain ⟨hwrites', hend, -⟩ := succeeds_append.mp hwrites
  have hholds := holds_replay j hclosed (succeeds_append.mp haccepts).1 hwrites'
    (holds_start config disk wire)
  rw [replay_append, Journal.kept_concat, flushed_concat]
  cases failure with
  | none => exact hholds.endProgram (hend rfl)
  | some fatal =>
    have hsettles := hholds.discard.endProgram (hend rfl)
    rw [List.append_nil] at hsettles
    exact hsettles

end Outputs
end ChainQuery
