import ChainQuery.Proofs.Output.Growth
import ChainQuery.Proofs.Output.Sources

/-!
# Repeating what was done to the outputs

Outputs on a disk that has grown already follow the same journal with the same failures and the same
writes. Neither depends on the texts of files or on the network.
-/

namespace ChainQuery

/-- An action on the disk that a grown disk repeats, with the same result. -/
structure Disk.Repeats (last : Disk) (folder : Option String) (act : Disk → Disk × α) : Prop where
  grows : ∀ d : Disk, d.Grows (act d).1
  again : ∀ {d d' : Disk}, Ahead last folder d d' → (act d).1.Grows last →
    (act d').2 = (act d).2 ∧ Ahead last folder (act d).1 (act d').1

namespace Disk.Repeats

variable {last : Disk} {folder : Option String} {act : Disk → Disk × α}

theorem pure (a : α) : Repeats last folder fun d => (d, a) :=
  ⟨Grows.refl, fun h _ => ⟨rfl, h⟩⟩

theorem bind {next : α → Disk → Disk × β} (hact : Repeats last folder act)
    (hnext : ∀ a, Repeats last folder (next a)) :
    Repeats last folder fun d => next (act d).2 (act d).1 where
  grows d := (hact.grows d).trans ((hnext _).grows _)
  again := by
    intro d d' h hlast
    obtain ⟨hresult, hahead⟩ := hact.again h (((hnext _).grows _).trans hlast)
    rw [hresult]
    exact (hnext _).again hahead hlast

theorem map (f : α → β) (hact : Repeats last folder act) :
    Repeats last folder fun d => ((act d).1, f (act d).2) :=
  hact.bind fun a => pure (f a)

end Disk.Repeats

section Writers
variable (last : Disk) (folder : Option String)

theorem OutputFile.repeats_write (mode : Disk.WriteMode) (name extension text : String) :
    Disk.Repeats last folder fun d => write d mode folder name extension text := by
  rcases hmake : make folder name extension with e | file
  · simp only [write_of_refused hmake]
    exact .pure _
  · simp only [write_of_make hmake]
    exact Disk.Repeats.map (Option.map WriterError.io)
      ⟨fun d => d.grows_write _ _ _ _, fun h hlast => h.write (make_eq_ok hmake).1 _ _ _ hlast⟩

namespace Tables

theorem repeats_writeTable (t : Tables) (table : String) (records : List (List String)) :
    Disk.Repeats last folder fun d =>
      let w := t.writeTable folder d table records
      (w.2.1, w.1, w.2.2) := by
  simp only [writeTable_eq]
  exact (OutputFile.repeats_write last folder _ _ _ _).map fun failure =>
    (ite (failure = none) _ t, failure)

theorem repeats_writeTables (t : Tables) (tables : Keyed (List (List String))) :
    Disk.Repeats last folder fun d =>
      let w := t.writeTables folder d tables
      (w.2.1, w.1, w.2.2, flushed folder t d tables) := by
  induction tables generalizing t with
  | nil => exact .pure (t, none, [])
  | cons entry tables ih =>
    obtain ⟨table, records⟩ := entry
    exact (repeats_writeTable last folder t table records).bind fun first =>
      (ih first.1).map fun rest => (rest.1, first.2 <|> rest.2.1,
        FileWrite.made folder first.2 (t.dueWrite · table records) ++ rest.2.2)

end Tables

theorem LineLog.repeats_writeLines (l : LineLog) (lines : List String) :
    Disk.Repeats last folder fun d =>
      let w := l.writeLines folder d lines
      (w.2.1, w.1, w.2.2, flushed folder l d lines) := by
  unfold flushed
  by_cases hlines : lines = []
  · simp only [writeLines, hlines, if_pos]
    exact .pure _
  · simp only [writeLines_eq l folder _ hlines, if_neg hlines]
    exact (OutputFile.repeats_write last folder _ _ _ _).map fun failure =>
      (ite (failure = none) _ l, failure, FileWrite.made folder failure _)

theorem EventLogs.repeats_writeDocuments (documents : Keyed Document) :
    Disk.Repeats last folder fun d =>
      let w := writeDocuments folder d documents
      (w.1, w.2, flushed folder d documents) := by
  induction documents with
  | nil => exact .pure (none, [])
  | cons entry documents ih =>
    obtain ⟨process, traces⟩ := entry
    exact (OutputFile.repeats_write last folder .replace process "xes" (Document.text traces)).bind
      fun failure => ih.map fun rest => (failure <|> rest.1,
        FileWrite.made folder failure (documentWrite · process traces) ++ rest.2)

end Writers

namespace Outputs

/-- Outputs `o'` are to outputs `o` of a run as in its repetition. Deliveries may go differently. -/
structure Ahead (last : Disk) (o o' : Outputs) : Prop where
  folder : o'.folder = o.folder
  tables : o'.tables = o.tables
  lines : o'.lines = o.lines
  events : o'.events = o.events
  disk : Disk.Ahead last o.folder o.disk o'.disk

section Ends
variable (last : Disk) (folder : Option String) (tables : Tables) (lines : LineLog)

theorem repeats_endBlock :
    Disk.Repeats last folder fun d =>
      let t := tables.endBlock folder d
      let l := lines.endBlock folder t.2.1
      (l.2.1, t.1, l.1, t.2.2 <|> l.2.2,
        Tables.flushed folder { tables with rows := tables.rows.endBlock.1 } d
            (TableRow.byTable tables.rows.endBlock.2) ++
          LineLog.flushed folder { lines with lines := lines.lines.endBlock.1 } t.2.1
            lines.lines.endBlock.2) := by
  have htables := Tables.repeats_writeTables last folder
    { tables with rows := tables.rows.endBlock.1 } (TableRow.byTable tables.rows.endBlock.2)
  have hlines := LineLog.repeats_writeLines last folder
    { lines with lines := lines.lines.endBlock.1 } lines.lines.endBlock.2
  exact htables.bind fun t => hlines.map fun l => (t.1, l.1, t.2.1 <|> l.2.1, t.2.2 ++ l.2.2)

theorem repeats_endProgram (events : EventLogs) :
    Disk.Repeats last folder fun d =>
      let t := tables.endProgram folder d
      let l := lines.endProgram folder t.2.1
      let e := events.endProgram folder l.2.1
      (e.2.1, t.1, l.1, t.2.2 <|> l.2.2 <|> e.2.2,
        Tables.flushed folder { tables with rows := tables.rows.endProgram.1 } d
            (TableRow.byTable tables.rows.endProgram.2) ++
          LineLog.flushed folder { lines with lines := lines.lines.endProgram.1 } t.2.1
            lines.lines.endProgram.2 ++
          EventLogs.flushed folder l.2.1 events.endBlock.documents) := by
  have htables := Tables.repeats_writeTables last folder
    { tables with rows := tables.rows.endProgram.1 } (TableRow.byTable tables.rows.endProgram.2)
  have hlines := LineLog.repeats_writeLines last folder
    { lines with lines := lines.lines.endProgram.1 } lines.lines.endProgram.2
  have hevents := EventLogs.repeats_writeDocuments last folder events.endBlock.documents
  exact htables.bind fun t => hlines.bind fun l => hevents.map fun e =>
    (t.1, l.1, t.2.1 <|> l.2.1 <|> e.1, t.2.2 ++ l.2.2 ++ e.2)

end Ends

variable {last : Disk} {o o' : Outputs}

theorem Ahead.endBlock (h : Ahead last o o') (hlast : o.endBlock.1.disk.Grows last) :
    o'.endBlock.2 = o.endBlock.2 ∧ Ahead last o.endBlock.1 o'.endBlock.1 ∧
      o'.blockFlushed = o.blockFlushed := by
  obtain ⟨folder, tables, lines, events, deliveries, disk, wire⟩ := o'
  obtain ⟨rfl, rfl, rfl, rfl, hdisk⟩ := h
  obtain ⟨hresult, hahead⟩ := (repeats_endBlock last o.folder o.tables o.lines).again hdisk hlast
  obtain ⟨htables, hrest⟩ := Prod.mk.inj hresult
  obtain ⟨hlines, hrest⟩ := Prod.mk.inj hrest
  obtain ⟨hfailure, hflushed⟩ := Prod.mk.inj hrest
  exact ⟨hfailure, ⟨rfl, htables, hlines, rfl, hahead⟩, hflushed⟩

theorem Ahead.endProgram (h : Ahead last o o') (hlast : o.endProgram.1.disk.Grows last) :
    o'.endProgram.2 = o.endProgram.2 ∧ Ahead last o.endProgram.1 o'.endProgram.1 ∧
      o'.programFlushed = o.programFlushed := by
  obtain ⟨folder, tables, lines, events, deliveries, disk, wire⟩ := o'
  obtain ⟨rfl, rfl, rfl, rfl, hdisk⟩ := h
  obtain ⟨hresult, hahead⟩ :=
    (repeats_endProgram last o.folder o.tables o.lines o.events).again hdisk hlast
  obtain ⟨htables, hrest⟩ := Prod.mk.inj hresult
  obtain ⟨hlines, hrest⟩ := Prod.mk.inj hrest
  obtain ⟨hfailure, hflushed⟩ := Prod.mk.inj hrest
  exact ⟨hfailure, ⟨rfl, htables, hlines, rfl, hahead⟩, hflushed⟩

theorem Ahead.discard (h : Ahead last o o') : Ahead last o.discard o'.discard := by
  refine ⟨h.folder, ?_, ?_, ?_, h.disk⟩
  · exact congrArg Tables.discard h.tables
  · exact congrArg LineLog.discard h.lines
  · exact congrArg EventLogs.discard h.events

theorem Ahead.stage (h : Ahead last o o') (item : OutputItem) :
    match o.stage item with
    | .ok o₁ => ∃ o₁', o'.stage item = .ok o₁' ∧ Ahead last o₁ o₁'
    | .error e => o'.stage item = .error e := by
  cases item with
  | row table cells =>
    rw [Outputs.stage, Outputs.stage, h.tables]
    rcases o.tables.addRow table cells with e | t
    · rfl
    · exact ⟨_, rfl, h.folder, rfl, h.lines, h.events, h.disk⟩
  | line text => exact ⟨_, rfl, h.folder, h.tables, congrArg (·.addLine text) h.lines, h.events, h.disk⟩
  | record r => exact ⟨_, rfl, h.folder, h.tables, h.lines, congrArg (·.add r) h.events, h.disk⟩
  | request d => exact ⟨_, rfl, h.folder, h.tables, h.lines, h.events, h.disk⟩

theorem disk_moveTo (o : Outputs) (path : String) :
    (o.moveTo path).disk = (o.disk.makeFolders path).1 := by
  unfold Outputs.moveTo
  rcases o.disk.makeFolders path with ⟨disk, _ | e⟩
  · rfl
  · rfl

theorem Ahead.moveTo (h : Ahead last o o') {path : String}
    (hlast : (o.moveTo path).disk.Grows last) :
    (o'.disk.makeFolders path).2 = (o.disk.makeFolders path).2 ∧
      Ahead last (o.moveTo path) (o'.moveTo path) := by
  rw [disk_moveTo] at hlast
  obtain ⟨hsame, hahead, hreach⟩ := h.disk.makeFolders hlast
  refine ⟨by rw [hsame], ?_⟩
  unfold Outputs.moveTo
  rw [hsame]
  rcases hmade : o.disk.makeFolders path with ⟨disk, _ | e⟩
  · rw [hmade] at hahead hreach
    refine ⟨rfl, h.tables, h.lines, h.events, { hahead with reach := fun f hf => ?_ }⟩
    cases hf
    exact hreach rfl
  · rw [hmade] at hahead
    exact ⟨h.folder, h.tables, h.lines, h.events, hahead⟩

theorem grows_follow (o : Outputs) (e : JournalEntry) : o.disk.Grows (o.follow e).1.disk := by
  have hstage : ∀ item, o.disk.Grows (o.follow (.staged item)).1.disk := by
    intro item
    cases item with
    | row table cells =>
      rw [Outputs.follow, Outputs.stage]
      rcases o.tables.addRow table cells with e | t
      · exact .refl _
      · exact .refl _
    | _ => exact .refl _
  have hends : ∀ p : Outputs, p.disk.Grows p.endProgram.1.disk := fun p =>
    (repeats_endProgram p.disk p.folder p.tables p.lines p.events).grows p.disk
  cases e with
  | entered x => exact .refl _
  | staged item => exact hstage item
  | moved path =>
    rw [Outputs.follow, disk_moveTo]
    exact o.disk.grows_makeFolders path
  | closed failure =>
    cases failure with
    | none => exact hends o
    | some f => exact hends o.discard
  | left c failure =>
    cases c with
    | block =>
      cases failure with
      | none => exact (repeats_endBlock o.disk o.folder o.tables o.lines).grows o.disk
      | some f => exact .refl _
    | _ => exact .refl _

theorem grows_replay (o : Outputs) (j : Journal) : o.disk.Grows (o.replay j).disk := by
  induction j generalizing o with
  | nil => exact .refl _
  | cons e j ih => exact (o.grows_follow e).trans (ih _)

/-- The repetition follows an entry with the same failure and the same writes. -/
theorem Ahead.follow (h : Ahead last o o') {e : JournalEntry}
    (hlast : (o.follow e).1.disk.Grows last) :
    (o'.follow e).2 = (o.follow e).2 ∧ Ahead last (o.follow e).1 (o'.follow e).1 ∧
      o'.entryFlushed e = o.entryFlushed e := by
  cases e with
  | entered x => exact ⟨rfl, h, rfl⟩
  | staged item =>
    have hstage := h.stage item
    rw [Outputs.follow, Outputs.follow]
    rcases hitem : o.stage item with e | o₁
    · rw [hitem] at hstage
      rw [show o'.stage item = .error e from hstage]
      exact ⟨rfl, h, rfl⟩
    · rw [hitem] at hstage
      obtain ⟨o₁', hitem', hahead⟩ := hstage
      rw [hitem']
      exact ⟨rfl, hahead, rfl⟩
  | moved path => exact ⟨rfl, (h.moveTo hlast).2, rfl⟩
  | closed failure =>
    cases failure with
    | none => exact h.endProgram hlast
    | some f => exact h.discard.endProgram hlast
  | left c failure =>
    cases c with
    | block =>
      cases failure with
      | none => exact h.endBlock hlast
      | some f => exact ⟨rfl, h.discard, rfl⟩
    | _ => exact ⟨rfl, h, rfl⟩

theorem Ahead.flushed {j : Journal} (h : Ahead last o o') (hlast : (o.replay j).disk.Grows last) :
    o'.flushed j = o.flushed j := by
  induction j generalizing o o' with
  | nil => rfl
  | cons e j ih =>
    rw [replay_cons] at hlast
    obtain ⟨-, hahead, hentry⟩ := h.follow (((o.follow e).1.grows_replay j).trans hlast)
    rw [Outputs.flushed, Outputs.flushed, hentry, ih hahead hlast]

end Outputs
end ChainQuery
