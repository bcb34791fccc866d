import ChainQuery.Proofs.Output.Folders
import ChainQuery.Proofs.Output.Handovers

/-!
# Writes that are refused

Two disks may refuse different writes. As long as the output folder is kept once a file is written, the
outputs on both follow a journal side by side: a file that is refused the same writes has the same text
on both, whatever becomes of the other files, the same requests are posted, and the same folders are
made.
-/

namespace ChainQuery

namespace Disk

/-- How often and when a disk refuses the writes to its files. -/
abbrev Refusal := Location → Nat → Bool

/-- A disk `d` from a disk `base`, beside a disk `d'` from the same one with other refusals `q`. The
same writes were tried on both, and a file that is refused the same ones is the same on both. -/
structure Beside (base : Disk) (q : Refusal) (d d' : Disk) : Prop where
  home : d.home = base.home
  home' : d'.home = base.home
  refuses : d.refuses = base.refuses
  refuses' : d'.refuses = q
  written : d'.written = d.written
  folders : d.SameFolders d'
  node : ∀ {loc}, q loc = base.refuses loc → d'.node? loc = d.node? loc

variable {base d d' : Disk} {q : Refusal}

theorem beside_start (base : Disk) (q : Refusal) : Beside base q base { base with refuses := q } where
  home := rfl
  home' := rfl
  refuses := rfl
  refuses' := rfl
  written := rfl
  folders _ := .rfl
  node _ := rfl

theorem node?_put_of_ne {loc l : Location} (h : l ≠ loc) (node : DiskNode) :
    (d.put loc node).node? l = d.node? l := by
  rw [node?_put, if_neg (Ne.symm h)]
  split
  · next hroot =>
    rw [hroot]
    rfl
  · rfl

/-- A disk after a write to a file was tried. Nothing else on it has changed. -/
structure Touched (loc : Location) (d d₁ : Disk) : Prop where
  home : d₁.home = d.home
  refuses : d₁.refuses = d.refuses
  written : d₁.written = loc :: d.written
  folders : d.SameFolders d₁
  node : ∀ {l}, l ≠ loc → d₁.node? l = d.node? l

theorem touched_write {folder name : String} {loc : Location} (hlocate : d.locate folder name = .ok loc)
    (mode : WriteMode) (text : String) : Touched loc d (d.write mode folder name text).1 := by
  have htried : Touched loc d { d with written := loc :: d.written } :=
    ⟨rfl, rfl, rfl, .refl d, fun _ => rfl⟩
  unfold write
  rw [hlocate]
  dsimp only
  split
  · exact htried
  · next hnode =>
    split
    · exact htried
    · exact ⟨rfl, rfl, rfl, sameFolders_put hnode, fun hl => node?_put_of_ne hl _⟩

namespace Beside

variable (h : Beside base q d d') {loc : Location}
include h

theorem same_home : d'.home = d.home :=
  h.home'.trans h.home.symm

theorem locate_iff {folder name : String} :
    d'.locate folder name = .ok loc ↔ d.locate folder name = .ok loc :=
  ⟨h.folders.symm.locate h.same_home.symm, h.folders.locate h.same_home⟩

/-- Trying a write to the same file keeps disks beside each other, if it changes the file alike where
it is refused the same writes. -/
theorem touched {d₁ d₁' : Disk} (hd : Touched loc d d₁) (hd' : Touched loc d' d₁')
    (hsame : q loc = base.refuses loc → d₁'.node? loc = d₁.node? loc) : Beside base q d₁ d₁' where
  home := hd.home.trans h.home
  home' := hd'.home.trans h.home'
  refuses := hd.refuses.trans h.refuses
  refuses' := hd'.refuses.trans h.refuses'
  written := by rw [hd.written, hd'.written, h.written]
  folders := hd.folders.symm.trans (h.folders.trans hd'.folders)
  node {l} hl := by
    by_cases heq : l = loc
    · rw [heq]
      exact hsame (heq ▸ hl)
    · rw [hd.node heq, hd'.node heq]
      exact h.node hl

theorem write_alike {folder name : String} (hlocate : d.locate folder name = .ok loc)
    (hloc : q loc = base.refuses loc) (mode : WriteMode) (text : String) :
    (d'.write mode folder name text).1.node? loc = (d.write mode folder name text).1.node? loc ∧
      (d'.write mode folder name text).2 = (d.write mode folder name text).2 := by
  have hnode := h.node hloc
  have hrefused : d'.refuses loc (d'.written.count loc) = d.refuses loc (d.written.count loc) := by
    rw [h.refuses', h.refuses, h.written, hloc]
  have htext : d'.text? loc = d.text? loc := by
    unfold text?
    rw [hnode]
  unfold Disk.write
  rw [hlocate, h.locate_iff.mpr hlocate]
  dsimp only
  rw [hnode, hrefused, htext]
  split
  · exact ⟨hnode, rfl⟩
  · split
    · exact ⟨hnode, rfl⟩
    · refine ⟨?_, rfl⟩
      rw [node?_put, node?_put]
      split
      · rfl
      · rw [if_pos rfl, if_pos rfl]

/-- The same write is tried on both disks. A file that is refused the same writes is written on both or
on neither, if the texts are the same. -/
theorem write {folder name : String} {mode mode' : WriteMode} {text text' : String}
    (hsame : q (base.resolve folder ++ [name]) = base.refuses (base.resolve folder ++ [name]) →
      mode' = mode ∧ text' = text) :
    Beside base q (d.write mode folder name text).1 (d'.write mode' folder name text').1 ∧
      (q (base.resolve folder ++ [name]) = base.refuses (base.resolve folder ++ [name]) →
        ((d'.write mode' folder name text').2 = none ↔ (d.write mode folder name text).2 = none)) := by
  rcases hlocate : d.locate folder name with e | loc
  · rcases hlocate' : d'.locate folder name with e' | loc'
    · unfold Disk.write
      rw [hlocate, hlocate']
      exact ⟨h, fun _ => iff_of_false nofun nofun⟩
    · rw [h.locate_iff.mp hlocate'] at hlocate
      cases hlocate
  · have hloc : loc = base.resolve folder ++ [name] := by
      rw [locate_eq_ok hlocate, resolve_eq h.home]
    rw [← hloc] at hsame ⊢
    have htouched := touched_write hlocate mode text
    have htouched' := touched_write (h.locate_iff.mpr hlocate) mode' text'
    refine ⟨h.touched htouched htouched' fun hq => ?_, fun hq => ?_⟩
    · obtain ⟨rfl, rfl⟩ := hsame hq
      exact (h.write_alike hlocate hq _ _).1
    · obtain ⟨rfl, rfl⟩ := hsame hq
      rw [(h.write_alike hlocate hq _ _).2]

end Beside

/-- What is made on the way to a folder depends on the nodes of the disk only. -/
theorem follow_of_nodes (hnodes : ∀ loc, d'.node? loc = d.node? loc) (creating : Bool) (loc : Location)
    (names : List String) :
    (follow creating d' loc names).2 = (follow creating d loc names).2 ∧
      ∀ l, (follow creating d' loc names).1.node? l = (follow creating d loc names).1.node? l := by
  induction names generalizing d d' loc with
  | nil => exact ⟨rfl, hnodes⟩
  | cons name names ih =>
    rw [follow, follow, hnodes]
    split
    · exact ih hnodes _
    · split
      · exact ⟨rfl, hnodes⟩
      · split
        · exact ih hnodes _
        · exact ⟨rfl, hnodes⟩
        · split
          · refine ih (fun l => ?_) _
            rw [node?_put, node?_put, hnodes]
          · exact ⟨rfl, hnodes⟩

theorem makeFolders_of_nodes (hhome : d'.home = d.home) (hnodes : ∀ loc, d'.node? loc = d.node? loc)
    (path : String) : (d'.makeFolders path).2 = (d.makeFolders path).2 ∧
      ∀ l, (d'.makeFolders path).1.node? l = (d.makeFolders path).1.node? l := by
  have hstart : d'.pathStart path = d.pathStart path := by
    unfold pathStart
    rw [hhome]
  obtain ⟨hresult, hmade⟩ := follow_of_nodes hnodes true (d.pathStart path) (pathNames path)
  rw [makeFolders_eq, makeFolders_eq, hstart]
  split
  · exact ⟨rfl, hnodes⟩
  · refine ⟨?_, hmade⟩
    dsimp only
    rw [hresult]

theorem Beside.makeFolders (h : Beside base q d d') (hnodes : ∀ loc, d'.node? loc = d.node? loc)
    (path : String) : (d'.makeFolders path).2 = (d.makeFolders path).2 ∧
      Beside base q (d.makeFolders path).1 (d'.makeFolders path).1 := by
  obtain ⟨hresult, hmade⟩ := makeFolders_of_nodes h.same_home hnodes path
  obtain ⟨hwritten, hrefuses⟩ := d.makeFolders_untouched path
  obtain ⟨hwritten', hrefuses'⟩ := d'.makeFolders_untouched path
  refine ⟨hresult, ?_⟩
  exact
    { home := (d.makeFolders_text path).1.trans h.home
      home' := (d'.makeFolders_text path).1.trans h.home'
      refuses := hrefuses.trans h.refuses
      refuses' := hrefuses'.trans h.refuses'
      written := hwritten'.trans (h.written.trans hwritten.symm)
      folders := fun l => by rw [hmade]
      node := fun _ => hmade _ }

theorem text?_eq_some {loc : Location} {text : String} :
    d.text? loc = some text ↔ d.node? loc = some (.file text) := by
  unfold text?
  rcases d.node? loc with _ | _ | text'
  · exact iff_of_false nofun nofun
  · exact iff_of_false nofun nofun
  · simp

/-- Disks with the same folders and the same texts do not differ. -/
theorem SameFolders.nodes (h : d.SameFolders d') (htexts : ∀ loc, d'.text? loc = d.text? loc)
    (loc : Location) : d'.node? loc = d.node? loc := by
  ext node
  cases node with
  | folder => exact h loc
  | file text => rw [← text?_eq_some, ← text?_eq_some, htexts]

end Disk

/-- A file of the outputs is refused the same writes by a disk and with other refusals. -/
def OutputFile.RefusedAlike (base : Disk) (q : Disk.Refusal) (folder : Option String)
    (name extension : String) : Prop :=
  ∀ f, folder = some f → q (base.resolve f ++ [name ++ "." ++ extension]) =
    base.refuses (base.resolve f ++ [name ++ "." ++ extension])

section Writers
variable {base d d' : Disk} {q : Disk.Refusal} {folder : Option String}

theorem OutputFile.beside_write (h : Disk.Beside base q d d') {name extension : String}
    {mode mode' : Disk.WriteMode} {text text' : String}
    (hsame : RefusedAlike base q folder name extension → mode' = mode ∧ text' = text) :
    Disk.Beside base q (write d mode folder name extension text).1
        (write d' mode' folder name extension text').1 ∧
      (RefusedAlike base q folder name extension →
        ((write d' mode' folder name extension text').2 = none ↔
          (write d mode folder name extension text).2 = none)) := by
  rcases hmake : make folder name extension with e | file
  · rw [write_of_refused hmake, write_of_refused hmake]
    exact ⟨h, fun _ => iff_of_false nofun nofun⟩
  · obtain ⟨hfolder, hname⟩ := make_eq_ok hmake
    rw [write_of_make hmake, write_of_make hmake]
    dsimp only
    rw [Option.map_eq_none_iff, Option.map_eq_none_iff]
    have hfile : RefusedAlike base q folder name extension ↔
        q (base.resolve file.folder ++ [file.name]) =
          base.refuses (base.resolve file.folder ++ [file.name]) := by
      rw [hname]
      refine ⟨fun halike => halike _ hfolder, fun hloc f hf => ?_⟩
      rw [hfolder] at hf
      cases hf
      exact hloc
    rw [hfile] at hsame ⊢
    exact h.write hsame

/-- Tables with the same rows and columns, of which some have written their columns alike. -/
structure Tables.Beside (same : String → Prop) (t t' : Tables) : Prop where
  rows : t'.rows = t.rows
  headers : t'.headers = t.headers
  opened : ∀ {table}, same table → t'.opened.contains table = t.opened.contains table

structure LineLog.Beside (same : Prop) (l l' : LineLog) : Prop where
  lines : l'.lines = l.lines
  opened : same → l'.opened = l.opened

namespace Tables

variable {t t' : Tables} (hd : Disk.Beside base q d d')
variable (ht : t.Beside (OutputFile.RefusedAlike base q folder · "csv") t')
include hd ht

theorem beside_writeTable (table : String) (records : List (List String)) :
    (t.writeTable folder d table records).1.Beside (OutputFile.RefusedAlike base q folder · "csv")
        (t'.writeTable folder d' table records).1 ∧
      Disk.Beside base q (t.writeTable folder d table records).2.1
        (t'.writeTable folder d' table records).2.1 := by
  have hsame : OutputFile.RefusedAlike base q folder table "csv" →
      (if t'.opened.contains table then .append else .replace : Disk.WriteMode) =
          (if t.opened.contains table then .append else .replace) ∧
        TableRow.recordsText (t'.dueRecords table records) =
          TableRow.recordsText (t.dueRecords table records) := by
    intro halike
    rw [dueRecords, dueRecords, ht.headers, ht.opened halike]
    exact ⟨rfl, rfl⟩
  obtain ⟨hdisk, hresult⟩ := OutputFile.beside_write hd hsame
  rw [← writeTable_write, ← writeTable_write] at hdisk hresult
  rcases hone : t.writeTable folder d table records with ⟨t₁, d₁, failure⟩
  rcases hone' : t'.writeTable folder d' table records with ⟨t₁', d₁', failure'⟩
  rw [hone, hone'] at hdisk hresult
  obtain ⟨-, hrows, hheaders, -, hopened⟩ := writeTable_made hone
  obtain ⟨-, hrows', hheaders', -, hopened'⟩ := writeTable_made hone'
  refine ⟨⟨?_, ?_, fun {other} halike => ?_⟩, hdisk⟩
  · rw [hrows, hrows', ht.rows]
  · rw [hheaders, hheaders', ht.headers]
  · rw [hopened, hopened', ht.opened halike]
    by_cases hother : other = table
    · have hnone : failure'.isNone = failure.isNone := by
        rw [Bool.eq_iff_iff, Option.isNone_iff_eq_none, Option.isNone_iff_eq_none]
        exact hresult (hother ▸ halike)
      rw [hnone]
    · rw [beq_false_of_ne hother, Bool.and_false, Bool.and_false]

theorem beside_writeTables (tables : Keyed (List (List String))) :
    (t.writeTables folder d tables).1.Beside (OutputFile.RefusedAlike base q folder · "csv")
        (t'.writeTables folder d' tables).1 ∧
      Disk.Beside base q (t.writeTables folder d tables).2.1
        (t'.writeTables folder d' tables).2.1 := by
  induction tables generalizing t t' d d' with
  | nil => exact ⟨ht, hd⟩
  | cons entry tables ih =>
    obtain ⟨ht₁, hd₁⟩ := beside_writeTable hd ht entry.1 entry.2
    exact ih hd₁ ht₁

end Tables

theorem LineLog.beside_writeLines {l l' : LineLog} (hd : Disk.Beside base q d d')
    (hl : l.Beside (OutputFile.RefusedAlike base q folder "log" "txt") l') (lines : List String) :
    (l.writeLines folder d lines).1.Beside (OutputFile.RefusedAlike base q folder "log" "txt")
        (l'.writeLines folder d' lines).1 ∧
      Disk.Beside base q (l.writeLines folder d lines).2.1 (l'.writeLines folder d' lines).2.1 := by
  by_cases hlines : lines = []
  · rw [writeLines, writeLines, if_pos hlines, if_pos hlines]
    exact ⟨hl, hd⟩
  · have hsame : OutputFile.RefusedAlike base q folder "log" "txt" →
        (if l'.opened then .append else .replace : Disk.WriteMode) =
            (if l.opened then .append else .replace) ∧ linesText lines = linesText lines := by
      intro halike
      rw [hl.opened halike]
      exact ⟨rfl, rfl⟩
    obtain ⟨hdisk, hresult⟩ := OutputFile.beside_write hd hsame
    refine ⟨⟨?_, fun halike => ?_⟩, ?_⟩
    · rw [Outputs.lines_writeLines, Outputs.lines_writeLines, hl.lines]
    · rw [writeLines_eq l folder d hlines, writeLines_eq l' folder d' hlines]
      dsimp only
      by_cases hwritten : (OutputFile.write d (if l.opened then .append else .replace) folder "log" "txt"
          (linesText lines)).2 = none
      · rw [if_pos hwritten, if_pos ((hresult halike).mpr hwritten)]
      · rw [if_neg hwritten, if_neg fun hwritten' => hwritten ((hresult halike).mp hwritten')]
        exact hl.opened halike
    · rw [writeLines_eq l folder d hlines, writeLines_eq l' folder d' hlines]
      exact hdisk

theorem EventLogs.beside_writeDocuments (hd : Disk.Beside base q d d') (documents : Keyed Document) :
    Disk.Beside base q (writeDocuments folder d documents).1
      (writeDocuments folder d' documents).1 := by
  induction documents generalizing d d' with
  | nil => exact hd
  | cons entry documents ih =>
    obtain ⟨process, traces⟩ := entry
    exact ih (OutputFile.beside_write hd fun _ => ⟨rfl, rfl⟩).1

end Writers

/-- Nothing is opened before a write. -/
theorem FileWrite.Parts.not_opened {name extension : String} {render : List α → String}
    {contents : List α} {opened : Prop} (h : Parts [] name extension render contents opened) :
    ¬ opened := by
  refine h.contents_eq_nil.mp (Classical.byContradiction fun hne => ?_)
  obtain ⟨w, hw, -⟩ := h.exists_iff.mpr hne
  exact absurd hw List.not_mem_nil

namespace Outputs

/-- Outputs `o` beside outputs `o'` whose disk has other refusals. Besides the files that are not refused
the same writes they do not differ. -/
structure Beside (base : Disk) (q : Disk.Refusal) (o o' : Outputs) : Prop where
  folder : o'.folder = o.folder
  tables : o.tables.Beside (OutputFile.RefusedAlike base q o.folder · "csv") o'.tables
  lines : o.lines.Beside (OutputFile.RefusedAlike base q o.folder "log" "txt") o'.lines
  events : o'.events = o.events
  deliveries : o'.deliveries = o.deliveries
  wire : o'.wire = o.wire
  disk : Disk.Beside base q o.disk o'.disk

variable {base : Disk} {q : Disk.Refusal} {o o' : Outputs}

theorem Beside.handOver (h : Beside base q o o') (e : JournalEntry) :
    (o'.handOver e).2 = (o.handOver e).2 ∧
      Beside base q (o.handOver e).1 (o'.handOver e).1 := by
  have hrows := congrArg (Staging.handOver · e) h.tables.rows
  have hlines := congrArg (Staging.handOver · e) h.lines.lines
  have hevents := congrArg (EventLogs.handOver · e) h.events
  have hrequests := congrArg (fun ds => Staging.handOver ds.requests e) h.deliveries
  unfold Outputs.handOver
  dsimp only
  rw [hrows, hlines, hevents, hrequests]
  refine ⟨rfl, ?_⟩
  exact
    { folder := h.folder
      tables := ⟨rfl, h.tables.headers, h.tables.opened⟩
      lines := ⟨rfl, h.lines.opened⟩
      events := rfl
      deliveries := by rw [h.deliveries]
      wire := h.wire
      disk := h.disk }

theorem Beside.flush (h : Beside base q o o') (due : Handover) :
    Beside base q (o.flush due).1 (o'.flush due).1 := by
  obtain ⟨htables, hdisk⟩ := Tables.beside_writeTables h.disk h.tables (TableRow.byTable due.rows)
  obtain ⟨hlines, hdisk⟩ := LineLog.beside_writeLines hdisk h.lines due.lines
  have hflush : o'.flush due = { o' with folder := o.folder, deliveries := o.deliveries, wire := o.wire
                                          : Outputs }.flush due := by
    rw [← h.folder, ← h.deliveries, ← h.wire]
  rw [hflush]
  exact
    { folder := rfl
      tables := htables
      lines := hlines
      events := h.events
      deliveries := rfl
      wire := rfl
      disk := EventLogs.beside_writeDocuments hdisk due.documents }

theorem Beside.stage (h : Beside base q o o') (item : OutputItem) :
    match o.stage item with
    | .ok p => ∃ p', o'.stage item = .ok p' ∧ Beside base q p p'
    | .error e => o'.stage item = .error e := by
  cases item with
  | row table cells =>
    rw [Outputs.stage, Outputs.stage, Tables.addRow, Tables.addRow, h.tables.headers, h.tables.rows]
    rcases o.tables.headers.lookup table with _ | header
    · exact ⟨_, rfl, { h with tables := ⟨rfl, rfl, h.tables.opened⟩ }⟩
    · by_cases hcolumns : header = cells.map (·.1)
      · simp only [if_pos hcolumns]
        exact ⟨_, rfl, { h with tables := ⟨rfl, rfl, h.tables.opened⟩ }⟩
      · simp only [if_neg hcolumns]
        rfl
  | line text =>
    refine ⟨_, rfl, { h with lines := ⟨?_, h.lines.opened⟩ }⟩
    exact congrArg (·.push text) h.lines.lines
  | record r => exact ⟨_, rfl, { h with events := congrArg (·.add r) h.events }⟩
  | request d => exact ⟨_, rfl, { h with deliveries := congrArg (·.add d) h.deliveries }⟩

theorem Beside.followStaged (h : Beside base q o o') (item : OutputItem) :
    Beside base q (o.follow (.staged item)).1 (o'.follow (.staged item)).1 := by
  have hstage := h.stage item
  rw [follow, follow]
  cases hitem : o.stage item with
  | error e =>
    rw [hitem] at hstage
    have hitem' : o'.stage item = .error e := hstage
    rw [hitem']
    exact h
  | ok p =>
    rw [hitem] at hstage
    obtain ⟨p', hitem', hp⟩ := hstage
    rw [hitem']
    exact hp

/-- What has not been written yet may be written to another folder. -/
theorem Beside.moveTo (h : Beside base q o o') (hnodes : ∀ loc, o'.disk.node? loc = o.disk.node? loc)
    (htables : ∀ table, o'.tables.opened.contains table = o.tables.opened.contains table)
    (hlines : o'.lines.opened = o.lines.opened) (path : String) :
    (o'.disk.makeFolders path).2 = (o.disk.makeFolders path).2 ∧
      Beside base q (o.moveTo path) (o'.moveTo path) := by
  obtain ⟨hresult, hdisk⟩ := h.disk.makeFolders hnodes path
  refine ⟨hresult, ?_⟩
  unfold Outputs.moveTo
  rcases hmade : o.disk.makeFolders path with ⟨disk, failure⟩
  rcases hmade' : o'.disk.makeFolders path with ⟨disk', failure'⟩
  rw [hmade, hmade'] at hresult hdisk
  obtain rfl : failure' = failure := hresult
  cases failure' with
  | none =>
    exact
      { folder := rfl
        tables := ⟨h.tables.rows, h.tables.headers, fun _ => htables _⟩
        lines := ⟨h.lines.lines, fun _ => hlines⟩
        events := h.events
        deliveries := h.deliveries
        wire := h.wire
        disk := hdisk }
  | some e => exact { h with disk := hdisk }

def refusing (o : Outputs) (q : Disk.Refusal) : Outputs :=
  { o with disk := { o.disk with refuses := q } }

theorem headers_refusing (o : Outputs) (q : Disk.Refusal) :
    (o.refusing q).tables.headers = o.tables.headers :=
  rfl

section Fresh
variable {config : RunConfig} {disk : Disk} {wire : Wire} {j k : Journal}

theorem beside_fresh (config : RunConfig) (disk : Disk) (wire : Wire) (q : Disk.Refusal) :
    Beside disk q (start config disk wire) ((start config disk wire).refusing q) where
  folder := rfl
  tables := ⟨rfl, rfl, fun _ => rfl⟩
  lines := ⟨rfl, fun _ => rfl⟩
  events := rfl
  deliveries := rfl
  wire := rfl
  disk := disk.beside_start q

/-- Before anything is written, no file is opened and no text has changed. -/
theorem unwritten_replay (haccepts : (start config disk wire).Accepts k)
    (hflushed : (start config disk wire).flushed k = []) :
    (∀ table, ((start config disk wire).replay k).tables.opened.contains table = false) ∧
      ((start config disk wire).replay k).lines.opened = false ∧
      ∀ loc, ((start config disk wire).replay k).disk.text? loc = disk.text? loc := by
  have hsources := sources_replay k haccepts (sources_start config disk wire)
  rw [hflushed] at hsources
  refine ⟨fun table => ?_, ?_, hsources.wrote.text⟩
  · obtain ⟨_, -, hparts⟩ := hsources.tables.rows table
    exact Bool.eq_false_iff.mpr hparts.not_opened
  · obtain ⟨_, -, hparts⟩ := hsources.lines
    exact Bool.eq_false_iff.mpr hparts.not_opened

section Replays
variable {q : Disk.Refusal} (haccepts : (start config disk wire).Accepts j)
variable (hkeeps : (start config disk wire).KeepsFolder j)
variable (hkeeps' : ((start config disk wire).refusing q).KeepsFolder j)
include haccepts hkeeps hkeeps'

/-- Setting the output folder keeps outputs beside each other: either nothing is written yet on both
disks, or the folder is set to where it is. -/
theorem Beside.moved {path : String} (hk : k ++ [.moved path] <+: j)
    (h : Beside disk q ((start config disk wire).replay k)
      (((start config disk wire).refusing q).replay k)) :
    ((((start config disk wire).refusing q).replay k).disk.makeFolders path).2 =
        (((start config disk wire).replay k).disk.makeFolders path).2 ∧
      Beside disk q (((start config disk wire).replay k).moveTo path)
        ((((start config disk wire).refusing q).replay k).moveTo path) := by
  by_cases hset : ((start config disk wire).replay k).folder = some path ∧
      ((start config disk wire).replay k).disk.Finds path
  · obtain ⟨hfolder, hfinds⟩ := hset
    have hfinds' := h.disk.folders.finds h.disk.same_home hfinds
    rw [hfinds.makeFolders, hfinds'.makeFolders, moveTo_of_finds hfolder hfinds,
      moveTo_of_finds (h.folder.trans hfolder) hfinds']
    exact ⟨rfl, h⟩
  · have hfirst : (start config disk wire).flushed k = [] := by
      by_contra hflushed
      exact hset (hkeeps.finds hk hflushed)
    have hsecond : ((start config disk wire).refusing q).flushed k = [] := by
      by_contra hflushed
      obtain ⟨hfolder, hfinds⟩ := hkeeps'.finds hk hflushed
      exact hset ⟨h.folder.symm.trans hfolder,
        h.disk.folders.symm.finds h.disk.same_home.symm hfinds⟩
    obtain ⟨l, rfl⟩ := (List.prefix_append k [.moved path]).trans hk
    have haccepts' := accepts_of_headers (headers_refusing _ q) haccepts
    obtain ⟨htables, hlines, htexts⟩ := unwritten_replay (succeeds_append.mp haccepts).1 hfirst
    obtain ⟨htables', hlines', htexts'⟩ := unwritten_replay (succeeds_append.mp haccepts').1 hsecond
    exact h.moveTo (h.disk.folders.nodes fun loc => (htexts' loc).trans (htexts loc).symm)
      (fun table => (htables' table).trans (htables table).symm) (hlines'.trans hlines.symm) path

/-- The outputs are beside each other after every part of the journal. -/
theorem beside_replay (hk : k <+: j) : Beside disk q ((start config disk wire).replay k)
    (((start config disk wire).refusing q).replay k) := by
  induction k using List.reverseRecOn with
  | nil => exact beside_fresh config disk wire q
  | append_singleton k e ih =>
    have h := ih ((List.prefix_append k [e]).trans hk)
    rw [replay_concat, replay_concat]
    by_cases hstaged : ∃ item, e = .staged item
    · obtain ⟨item, rfl⟩ := hstaged
      exact h.followStaged item
    · by_cases hmoved : ∃ path, e = .moved path
      · obtain ⟨path, rfl⟩ := hmoved
        exact (Beside.moved haccepts hkeeps hkeeps' hk h).2
      · rw [follow_eq_flush _ (fun item hitem => hstaged ⟨item, hitem⟩)
            fun path hpath => hmoved ⟨path, hpath⟩,
          follow_eq_flush _ (fun item hitem => hstaged ⟨item, hitem⟩)
            fun path hpath => hmoved ⟨path, hpath⟩]
        obtain ⟨hdue, hnext⟩ := h.handOver e
        rw [hdue]
        exact hnext.flush _

end Replays
end Fresh
end Outputs
end ChainQuery
