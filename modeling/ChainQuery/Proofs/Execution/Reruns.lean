import ChainQuery.Proofs.Execution.Atomicity
import ChainQuery.Proofs.Execution.Tandems
import ChainQuery.Proofs.Output.Repetition
import ChainQuery.Proofs.Output.Texts

/-!
# The files of a run and of its repetition

The files of tables and of the log hold what a run has emitted. Where the first write of the run to
such a file was made, the file depends on the run alone, and a repetition of the run leaves it as it
is. In any other folder the writes are added to what was there before.
-/

namespace ChainQuery

/-- Outputs on a disk that has grown already lead a run the same way. -/
theorem mirror_ahead (last : Disk) :
    Mirror (Outputs.Ahead last) fun s => s.outputs.disk.Grows last where
  same := by
    intro s t houtputs _ h
    rwa [houtputs] at h
  before h := (Outputs.grows_follow _ _).trans h
  follow h ho := ⟨(ho.follow h).1, (ho.follow h).2.1⟩
  refuse := by
    intro s item e o _ ho hrefused
    have hstage := ho.stage item
    rw [hrefused] at hstage
    exact hstage
  makeFolders h ho := (ho.moveTo h).1

/-- The outputs of a repetition at its start, on the disk on which the run has ended. -/
theorem Outputs.ahead_start {config : RunConfig} {disk last : Disk} (hgrows : disk.Grows last)
    (hrefused : ∀ loc n, disk.refuses loc n = true → last.node? loc ≠ some .folder)
    (hfolder : ∀ f, config.outputFolder = some f → disk.reach f = last.reach f) (wire wire' : Wire) :
    Ahead last (start config disk wire) (start config { disk with nodes := last.nodes } wire') where
  folder := rfl
  tables := rfl
  lines := rfl
  events := rfl
  disk :=
    { grows := hgrows, home := hgrows.home.symm, kind := fun _ => rfl, written := rfl, refuses := rfl
      refused := hrefused, reach := hfolder }

section Runs
variable {looks : Nat} {p : Program} {s t : RunState} {result : Except ExecutionError Unit}

theorem Program.sources_of_run (hfresh : s.Fresh) (hrun : p.run? looks s = some (result, t)) :
    Outputs.Sources s.outputs t.outputs t.journal.items (s.outputs.flushed t.journal) := by
  obtain ⟨haccepts, houtputs⟩ := Program.outputs_of_run hfresh hrun
  obtain ⟨config, disk, wire, hstart⟩ := hfresh.outputs
  rw [houtputs]
  refine Outputs.sources_replay _ haccepts ?_
  rw [hstart]
  exact Outputs.sources_start config disk wire

end Runs

/-- What a run has left in the files of tables and of the log: rows and lines that it has emitted, by
the folders they were written in. -/
structure RunState.Leaves (disk : Disk) (t : RunState)
    (rows : String → List (String × List (List String))) (lines : List (String × List String)) :
    Prop where
  emittedRows : ∀ table, ((rows table).flatMap (·.2)).Sublist (OutputItem.rows table t.journal.items)
  columns : ∀ table cells, .row table cells ∈ t.journal.items →
    t.outputs.tables.headers.lookup table = some (cells.map (·.1))
  tables : ∀ table dir, t.outputs.disk.text? (dir ++ [table ++ ".csv"]) =
    disk.textAfter TableRow.recordsText (t.outputs.tables.headers.lookup table).toList
      (table ++ ".csv") (rows table) dir
  emittedLines : (lines.flatMap (·.2)).Sublist (t.journal.items.filterMap OutputItem.line?)
  log : ∀ dir, t.outputs.disk.text? (dir ++ ["log.txt"]) =
    disk.textAfter LineLog.linesText [] "log.txt" lines dir

section Files
variable {ws : List FileWrite} {o o' : Outputs} {items : List OutputItem}

/-- The pieces of the files that hold emitted items. -/
theorem Outputs.Sources.pieces (h : Outputs.Sources o o' items ws) :
    (∃ rows : String → List (String × List (List String)), ∀ table,
      ((rows table).flatMap (·.2)).Sublist (OutputItem.rows table items) ∧
        FileWrite.Pieces ws table "csv" TableRow.recordsText (o'.tables.headers.lookup table).toList
          (rows table)) ∧
    ∃ lines : List (String × List String),
      (lines.flatMap (·.2)).Sublist (items.filterMap OutputItem.line?) ∧
        FileWrite.Pieces ws "log" "txt" LineLog.linesText [] lines := by
  constructor
  · have htable : ∀ table, ∃ parts : List (String × List (List String)),
        (parts.flatMap (·.2)).Sublist (OutputItem.rows table items) ∧
          FileWrite.Pieces ws table "csv" TableRow.recordsText
            (o'.tables.headers.lookup table).toList parts := by
      intro table
      obtain ⟨rows, hsub, hparts⟩ := h.tables.rows table
      obtain ⟨parts, hpieces, hrows⟩ := hparts.pieces_headed
      refine ⟨parts, ?_, hpieces⟩
      rw [hrows]
      exact (List.sublist_append_left _ _).trans hsub
    exact Classical.skolem.mp htable
  · obtain ⟨lines, hsub, hparts⟩ := h.lines
    obtain ⟨parts, hpieces, hlines⟩ := hparts.pieces
    refine ⟨parts, ?_, hpieces⟩
    rw [hlines]
    exact (List.sublist_append_left _ _).trans hsub

theorem Outputs.text_table {d d' : Disk} (hwrote : d.Wrote ws d') (hnamed : ∀ w ∈ ws, Outputs.Named w)
    {table : String} {opening : List (List String)} {parts : List (String × List (List String))}
    (hpieces : FileWrite.Pieces ws table "csv" TableRow.recordsText opening parts) (dir : Location) :
    d'.text? (dir ++ [table ++ ".csv"]) =
      d.textAfter TableRow.recordsText opening (table ++ ".csv") parts dir := by
  have hname : table ++ "." ++ "csv" = table ++ ".csv" := String.append_assoc
  rw [← hname]
  exact Outputs.text_of_pieces hwrote hnamed rfl TableRow.renders_recordsText hpieces dir

theorem Outputs.text_log {d d' : Disk} (hwrote : d.Wrote ws d') (hnamed : ∀ w ∈ ws, Outputs.Named w)
    {parts : List (String × List String)}
    (hpieces : FileWrite.Pieces ws "log" "txt" LineLog.linesText [] parts) (dir : Location) :
    d'.text? (dir ++ ["log.txt"]) = d.textAfter LineLog.linesText [] "log.txt" parts dir :=
  Outputs.text_of_pieces hwrote hnamed rfl LineLog.renders_linesText hpieces dir

end Files

/-- After a run, and after its repetition on the disk that it has left, the file of a table or of the
log in a folder is the same just if nothing was written there or the first write was. -/
theorem files_of_run {looks : Nat} {p : Program} {s t : RunState} {config : RunConfig} {disk : Disk}
    {wire : Wire} {result : Except ExecutionError Unit}
    (houtputs : s.outputs = Outputs.start config disk wire) (hjournal : s.journal = [])
    (hrun : p.run? looks s = some (result, t)) :
    ∃ (rows : String → List (String × List (List String))) (lines : List (String × List String)),
      t.Leaves disk rows lines ∧
      ((∀ loc n, disk.refuses loc n = true → t.outputs.disk.node? loc ≠ some .folder) →
        (∀ f, config.outputFolder = some f → disk.reach f = t.outputs.disk.reach f) →
        ∀ wire', ∃ o',
          p.run? looks (s.withOutputs
              (Outputs.start config { disk with nodes := t.outputs.disk.nodes } wire')) =
            some (result, t.withOutputs o') ∧
          (∀ table dir, o'.disk.text? (dir ++ [table ++ ".csv"]) =
              t.outputs.disk.text? (dir ++ [table ++ ".csv"]) ↔
            disk.partsAt (rows table) dir = [] ∨ disk.beginsAt (rows table) dir = true) ∧
          ∀ dir, o'.disk.text? (dir ++ ["log.txt"]) = t.outputs.disk.text? (dir ++ ["log.txt"]) ↔
            disk.partsAt lines dir = [] ∨ disk.beginsAt lines dir = true) := by
  have hfresh : s.Fresh := ⟨⟨_, _, _, houtputs⟩, hjournal⟩
  obtain ⟨-, hreplay⟩ := Program.outputs_of_run hfresh hrun
  have hsources := Program.sources_of_run hfresh hrun
  have hdisk : s.outputs.disk = disk := by rw [houtputs]; rfl
  have hwrote : disk.Wrote (s.outputs.flushed t.journal) t.outputs.disk := hdisk ▸ hsources.wrote
  obtain ⟨⟨rows, hrows⟩, lines, hlines, hlog⟩ := hsources.pieces
  have htables : ∀ table dir, _ := fun table =>
    Outputs.text_table hwrote hsources.named (hrows table).2
  have hlogs : ∀ dir, _ := Outputs.text_log hwrote hsources.named hlog
  refine ⟨rows, lines, ⟨fun table => (hrows table).1, hsources.tables.columns, htables, hlines, hlogs⟩,
    fun hrefused hfolder wire' => ?_⟩
  have hgrows : disk.Grows t.outputs.disk := by
    rw [hreplay, ← hdisk]
    exact s.outputs.grows_replay _
  have hahead := Outputs.ahead_start hgrows hrefused hfolder wire wire'
  rw [← houtputs] at hahead
  obtain ⟨-, hsecond⟩ := Program.mirrored_execute (mirror_ahead t.outputs.disk) looks p s _ _ hrun
    (Disk.Grows.refl _)
  obtain ⟨o', -, hrun'⟩ := hsecond _ hahead
  refine ⟨o', hrun', ?_⟩
  have hfresh' : (s.withOutputs
      (Outputs.start config { disk with nodes := t.outputs.disk.nodes } wire')).Fresh :=
    ⟨⟨_, _, _, rfl⟩, hjournal⟩
  have hsources' := Program.sources_of_run hfresh' hrun'
  -- the repetition makes the same writes, on the texts that the run has left
  have hsame := hahead.flushed (j := t.journal) (by rw [← hreplay]; exact Disk.Grows.refl _)
  have hwrote' : Disk.Wrote { disk with nodes := t.outputs.disk.nodes }
      (s.outputs.flushed t.journal) o'.disk := hsame ▸ hsources'.wrote
  constructor
  · intro table dir
    rw [Outputs.text_table hwrote' hsources.named (hrows table).2 dir]
    exact Disk.textAfter_eq_iff disk { disk with nodes := t.outputs.disk.nodes } rfl
      TableRow.renders_recordsText (hrows table).2.ne_nil
      (htables table dir)
  · intro dir
    rw [Outputs.text_log hwrote' hsources.named hlog dir]
    exact Disk.textAfter_eq_iff disk { disk with nodes := t.outputs.disk.nodes } rfl
      LineLog.renders_linesText hlog.ne_nil (hlogs dir)

def fixedRow (text : String) : Instruction :=
  .emit (.row "t" [("x", .literal (.str text))])

/-- Two scans of a block emit a row each, with the output folder set before each scan. -/
def inFolders (first second : String) : Program :=
  ⟨[.setFolder first, singleScan [fixedRow "one"], .setFolder second, singleScan [fixedRow "two"]]⟩

def singleStartOn (nodes : List (Location × DiskNode)) : RunState :=
  singleStart.withOutputs (Outputs.start { outputFolder := some "/" } { nodes := nodes } {})

/-- The failure of a program over the chain of one block, and what is on the disk then. -/
def Program.nodesFrom (p : Program) (nodes : List (Location × DiskNode)) :
    Option (Option ExecutionError × List (Location × DiskNode)) :=
  (p.run? 0 (singleStartOn nodes)).map fun ended =>
    (Run.failure? ended.1, ended.2.outputs.disk.nodes)

theorem Program.exists_of_nodesFrom {p : Program} {nodes nodes' : List (Location × DiskNode)}
    (h : p.nodesFrom nodes = some (none, nodes')) :
    ∃ t, p.run? 0 (singleStartOn nodes) = some (.ok (), t) ∧ t.outputs.disk.nodes = nodes' := by
  obtain ⟨⟨result, t⟩, hrun, heq⟩ := Option.map_eq_some_iff.mp h
  cases result with
  | error e => cases heq
  | ok _ =>
    cases heq
    exact ⟨t, hrun, rfl⟩

theorem files_of_sameFolder :
    ∃ (t : RunState) (o' : Outputs) (rows : List (String × List (List String))),
      (inFolders "a" "a").run? 0 (singleStartOn []) = some (.ok (), t) ∧
      (inFolders "a" "a").run? 0 (singleStartOn t.outputs.disk.nodes) =
        some (.ok (), t.withOutputs o') ∧
      t.outputs.disk.nodes = [(["a"], .folder), (["a", "t.csv"], .file "x\r\none\r\ntwo\r\n")] ∧
      o'.disk.nodes = t.outputs.disk.nodes ∧
      (Disk.partsAt {} rows ["a"] = [] ∨ Disk.beginsAt {} rows ["a"] = true) := by
  have hfirst : (inFolders "a" "a").nodesFrom [] =
      some (none, [(["a"], .folder), (["a", "t.csv"], .file "x\r\none\r\ntwo\r\n")]) := by
    decide +kernel
  have hsecond : (inFolders "a" "a").nodesFrom
      [(["a"], .folder), (["a", "t.csv"], .file "x\r\none\r\ntwo\r\n")] =
      some (none, [(["a"], .folder), (["a", "t.csv"], .file "x\r\none\r\ntwo\r\n")]) := by
    decide +kernel
  obtain ⟨t, hrun, hnodes⟩ := Program.exists_of_nodesFrom hfirst
  obtain ⟨u, hrun', hnodes'⟩ := Program.exists_of_nodesFrom hsecond
  obtain ⟨rows, lines, -, hagain⟩ := files_of_run rfl rfl hrun
  have hfolder : ∀ f, some "/" = some f → Disk.reach {} f = t.outputs.disk.reach f := by
    intro f hf
    cases hf
    rfl
  obtain ⟨o', hrepeated, htables, -⟩ := hagain (fun _ _ => nofun) hfolder {}
  have hu : u = t.withOutputs o' := by
    rw [← hnodes] at hrun'
    have heq := hrun'.symm.trans hrepeated
    cases heq
    rfl
  rw [hu] at hnodes'
  have hsame : o'.disk.nodes = t.outputs.disk.nodes := hnodes'.trans hnodes.symm
  refine ⟨t, o', rows "t", hrun, hrepeated, hnodes, hsame, (htables "t" ["a"]).mp ?_⟩
  unfold Disk.text? Disk.node?
  rw [hsame]

/-- In the second folder the file has no columns, and it grows with each repetition. -/
theorem second_folder_not_fresh :
    ∃ t u, (inFolders "a" "b").run? 0 (singleStartOn []) = some (.ok (), t) ∧
      (inFolders "a" "b").run? 0 (singleStartOn t.outputs.disk.nodes) = some (.ok (), u) ∧
      t.outputs.disk.text? ["b", "t.csv"] = some "two\r\n" ∧
      u.outputs.disk.text? ["b", "t.csv"] = some "two\r\ntwo\r\n" := by
  have hfirst : (inFolders "a" "b").nodesFrom [] = some (none,
      [(["a"], .folder), (["a", "t.csv"], .file "x\r\none\r\n"), (["b"], .folder),
        (["b", "t.csv"], .file "two\r\n")]) := by
    decide +kernel
  have hsecond : (inFolders "a" "b").nodesFrom
      [(["a"], .folder), (["a", "t.csv"], .file "x\r\none\r\n"), (["b"], .folder),
        (["b", "t.csv"], .file "two\r\n")] = some (none,
      [(["a"], .folder), (["a", "t.csv"], .file "x\r\none\r\n"), (["b"], .folder),
        (["b", "t.csv"], .file "two\r\ntwo\r\n")]) := by
    decide +kernel
  obtain ⟨t, hrun, hnodes⟩ := Program.exists_of_nodesFrom hfirst
  obtain ⟨u, hrun', hnodes'⟩ := Program.exists_of_nodesFrom hsecond
  rw [← hnodes] at hrun'
  refine ⟨t, u, hrun, hrun', ?_, ?_⟩
  · unfold Disk.text? Disk.node?
    rw [hnodes]
    rfl
  · unfold Disk.text? Disk.node?
    rw [hnodes']
    rfl

end ChainQuery
