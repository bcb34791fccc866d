import ChainQuery.Proofs.Execution.Atomicity
import ChainQuery.Proofs.Execution.Moves
import ChainQuery.Proofs.Output.Refusals

/-!
# Where the files of a run are

A file is of one table, of one process or of the line log. Its name is that of an entry of the output
folder whatever the table or the process is called, so that the path to it does not lead out of the
folder, and no two of them have the same name. What a run writes are these files and no other ones, each
in the folder that is the output folder when it is due.
-/

namespace ChainQuery

namespace Disk

variable {d : Disk} {name : String}

structure IsEntry (name : String) : Prop where
  slash : '/' ∉ name.toList
  nonempty : name ≠ ""
  here : name ≠ "."
  up : name ≠ ".."

theorem pathParts_ne_nil (cs : List Char) : pathParts cs ≠ [] := by
  cases cs with
  | nil => exact List.cons_ne_nil _ _
  | cons c cs =>
    rw [pathParts]
    split
    · exact List.cons_ne_nil _ _
    · split
      · exact List.cons_ne_nil _ _
      · exact List.cons_ne_nil _ _

theorem pathParts_append (cs ds : List Char) :
    pathParts (cs ++ '/' :: ds) = pathParts cs ++ pathParts ds := by
  induction cs with
  | nil => rfl
  | cons c cs ih =>
    rw [List.cons_append, pathParts, pathParts, ih]
    split
    · rfl
    · rcases hparts : pathParts cs with _ | ⟨part, parts⟩
      · exact absurd hparts (pathParts_ne_nil cs)
      · rfl

theorem pathParts_of_not_mem {cs : List Char} (h : '/' ∉ cs) : pathParts cs = [cs] := by
  induction cs with
  | nil => rfl
  | cons c cs ih =>
    obtain ⟨hc, hcs⟩ := not_or.mp (mt List.mem_cons.mpr h)
    rw [pathParts, if_neg (Ne.symm hc), ih hcs]

theorem pathNames_append {path front back : String}
    (h : path.toList = front.toList ++ '/' :: back.toList) :
    pathNames path = pathNames front ++ pathNames back := by
  rw [pathNames, h, pathParts_append, List.map_append, List.filter_append]
  rfl

/-- A slash at the end of a path adds no name. -/
theorem pathNames_ended {path front : String} (h : path.toList = front.toList ++ ['/']) :
    pathNames path = pathNames front := by
  have hjoined : pathNames path = pathNames front ++ pathNames "" := by
    apply pathNames_append
    rw [h]
    rfl
  have hnone : pathNames "" = [] := rfl
  rw [hjoined, hnone, List.append_nil]

theorem IsEntry.pathNames (h : IsEntry name) : pathNames name = [name] := by
  rw [Disk.pathNames, pathParts_of_not_mem h.slash, List.map_singleton, String.ofList_toList]
  simp [h.nonempty, h.here]

theorem IsEntry.head?_ne (h : IsEntry name) : name.toList.head? ≠ some '/' :=
  fun hhead => h.slash (List.mem_of_head? hhead)

theorem pathStart_append {path folder : String} {rest : List Char}
    (h : path.toList = folder.toList ++ rest) (hfolder : folder.toList ≠ []) :
    d.pathStart path = d.pathStart folder := by
  obtain ⟨c, cs, hcs⟩ := List.exists_cons_of_ne_nil hfolder
  rw [pathStart, pathStart, h, hcs]
  rfl

end Disk

namespace OutputFile

/-- The path of a file. A slash is put between the folder and the name where there is none, and a name
that starts with one is a path from the root. -/
def path (file : OutputFile) : String :=
  if file.name.toList.head? = some '/' then file.name
  else if file.folder.toList = [] ∨ file.folder.toList.getLast? = some '/' then
    file.folder ++ file.name
  else file.folder ++ "/" ++ file.name

/-- The path of a file whose name is an entry leads into the folder, one name further. -/
theorem resolve_path {file : OutputFile} (h : Disk.IsEntry file.name) (d : Disk) :
    d.resolve file.path = d.resolve file.folder ++ [file.name] := by
  obtain ⟨hstart, hnames⟩ : d.pathStart file.path = d.pathStart file.folder ∧
      Disk.pathNames file.path = Disk.pathNames file.folder ++ [file.name] := by
    rw [path, if_neg h.head?_ne, ← h.pathNames]
    split
    · next hjoined =>
      rcases hjoined with hempty | hlast
      · obtain hfolder : file.folder = "" := String.toList_eq_nil_iff.mp hempty
        rw [hfolder, String.empty_append]
        refine ⟨?_, rfl⟩
        rw [Disk.pathStart, if_neg h.head?_ne]
        rfl
      · -- the slash at the end of the folder stands between the folder and the name
        obtain ⟨cs, hcs⟩ := List.getLast?_eq_some_iff.mp hlast
        have hfolder : file.folder.toList = (String.ofList cs).toList ++ ['/'] := by
          rw [hcs, String.toList_ofList]
        have hne : file.folder.toList ≠ [] := by
          rw [hcs]
          exact List.append_ne_nil_of_right_ne_nil _ (List.cons_ne_nil _ _)
        refine ⟨Disk.pathStart_append String.toList_append hne, ?_⟩
        rw [Disk.pathNames_ended hfolder]
        apply Disk.pathNames_append
        rw [String.toList_append, hfolder, List.append_assoc]
        rfl
    · next hjoined =>
      have hjoin : (file.folder ++ "/" ++ file.name).toList =
          file.folder.toList ++ '/' :: file.name.toList := by
        rw [String.toList_append, String.toList_append, List.append_assoc]
        rfl
      exact ⟨Disk.pathStart_append hjoin (not_or.mp hjoined).1, Disk.pathNames_append hjoin⟩
  have henter : ∀ loc, Disk.enter loc file.name = loc ++ [file.name] :=
    fun loc => if_neg h.up
  rw [Disk.resolve, Disk.resolve, hstart, hnames, List.foldl_append, List.foldl_cons, List.foldl_nil,
    henter]

end OutputFile

inductive FileOwner where
  | table (name : String)
  | process (id : String)
  | lines
deriving DecidableEq, Repr

namespace FileOwner

def name : FileOwner → String
  | table name => name
  | process id => id
  | lines => "log"

def extension : FileOwner → String
  | table _ => "csv"
  | process _ => "xes"
  | lines => "txt"

def fileName (x : FileOwner) : String :=
  x.name ++ "." ++ x.extension

theorem toList_fileName (x : FileOwner) :
    x.fileName.toList = x.name.toList ++ '.' :: x.extension.toList := by
  rw [fileName, String.toList_append, String.toList_append, List.append_assoc]
  rfl

theorem length_extension (x : FileOwner) : x.extension.toList.length = 3 := by
  cases x <;> simp [extension]

theorem eq_of_name {x y : FileOwner} (hname : x.name = y.name)
    (hextension : x.extension = y.extension) : x = y := by
  cases x <;> cases y <;> simp_all [name, extension]

/-- All extensions are of the same length, so that a file name is split in one way only. -/
theorem fileName_injective {x y : FileOwner} (h : x.fileName = y.fileName) : x = y := by
  have hchars := congrArg String.toList h
  rw [toList_fileName, toList_fileName] at hchars
  have hlength : ('.' :: x.extension.toList).length = ('.' :: y.extension.toList).length := by
    rw [List.length_cons, List.length_cons, length_extension, length_extension]
  obtain ⟨hname, hsuffix⟩ := List.append_inj' hchars hlength
  exact eq_of_name (String.toList_inj.mp hname) (String.toList_inj.mp (List.cons.inj hsuffix).2)

theorem isEntry_fileName {x : FileOwner} (h : OutputFile.isName x.name = true) :
    Disk.IsEntry x.fileName := by
  have hlong : ∀ s : String, s.toList.length < 4 → x.fileName ≠ s := by
    rintro s hs rfl
    rw [toList_fileName, List.length_append, List.length_cons, length_extension] at hs
    omega
  refine ⟨fun hslash => ?_, hlong _ (by decide), hlong _ (by decide), hlong _ (by decide)⟩
  rw [toList_fileName] at hslash
  rcases List.mem_append.mp hslash with hname | hextension
  · simp [OutputFile.isName, hname] at h
  · cases x <;> simp [extension] at hextension

end FileOwner

namespace Disk

variable {d d' d'' : Disk} {folder : Option String} {x : FileOwner} {loc : Location}

/-- The place of a file in the output folder, if it can be written there. -/
def destination? (d : Disk) (folder : Option String) (x : FileOwner) : Option Location :=
  (OutputFile.make folder x.name x.extension).toOption.bind fun file =>
    (d.locate file.folder file.name).toOption

/-- A place is right inside a folder that is there, and the path of the file leads to it. -/
structure Child (d : Disk) (f : String) (x : FileOwner) (loc : Location) : Prop where
  entry : IsEntry x.fileName
  inside : ∃ dir, d.reach f = .ok dir ∧ loc = dir ++ [x.fileName]
  path : d.resolve (OutputFile.path ⟨f, x.fileName⟩) = loc

theorem child_of_destination? (h : d.destination? folder x = some loc) :
    ∃ f, folder = some f ∧ d.Child f x loc := by
  obtain ⟨⟨f, name⟩, hmake, hloc⟩ := Option.bind_eq_some_iff.mp h
  have hmade := except_toOption_eq_some.mp hmake
  have hlocate := except_toOption_eq_some.mp hloc
  obtain ⟨hfolder, hname⟩ := OutputFile.make_eq_ok hmade
  obtain rfl : name = x.fileName := hname
  have hentry := FileOwner.isEntry_fileName (OutputFile.isName_of_make hmade)
  obtain ⟨-, dir, hdir⟩ := finds_of_locate hlocate
  have hresolved : dir = d.resolve f := follow_eq_ok hdir
  have hplace : loc = d.resolve f ++ [x.fileName] := locate_eq_ok hlocate
  refine ⟨f, hfolder, hentry, ⟨dir, hdir, ?_⟩, ?_⟩
  · rw [hplace, hresolved]
  · rw [hplace]
    exact OutputFile.resolve_path hentry d

/-- Files of different tables and processes are in different places, in whatever folders they are. -/
theorem Child.owner_eq {f f' : String} {y : FileOwner} (hx : d.Child f x loc)
    (hy : d'.Child f' y loc) : x = y := by
  obtain ⟨dir, -, hx⟩ := hx.inside
  obtain ⟨dir', -, hy⟩ := hy.inside
  exact FileOwner.fileName_injective (List.append_singleton_inj.mp (hx.symm.trans hy)).2

theorem destination?_eq (hfolders : d.SameFolders d') (hhome : d'.home = d.home) :
    d'.destination? = d.destination? := by
  have hlocate : ∀ f name, (d'.locate f name).toOption = (d.locate f name).toOption := by
    intro f name
    ext loc
    rw [except_toOption_eq_some, except_toOption_eq_some]
    exact ⟨hfolders.symm.locate hhome.symm, hfolders.locate hhome⟩
  funext folder x
  simp only [destination?, hlocate]

/-- A disk after writes were tried at some places, in this order. -/
structure Tried (d : Disk) (locs : List Location) (d' : Disk) : Prop where
  home : d'.home = d.home
  written : d'.written = locs.reverse ++ d.written
  text : ∀ loc, loc ∉ locs → d'.text? loc = d.text? loc

namespace Tried

theorem refl (d : Disk) : d.Tried [] d :=
  ⟨rfl, rfl, fun _ _ => rfl⟩

theorem append {locs locs' : List Location} (h : d.Tried locs d') (h' : d'.Tried locs' d'') :
    d.Tried (locs ++ locs') d'' where
  home := h'.home.trans h.home
  written := by rw [h'.written, h.written, List.reverse_append, List.append_assoc]
  text := by
    intro loc hloc
    rw [List.mem_append, not_or] at hloc
    exact (h'.text loc hloc.2).trans (h.text loc hloc.1)

end Tried

theorem tried_makeFolders (d : Disk) (path : String) : d.Tried [] (d.makeFolders path).1 where
  home := (d.makeFolders_text path).1
  written := (d.makeFolders_untouched path).1
  text := fun loc _ => (d.makeFolders_text path).2 loc

/-- A write is tried at the place of the file, if it has one, and nowhere else. -/
theorem tried_write (d : Disk) (mode : WriteMode) (f name text : String) :
    d.Tried (d.locate f name).toOption.toList (d.write mode f name text).1 := by
  rcases hlocate : d.locate f name with e | loc
  · rw [write, hlocate]
    exact .refl d
  · have htouched := touched_write hlocate mode text
    refine ⟨htouched.home, htouched.written, fun l hl => ?_⟩
    rw [text?, text?, htouched.node fun heq => hl (List.mem_singleton.mpr heq)]

/-- A disk after the files of some owners were written or could not be, in this order. -/
structure Served (d : Disk) (folder : Option String) (xs : List FileOwner) (d' : Disk) : Prop where
  tried : d.Tried (xs.filterMap (d.destination? folder)) d'
  folders : d.SameFolders d'

theorem Served.refl (d : Disk) (folder : Option String) : d.Served folder [] d :=
  ⟨.refl d, .refl d⟩

theorem Served.append {xs ys : List FileOwner} (h : d.Served folder xs d')
    (h' : d'.Served folder ys d'') : d.Served folder (xs ++ ys) d'' := by
  refine ⟨?_, h.folders.trans h'.folders⟩
  have htried := h'.tried
  rw [destination?_eq h.folders h.tried.home] at htried
  rw [List.filterMap_append]
  exact h.tried.append htried

end Disk

theorem OutputFile.served_write (d : Disk) (mode : Disk.WriteMode) (folder : Option String)
    (x : FileOwner) (text : String) :
    d.Served folder [x] (write d mode folder x.name x.extension text).1 := by
  refine ⟨?_, sameFolders_write d mode folder x.name x.extension text⟩
  rw [List.filterMap_eq_flatMap_toList, List.flatMap_singleton]
  rcases hmake : make folder x.name x.extension with e | file
  · rw [write_of_refused hmake, Disk.destination?, hmake]
    exact .refl d
  · rw [write_of_make hmake, Disk.destination?, hmake]
    exact d.tried_write mode file.folder file.name text

theorem Tables.served_writeTables (t : Tables) (folder : Option String) (d : Disk)
    (tables : Keyed (List (List String))) :
    d.Served folder ((Keyed.keys tables).map .table) (t.writeTables folder d tables).2.1 := by
  induction tables generalizing t d with
  | nil => exact .refl d folder
  | cons entry tables ih =>
    obtain ⟨table, records⟩ := entry
    have hfirst : d.Served folder [.table table] (t.writeTable folder d table records).2.1 := by
      rw [writeTable_eq]
      exact OutputFile.served_write d _ folder (.table table) _
    exact hfirst.append (ih _ _)

theorem LineLog.served_writeLines (l : LineLog) (folder : Option String) (d : Disk)
    (lines : List String) :
    d.Served folder (if lines = [] then [] else [.lines]) (l.writeLines folder d lines).2.1 := by
  by_cases hlines : lines = []
  · rw [if_pos hlines, writeLines, if_pos hlines]
    exact .refl d folder
  · rw [if_neg hlines, writeLines_eq l folder d hlines]
    exact OutputFile.served_write d _ folder .lines _

theorem EventLogs.served_writeDocuments (folder : Option String) (d : Disk)
    (documents : Keyed Document) :
    d.Served folder ((Keyed.keys documents).map .process) (writeDocuments folder d documents).1 := by
  induction documents generalizing d with
  | nil => exact .refl d folder
  | cons entry documents ih =>
    obtain ⟨process, traces⟩ := entry
    exact (OutputFile.served_write d .replace folder (.process process) _).append (ih _)

/-- What the files are of that are written for a handover, in this order. -/
def Handover.owners (h : Handover) : List FileOwner :=
  (Keyed.keys (TableRow.byTable h.rows)).map .table ++ (if h.lines = [] then [] else [.lines]) ++
    (Keyed.keys h.documents).map .process

namespace Outputs

variable {o : Outputs} {j : Journal} {x : FileOwner} {loc : Location}

/-- The files that are written at an entry, or are tried to be: what they are of, and where they are. -/
def destinations (o : Outputs) (e : JournalEntry) : List (FileOwner × Location) :=
  (o.handOver e).2.owners.filterMap fun x => (o.disk.destination? o.folder x).map (x, ·)

/-- The files that are written along a journal, or are tried to be. -/
def destined (o : Outputs) : Journal → List (FileOwner × Location)
  | [] => []
  | e :: j => o.destinations e ++ (o.follow e).1.destined j

theorem map_destinations (o : Outputs) (e : JournalEntry) :
    (o.destinations e).map Prod.snd =
      (o.handOver e).2.owners.filterMap (o.disk.destination? o.folder) := by
  rw [destinations, List.map_filterMap]
  congr 1
  funext x
  rw [Option.map_map]
  exact Option.map_id_apply

theorem served_flush (o : Outputs) (h : Handover) :
    o.disk.Served o.folder h.owners (o.flush h).1.disk := by
  have htables := o.tables.served_writeTables o.folder o.disk (TableRow.byTable h.rows)
  have hlines := htables.append (o.lines.served_writeLines o.folder _ h.lines)
  exact hlines.append (EventLogs.served_writeDocuments o.folder _ h.documents)

/-- An entry writes the files that are due at it and no other ones. -/
theorem tried_follow (o : Outputs) (e : JournalEntry) :
    o.disk.Tried ((o.destinations e).map Prod.snd) (o.follow e).1.disk := by
  have hflushed : (∀ item, e ≠ .staged item) → (∀ path, e ≠ .moved path) →
      o.disk.Tried ((o.destinations e).map Prod.snd) (o.follow e).1.disk := by
    intro hstaged hmoved
    rw [follow_eq_flush o hstaged hmoved, map_destinations]
    exact ((o.handOver e).1.served_flush _).tried
  cases e with
  | entered x => exact hflushed nofun nofun
  | left c failure => exact hflushed nofun nofun
  | closed failure => exact hflushed nofun nofun
  | staged item =>
    rw [(o.staged_untouched item).2]
    exact .refl o.disk
  | moved path =>
    show o.disk.Tried [] (o.moveTo path).disk
    rw [disk_moveTo]
    exact o.disk.tried_makeFolders path

theorem tried_replay (o : Outputs) (j : Journal) :
    o.disk.Tried ((o.destined j).map Prod.snd) (o.replay j).disk := by
  induction j generalizing o with
  | nil => exact .refl o.disk
  | cons e j ih =>
    rw [destined, List.map_append, replay_cons]
    exact (o.tried_follow e).append (ih _)

theorem child_of_mem_destinations {e : JournalEntry} (h : (x, loc) ∈ o.destinations e) :
    ∃ f, o.folder = some f ∧ o.disk.Child f x loc := by
  obtain ⟨y, -, hy⟩ := List.mem_filterMap.mp h
  obtain ⟨l, hl, heq⟩ := Option.map_eq_some_iff.mp hy
  cases heq
  exact Disk.child_of_destination? hl

/-- Each file that is written along a journal is written at one of its entries. -/
theorem exists_of_mem_destined (h : (x, loc) ∈ o.destined j) :
    ∃ k e l, j = k ++ e :: l ∧ (x, loc) ∈ (o.replay k).destinations e := by
  induction j generalizing o with
  | nil => exact absurd h List.not_mem_nil
  | cons e j ih =>
    rcases List.mem_append.mp h with h | h
    · exact ⟨[], e, j, rfl, h⟩
    · obtain ⟨k, e', l, rfl, hmem⟩ := ih h
      exact ⟨e :: k, e', l, rfl, hmem⟩

end Outputs

/-- The files that are written along a journal stay in the output folder, and apart. -/
structure Outputs.Confined (o : Outputs) (j : Journal) : Prop where
  /-- What is written is what is due, file by file. -/
  written : (o.replay j).disk.written = ((o.destined j).map Prod.snd).reverse ++ o.disk.written
  /-- No other file is made or changed. -/
  text : ∀ loc, loc ∉ (o.destined j).map Prod.snd → (o.replay j).disk.text? loc = o.disk.text? loc
  /-- What is due at an entry is written right inside the folder that is the output folder then. -/
  child : ∀ k e l, j = k ++ e :: l → ∀ x loc, (x, loc) ∈ (o.replay k).destinations e →
    ∃ f, (o.replay k).folder = some f ∧ (o.replay k).disk.Child f x loc
  /-- No two tables or processes, nor one and the line log, are written to the same place. -/
  apart : ∀ x y loc, (x, loc) ∈ o.destined j → (y, loc) ∈ o.destined j → x = y

theorem Outputs.confined (o : Outputs) (j : Journal) : o.Confined j where
  written := (o.tried_replay j).written
  text := (o.tried_replay j).text
  child := fun _ _ _ _ _ _ => child_of_mem_destinations
  apart := by
    intro x y loc hx hy
    obtain ⟨_, _, _, -, hx⟩ := exists_of_mem_destined hx
    obtain ⟨_, _, _, -, hy⟩ := exists_of_mem_destined hy
    obtain ⟨_, -, hx⟩ := child_of_mem_destinations hx
    obtain ⟨_, -, hy⟩ := child_of_mem_destinations hy
    exact hx.owner_eq hy

theorem Program.replays_run {looks : Nat} {p : Program} {s t : RunState}
    {result : Except ExecutionError Unit} (h : p.run? looks s = some (result, t)) :
    ∃ j, s.Replays j t := by
  obtain ⟨u, failure, ⟨j, -, hleads⟩, hquiet⟩ :=
    p.state_of_run (laws_traced .block) looks (Nat.le_refl _) h
  have hbody : s.Replays j u := ⟨hleads.journal, hleads.outputs⟩
  have hclosed : u.Replays [.closed failure] t := ⟨hquiet.journal, hquiet.outputs⟩
  exact ⟨_, hbody.append hclosed⟩

/-- Whatever its tables and processes are called, a run writes only right inside the folder that is the
output folder at the time, and no two tables or processes, nor one and the line log, have a file in
common. It is so at the end of a run, and at every point of one, whether it ends or not. -/
theorem files_in_output_folder (s : RunState) :
    (∀ looks p result t, Program.run? looks p s = some (result, t) →
      ∃ j, s.Replays j t ∧ s.outputs.Confined j) ∧
    ∀ f u, Path .going s f u → ∃ j, s.Replays j u ∧ s.outputs.Confined j := by
  constructor
  · intro looks p result t hrun
    obtain ⟨j, hj⟩ := Program.replays_run hrun
    exact ⟨j, hj, s.outputs.confined j⟩
  · intro f u hpath
    obtain ⟨j, hj⟩ := hpath.replays
    exact ⟨j, hj, s.outputs.confined j⟩

/-- A table, the line log and two processes with names that are alike, in two folders. The name of one
process leads out of the folder. -/
def sameNames : Program :=
  ⟨[.setFolder "a", singleScan [.emit (.row "log" [("x", .literal (.int 1))]), fixedLine "y"],
    .setFolder "b/../c/", .emit (.trace (.literal (.str "../log")) (.literal (.str "1")) []),
    .emit (.trace (.literal (.str "log")) (.literal (.str "1")) [])]⟩

def sameNamesJournal : Journal :=
  [.moved "a", .entered (.block { number := 1 }), .staged (.row "log" [("x", "1")]),
    .staged (.line "y"), .left .block none, .moved "b/../c/", .staged (.record ⟨"../log", "1", .trace, []⟩),
    .staged (.record ⟨"log", "1", .trace, []⟩), .closed none]

theorem sameNames_ends : (sameNames.run? 0 singleStart).map (fun ended =>
    (Run.failure? ended.1, ended.2.journal, ended.2.outputs.disk.written)) =
      some (some (.writer (.invalidFileName "../log")), sameNamesJournal,
        [["c", "log.xes"], ["a", "log.txt"], ["a", "log.csv"]]) := by
  decide +kernel

theorem files_in_output_folder_sameNames :
    ∃ result t, sameNames.run? 0 singleStart = some (result, t) ∧
      t.outputs.disk.written = [["c", "log.xes"], ["a", "log.txt"], ["a", "log.csv"]] ∧
      (∃ j, singleStart.Replays j t ∧ singleStart.outputs.Confined j ∧
        singleStart.outputs.destined j = [(.table "log", ["a", "log.csv"]),
          (.lines, ["a", "log.txt"]), (.process "log", ["c", "log.xes"])]) ∧
      ∀ f u, Path .going singleStart f u →
        ∃ j, singleStart.Replays j u ∧ singleStart.outputs.Confined j := by
  obtain ⟨⟨result, t⟩, hrun, heq⟩ := Option.map_eq_some_iff.mp sameNames_ends
  obtain ⟨hjournal, hwritten⟩ := Prod.mk.inj (Prod.mk.inj heq).2
  obtain ⟨hends, hpaths⟩ := files_in_output_folder singleStart
  obtain ⟨j, hreplays, hconfined⟩ := hends 0 sameNames result t hrun
  obtain rfl : j = sameNamesJournal := hreplays.journal.symm.trans hjournal
  exact ⟨result, t, hrun, hwritten, ⟨_, hreplays, hconfined, by decide +kernel⟩, hpaths⟩

end ChainQuery
