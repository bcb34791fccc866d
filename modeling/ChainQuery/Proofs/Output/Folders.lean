import ChainQuery.Proofs.Output.Deferral
import Mathlib.Data.List.Induction

/-!
# The output folder once a file is written

A folder in which a file was written is there from then on. Setting the output folder to it again makes
no folder and cannot fail.
-/

namespace ChainQuery

namespace Disk

variable {d d' : Disk} {folder : String}

theorem SameFolders.symm (h : d.SameFolders d') : d'.SameFolders d :=
  fun loc => (h loc).symm

/-- A folder that is found is found wherever the same folders are, and none is made on the way. -/
theorem SameFolders.follow (h : d.SameFolders d') (creating : Bool) {loc l : Location}
    {names : List String} (hfound : (Disk.follow false d loc names).2 = .ok l) :
    Disk.follow creating d' loc names = (d', .ok l) := by
  induction names generalizing loc with
  | nil =>
    cases hfound
    rfl
  | cons name names ih =>
    rw [Disk.follow] at hfound ⊢
    split
    · next hup =>
      rw [if_pos hup] at hfound
      exact ih hfound
    · next hup =>
      rw [if_neg hup] at hfound
      split
      · next hlimit =>
        rw [if_pos hlimit] at hfound
        cases hfound
      · next hlimit =>
        rw [if_neg hlimit] at hfound
        rcases hnode : d.node? (loc ++ [name]) with _ | _ | text
        · rw [hnode] at hfound
          cases hfound
        · rw [hnode] at hfound
          rw [(h _).mpr hnode]
          exact ih hfound
        · rw [hnode] at hfound
          cases hfound

def Finds (d : Disk) (folder : String) : Prop :=
  isBroken folder = false ∧ ∃ loc, d.reach folder = .ok loc

theorem finds_of_locate {name : String} {loc : Location} (h : d.locate folder name = .ok loc) :
    d.Finds folder := by
  unfold locate at h
  split at h
  · cases h
  · next hbroken =>
    have hfolder : isBroken folder = false := by
      rw [Bool.or_eq_true, not_or, Bool.not_eq_true] at hbroken
      exact hbroken.1
    refine ⟨hfolder, ?_⟩
    unfold reach
    split at h
    · cases h
    · next found hfound => exact ⟨found, hfound⟩

theorem Grows.finds (h : d.Grows d') (hfinds : d.Finds folder) : d'.Finds folder := by
  obtain ⟨hbroken, loc, hloc⟩ := hfinds
  refine ⟨hbroken, loc, ?_⟩
  rcases h.reach folder with hmissing | heq
  · rw [hmissing] at hloc
    cases hloc
  · rw [heq]
    exact hloc

theorem Finds.makeFolders (h : d.Finds folder) : d.makeFolders folder = (d, none) := by
  obtain ⟨hbroken, loc, hloc⟩ := h
  rw [makeFolders_eq, hbroken, (SameFolders.refl d).follow true hloc]
  rfl

section Homes
variable (h : d.SameFolders d') (hhome : d'.home = d.home)
include h hhome

theorem SameFolders.reach {loc : Location} (hfound : d.reach folder = .ok loc) :
    d'.reach folder = .ok loc := by
  have hstart : d'.pathStart folder = d.pathStart folder := by
    unfold pathStart
    rw [hhome]
  unfold Disk.reach at hfound ⊢
  rw [hstart, h.follow false hfound]

theorem SameFolders.finds (hfinds : d.Finds folder) : d'.Finds folder := by
  obtain ⟨hbroken, loc, hloc⟩ := hfinds
  exact ⟨hbroken, loc, h.reach hhome hloc⟩

theorem SameFolders.locate {name : String} {loc : Location}
    (hlocate : d.locate folder name = .ok loc) : d'.locate folder name = .ok loc := by
  obtain ⟨-, found, hfound⟩ := finds_of_locate hlocate
  have hfound' := h.reach hhome hfound
  unfold Disk.reach at hfound hfound'
  unfold Disk.locate at hlocate ⊢
  rw [hfound] at hlocate
  rw [hfound']
  exact hlocate

end Homes

def FindsFolder (d : Disk) (folder : Option String) : Prop :=
  ∃ f, folder = some f ∧ d.Finds f

theorem Grows.findsFolder {folder : Option String} (h : d.Grows d') (hfinds : d.FindsFolder folder) :
    d'.FindsFolder folder := by
  obtain ⟨f, hfolder, hf⟩ := hfinds
  exact ⟨f, hfolder, h.finds hf⟩

end Disk

section Writers
variable {folder : Option String} {d : Disk}

theorem FileWrite.eq_none_of_made {failure : Option WriterError} {write : String → FileWrite}
    (h : made folder failure write ≠ []) : failure = none := by
  cases failure with
  | none => rfl
  | some e => cases folder <;> exact absurd rfl h

theorem OutputFile.findsFolder_write {mode : Disk.WriteMode} {name extension text : String}
    (h : (write d mode folder name extension text).2 = none) :
    (write d mode folder name extension text).1.FindsFolder folder := by
  refine ((repeats_write d folder mode name extension text).grows d).findsFolder ?_
  rcases hmake : make folder name extension with e | file
  · rw [write_of_refused hmake] at h
    cases h
  · rw [write_of_make hmake] at h
    refine ⟨file.folder, (make_eq_ok hmake).1, ?_⟩
    rcases hlocate : d.locate file.folder file.name with e | loc
    · rw [Disk.write, hlocate] at h
      cases h
    · exact Disk.finds_of_locate hlocate

theorem Tables.findsFolder_writeTables {t : Tables} {tables : Keyed (List (List String))}
    (h : flushed folder t d tables ≠ []) : (t.writeTables folder d tables).2.1.FindsFolder folder := by
  induction tables generalizing t d with
  | nil => exact absurd rfl h
  | cons entry tables ih =>
    obtain ⟨table, records⟩ := entry
    rw [flushed] at h
    rw [writeTables]
    by_cases hrest : flushed folder (t.writeTable folder d table records).1
        (t.writeTable folder d table records).2.1 tables = []
    · rw [hrest, List.append_nil] at h
      have hmade := FileWrite.eq_none_of_made h
      rw [writeTable_eq] at hmade
      refine ((repeats_writeTables d folder _ tables).grows _).findsFolder ?_
      rw [writeTable_eq]
      exact OutputFile.findsFolder_write hmade
    · exact ih hrest

theorem LineLog.findsFolder_writeLines {l : LineLog} {lines : List String}
    (h : flushed folder l d lines ≠ []) : (l.writeLines folder d lines).2.1.FindsFolder folder := by
  unfold flushed at h
  by_cases hlines : lines = []
  · rw [if_pos hlines] at h
    exact absurd rfl h
  · rw [if_neg hlines] at h
    have hmade := FileWrite.eq_none_of_made h
    rw [writeLines_eq l folder d hlines] at hmade ⊢
    exact OutputFile.findsFolder_write hmade

theorem EventLogs.findsFolder_writeDocuments {documents : Keyed Document}
    (h : flushed folder d documents ≠ []) :
    (writeDocuments folder d documents).1.FindsFolder folder := by
  induction documents generalizing d with
  | nil => exact absurd rfl h
  | cons entry documents ih =>
    obtain ⟨process, traces⟩ := entry
    rw [flushed] at h
    rw [writeDocuments]
    by_cases hrest : flushed folder (OutputFile.write d .replace folder process "xes"
        (Document.text traces)).1 documents = []
    · rw [hrest, List.append_nil] at h
      have hmade := FileWrite.eq_none_of_made h
      exact ((repeats_writeDocuments d folder documents).grows _).findsFolder
        (OutputFile.findsFolder_write hmade)
    · exact ih hrest

end Writers

namespace Outputs

variable {o : Outputs}

theorem findsFolder_endBlock (h : o.blockFlushed ≠ []) :
    o.endBlock.1.disk.FindsFolder o.folder := by
  by_cases hlines : LineLog.flushed o.folder { o.lines with lines := o.lines.lines.endBlock.1 }
      (o.tables.endBlock o.folder o.disk).2.1 o.lines.lines.endBlock.2 = []
  · rw [blockFlushed, hlines, List.append_nil] at h
    exact ((LineLog.repeats_writeLines o.disk o.folder _ _).grows _).findsFolder
      (Tables.findsFolder_writeTables h)
  · exact LineLog.findsFolder_writeLines hlines

theorem findsFolder_endProgram (h : o.programFlushed ≠ []) :
    o.endProgram.1.disk.FindsFolder o.folder := by
  have hevents := (EventLogs.repeats_writeDocuments o.disk o.folder o.events.endBlock.documents).grows
    (o.lines.endProgram o.folder (o.tables.endProgram o.folder o.disk).2.1).2.1
  by_cases hdocuments : EventLogs.flushed o.folder
      (o.lines.endProgram o.folder (o.tables.endProgram o.folder o.disk).2.1).2.1
      o.events.endBlock.documents = []
  · rw [programFlushed, hdocuments, List.append_nil] at h
    refine hevents.findsFolder ?_
    by_cases hlines : LineLog.flushed o.folder { o.lines with lines := o.lines.lines.endProgram.1 }
        (o.tables.endProgram o.folder o.disk).2.1 o.lines.lines.endProgram.2 = []
    · rw [hlines, List.append_nil] at h
      exact ((LineLog.repeats_writeLines o.disk o.folder _ _).grows _).findsFolder
        (Tables.findsFolder_writeTables h)
    · exact LineLog.findsFolder_writeLines hlines
  · exact EventLogs.findsFolder_writeDocuments hdocuments

theorem findsFolder_follow {e : JournalEntry} (h : o.entryFlushed e ≠ []) :
    (o.follow e).1.disk.FindsFolder (o.follow e).1.folder := by
  rw [folder_follow o (by rintro path rfl; exact h rfl)]
  cases e with
  | closed failure =>
    cases failure with
    | none => exact findsFolder_endProgram h
    | some f => exact findsFolder_endProgram (o := o.discard) h
  | left c failure =>
    cases c with
    | block =>
      cases failure with
      | none => exact findsFolder_endBlock h
      | some f => exact absurd rfl h
    | _ => exact absurd rfl h
  | _ => exact absurd rfl h

/-- Once a file has been written, the output folder is only set to the path that it has. -/
def KeepsFolder (o : Outputs) (j : Journal) : Prop :=
  ∀ k path, k ++ [.moved path] <+: j → o.flushed k ≠ [] → (o.replay k).folder = some path

/-- It is enough that the output folder is not set after the first write. -/
theorem keepsFolder_of_unmoved {j k : Journal} (hj : o.flushed j = []) (hk : ∀ path, .moved path ∉ k) :
    o.KeepsFolder (j ++ k) := by
  intro l path ⟨m, hm⟩ hflushed
  rw [List.append_assoc] at hm
  rcases List.append_eq_append_iff.mp hm with ⟨n, rfl, -⟩ | ⟨n, rfl, rfl⟩
  · rw [flushed_append] at hj
    exact absurd (List.append_eq_nil_iff.mp hj).1 hflushed
  · exact absurd (List.mem_append_right n List.mem_cons_self) (hk path)

theorem moveTo_of_finds {path : String} (hfolder : o.folder = some path) (h : o.disk.Finds path) :
    o.moveTo path = o := by
  unfold moveTo setFolder
  rw [h.makeFolders, ← hfolder]

theorem findsFolder_replay {j k : Journal} (hkeeps : o.KeepsFolder j) (hk : k <+: j)
    (hflushed : o.flushed k ≠ []) : (o.replay k).disk.FindsFolder (o.replay k).folder := by
  induction k using List.reverseRecOn with
  | nil => exact absurd rfl hflushed
  | append_singleton k e ih =>
    rw [replay_concat]
    by_cases hbefore : o.flushed k = []
    · rw [flushed_concat, hbefore, List.nil_append] at hflushed
      exact findsFolder_follow hflushed
    · have hfound := ih ((List.prefix_append k [e]).trans hk) hbefore
      by_cases hmoved : ∃ path, e = .moved path
      · obtain ⟨path, rfl⟩ := hmoved
        have hfolder := hkeeps k path hk hbefore
        obtain ⟨f, hf, hfinds⟩ := hfound
        obtain rfl : f = path := Option.some.inj (hf.symm.trans hfolder)
        rw [follow, moveTo_of_finds hfolder hfinds]
        exact ⟨f, hf, hfinds⟩
      · rw [folder_follow _ fun path hpath => hmoved ⟨path, hpath⟩]
        exact ((o.replay k).grows_follow e).findsFolder hfound

/-- What the output folder is set to once a file has been written is there, and is the folder it has. -/
theorem KeepsFolder.finds {j k : Journal} {path : String} (hkeeps : o.KeepsFolder j)
    (hk : k ++ [.moved path] <+: j) (hflushed : o.flushed k ≠ []) :
    (o.replay k).folder = some path ∧ (o.replay k).disk.Finds path := by
  have hfolder := hkeeps k path hk hflushed
  obtain ⟨f, hf, hfinds⟩ := findsFolder_replay hkeeps ((List.prefix_append _ _).trans hk) hflushed
  obtain rfl : f = path := Option.some.inj (hf.symm.trans hfolder)
  exact ⟨hfolder, hfinds⟩

end Outputs
end ChainQuery
