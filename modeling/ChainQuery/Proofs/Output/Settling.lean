import ChainQuery.Proofs.Output.Texts
import ChainQuery.Proofs.Output.Trails

/-!
# Outputs that have received the same

Where all writes are made in one folder, the files, the network and the accounts of deliveries depend
only on the items that the outputs have received in the end, and not on when they have written them.
-/

namespace ChainQuery

namespace Journal

theorem mem_of_mem_kept {item : OutputItem} {j : Journal} (h : item ∈ kept j) : .staged item ∈ j := by
  induction j with
  | nil => exact absurd h List.not_mem_nil
  | cons e j ih =>
    rw [kept] at h
    split at h
    · rcases List.mem_append.mp h with hitem | hrest
      · cases e with
        | staged item' =>
          rw [List.mem_singleton.mp hitem]
          exact List.mem_cons_self
        | _ => exact absurd hitem List.not_mem_nil
      · exact List.mem_cons_of_mem _ (ih hrest)
    · exact List.mem_cons_of_mem _ (ih h)

theorem kept_subset_append (j k : Journal) : kept j ⊆ kept (j ++ k) := by
  rw [kept_append, List.append_assoc]
  exact List.subset_append_left _ _

end Journal

namespace FileWrite

variable {d d' : Disk} {ws : List FileWrite} {name extension : String}

theorem toFile_ne_nil :
    toFile name extension ws ≠ [] ↔ ∃ w ∈ ws, w.name = name ∧ w.extension = extension := by
  simp [toFile, List.filter_eq_nil_iff]

theorem Parts.exists_iff {render : List α → String} {contents : List α} {opened : Prop}
    (h : Parts ws name extension render contents opened) :
    (∃ w ∈ ws, w.name = name ∧ w.extension = extension) ↔ contents ≠ [] := by
  have hnone := h.contents_eq_nil
  obtain ⟨parts, hto, -, hopened, -⟩ := h.parts
  have hchunks : chunks name extension render parts = [] ↔ parts = [] := by
    cases parts with
    | nil => exact iff_of_true rfl rfl
    | cons part parts => exact iff_of_false nofun nofun
  rw [← toFile_ne_nil, hto, ne_eq, hchunks, ne_eq, hnone, hopened, Decidable.not_not]

theorem foldl_after_of_ne {l : Location} (h : ∀ w ∈ ws, w.location d ≠ l) (old : Option String) :
    ws.foldl (after d l) old = old := by
  induction ws with
  | nil => rfl
  | cons w ws ih =>
    rw [List.foldl_cons, after, if_neg (h w List.mem_cons_self)]
    exact ih fun v hv => h v (List.mem_cons_of_mem _ hv)

section OneFolder
variable {dir : Location} (hwrote : d.Wrote ws d') (hnamed : ∀ w ∈ ws, Outputs.Named w)
variable (hdir : ∀ w ∈ ws, d.resolve w.folder = dir) (hlength : extension.length = 3)
include hwrote hnamed hlength

theorem text_eq_foldl (dir : Location) : d'.text? (dir ++ [name ++ "." ++ extension]) =
    (toFile name extension ws).foldl (after d (dir ++ [name ++ "." ++ extension]))
      (d.text? (dir ++ [name ++ "." ++ extension])) := by
  rw [hwrote.text, foldl_toFile]
  intro w hw hlocation
  obtain ⟨-, hname⟩ := List.append_inj' hlocation rfl
  exact fileName_inj ((hnamed w hw).length.trans hlength.symm) (List.cons.inj hname).1

include hdir

theorem Parts.text_eq {render : List α → String} (hrender : Renders render) {contents : List α}
    {opened : Prop} (h : Parts ws name extension render contents opened) :
    d'.text? (dir ++ [name ++ "." ++ extension]) =
      if contents = [] then d.text? (dir ++ [name ++ "." ++ extension])
      else some (render contents) := by
  have hnone := h.contents_eq_nil
  obtain ⟨parts, hto, hcontents, hopened, -⟩ := h.parts
  have hall : ∀ part ∈ parts, d.resolve part.1 = dir := by
    intro part hpart
    have hmem : ∃ w ∈ toFile name extension ws, w.folder = part.1 := by
      rw [hto]
      cases parts with
      | nil => exact absurd hpart List.not_mem_nil
      | cons first rest =>
        rcases List.mem_cons.mp hpart with rfl | hpart
        · exact ⟨_, List.mem_cons_self, rfl⟩
        · exact ⟨_, List.mem_cons_of_mem _ (List.mem_map.mpr ⟨part, hpart, rfl⟩), rfl⟩
    obtain ⟨w, hw, hfolder⟩ := hmem
    rw [← hfolder]
    exact hdir w (List.mem_filter.mp hw).1
  have hat : d.partsAt parts dir = parts :=
    List.filter_eq_self.mpr fun part hpart => decide_eq_true (hall part hpart)
  rw [text_eq_foldl hwrote hnamed hlength, hto]
  have hchunks : (chunks name extension render (openedBy [] parts)).foldl
      (after d (dir ++ [name ++ "." ++ extension])) (d.text? (dir ++ [name ++ "." ++ extension])) =
        d.textAfter render [] (name ++ "." ++ extension) parts dir := foldl_chunks hrender [] dir parts
  have hopen : openedBy [] parts = parts := by
    cases parts <;> rfl
  rw [hopen] at hchunks
  rw [hchunks, Disk.textAfter, hat, hcontents]
  cases parts with
  | nil =>
    rw [if_pos (hnone.mpr fun ho => hopened.mp ho rfl)]
    rfl
  | cons first rest =>
    have hbegins : d.beginsAt (first :: rest) dir = true :=
      decide_eq_true (hall first List.mem_cons_self)
    rw [if_neg fun hnil => hnone.mp hnil (hopened.mpr (List.cons_ne_nil _ _)), hbegins]
    rfl

theorem text_eq_of_document {text : Option String} {folder : String}
    (h : toFile name extension ws =
      (text.map fun text => (⟨folder, name, extension, .replace, text⟩ : FileWrite)).toList) :
    d'.text? (dir ++ [name ++ "." ++ extension]) =
      text.or (d.text? (dir ++ [name ++ "." ++ extension])) := by
  rw [text_eq_foldl hwrote hnamed hlength, h]
  cases text with
  | none => rfl
  | some text =>
    have hmem : (⟨folder, name, extension, .replace, text⟩ : FileWrite) ∈ ws := by
      have hto : (⟨folder, name, extension, .replace, text⟩ : FileWrite) ∈ toFile name extension ws := by
        rw [h]
        exact List.mem_cons_self
      exact (List.mem_filter.mp hto).1
    exact (after_eq d dir folder .replace text _).trans (if_pos (hdir _ hmem))

end OneFolder
end FileWrite

namespace Tables

theorem records_ne_nil {table : String} {items : List OutputItem} :
    records table items ≠ [] ↔ ∃ cells, .row table cells ∈ items := by
  rw [records, ne_eq, withColumns_eq_nil]
  constructor
  · intro hne
    obtain ⟨cells, hcells⟩ := List.exists_mem_of_ne_nil _ hne
    exact ⟨cells, mem_of_cells hcells⟩
  · rintro ⟨cells, hmem⟩ hnil
    have hcells : cells ∈ items.filterMap (OutputItem.cells? table) :=
      List.mem_filterMap.mpr ⟨_, hmem, if_pos rfl⟩
    rw [hnil] at hcells
    exact absurd hcells List.not_mem_nil

end Tables

namespace Outputs

variable {o o' p p' : Outputs} {kept waiting items : List OutputItem} {ws vs : List FileWrite}

/-- What is kept is written to a file. -/
theorem Holds.exists_kept (h : Holds o o' kept waiting ws) {w : FileWrite} (hw : w ∈ ws)
    (hnamed : Named w) :
    w.extension = "csv" ∧ (∃ cells, .row w.name cells ∈ kept) ∨
      w.name = "log" ∧ w.extension = "txt" ∧ ∃ text, .line text ∈ kept := by
  rcases hnamed with hcsv | ⟨hlog, htxt⟩ | hxes
  · obtain ⟨-, done, hsplits, hparts⟩ := h.tables
    obtain ⟨left, hkept, -⟩ := hsplits.committed
    obtain ⟨cells, hcells⟩ :=
      Tables.records_ne_nil.mp ((hparts w.name).exists_iff.mp ⟨w, hw, rfl, hcsv⟩)
    rw [hkept]
    exact .inl ⟨hcsv, cells, List.mem_append_left _ hcells⟩
  · obtain ⟨done, hsplits, hparts⟩ := h.lines
    obtain ⟨left, hkept, -⟩ := hsplits.committed
    obtain ⟨text, htext⟩ := List.exists_mem_of_ne_nil _ (hparts.exists_iff.mp ⟨w, hw, hlog, htxt⟩)
    obtain ⟨item, hitem, hline⟩ := List.mem_filterMap.mp htext
    cases item with
    | line text' =>
      rw [hkept]
      exact .inr ⟨hlog, htxt, text', List.mem_append_left _ hitem⟩
    | _ => cases hline
  · exact absurd hxes (h.undocumented w hw)

/-- The files of kept items are written by the time that these have arrived. -/
theorem Settles.exists_write (h : Settles p items p' vs) (hheld : Holds o o' kept waiting ws)
    (hsub : kept ⊆ items) {w : FileWrite} (hw : w ∈ ws) (hnamed : Named w) :
    ∃ v ∈ vs, v.name = w.name ∧ v.extension = w.extension := by
  rcases hheld.exists_kept hw hnamed with ⟨hcsv, cells, hcells⟩ | ⟨hlog, htxt, text, htext⟩
  · obtain ⟨_, hparts⟩ := h.tables w.name
    rw [hcsv]
    exact hparts.exists_iff.mpr (Tables.records_ne_nil.mpr ⟨cells, hsub hcells⟩)
  · obtain ⟨_, hparts⟩ := h.lines
    rw [hlog, htxt]
    refine hparts.exists_iff.mpr (List.ne_nil_of_mem (a := text) ?_)
    exact List.mem_filterMap.mpr ⟨_, hsub htext, rfl⟩

theorem Settles.ne_nil (h : Settles p items p' vs) {v : FileWrite} (hv : v ∈ vs) (hnamed : Named v) :
    items ≠ [] := by
  rintro rfl
  rcases hnamed with hcsv | ⟨hlog, htxt⟩ | hxes
  · obtain ⟨_, hparts⟩ := h.tables v.name
    exact hparts.exists_iff.mp ⟨v, hv, rfl, hcsv⟩ rfl
  · obtain ⟨_, hparts⟩ := h.lines
    exact hparts.exists_iff.mp ⟨v, hv, hlog, htxt⟩ rfl
  · obtain ⟨f, hto⟩ := h.documents v.name
    exact FileWrite.toFile_ne_nil.mpr ⟨v, hv, rfl, hxes⟩ hto

/-- The same can be seen of outputs: the texts of all files, the requests that were posted and what has
become of the deliveries. -/
structure Alike (o o' : Outputs) : Prop where
  texts : ∀ loc, o'.disk.text? loc = o.disk.text? loc
  posts : o'.wire.sent = o.wire.sent
  deadLetters : o'.deliveries.deadLetters = o.deliveries.deadLetters
  delivered : o'.deliveries.delivered = o.deliveries.delivered

section Same
variable (h : Settles o items o' ws) (h' : Settles p items p' vs)
include h h'

theorem Settles.text_eq {d : Disk} (hwrote : d.Wrote ws o'.disk) (hwrote' : d.Wrote vs p'.disk)
    {place : Option Location}
    (hplaced : ∀ w ∈ ws, Named w ∧ place = some (d.resolve w.folder))
    (hplaced' : ∀ w ∈ vs, Named w ∧ place = some (d.resolve w.folder)) (loc : Location) :
    p'.disk.text? loc = o'.disk.text? loc := by
  by_cases hsome : ∃ w, (w ∈ ws ∨ w ∈ vs) ∧ w.location d = loc
  · obtain ⟨w, hw, rfl⟩ := hsome
    have hw' : Named w ∧ place = some (d.resolve w.folder) := hw.elim (hplaced w) (hplaced' w)
    have hnamed : ∀ v ∈ ws, Named v := fun v hv => (hplaced v hv).1
    have hnamed' : ∀ v ∈ vs, Named v := fun v hv => (hplaced' v hv).1
    have hdir : ∀ v ∈ ws, d.resolve v.folder = d.resolve w.folder :=
      fun v hv => Option.some.inj ((hplaced v hv).2.symm.trans hw'.2)
    have hdir' : ∀ v ∈ vs, d.resolve v.folder = d.resolve w.folder :=
      fun v hv => Option.some.inj ((hplaced' v hv).2.symm.trans hw'.2)
    have hlength := hw'.1.length
    rw [FileWrite.location]
    rcases hw'.1 with hcsv | ⟨hlog, htxt⟩ | hxes
    · rw [hcsv] at hlength ⊢
      obtain ⟨_, hparts⟩ := h.tables w.name
      obtain ⟨_, hparts'⟩ := h'.tables w.name
      rw [hparts.text_eq hwrote hnamed hdir hlength TableRow.renders_recordsText,
        hparts'.text_eq hwrote' hnamed' hdir' hlength TableRow.renders_recordsText]
    · rw [htxt] at hlength ⊢
      rw [hlog]
      obtain ⟨_, hparts⟩ := h.lines
      obtain ⟨_, hparts'⟩ := h'.lines
      rw [hparts.text_eq hwrote hnamed hdir hlength LineLog.renders_linesText,
        hparts'.text_eq hwrote' hnamed' hdir' hlength LineLog.renders_linesText]
    · rw [hxes] at hlength ⊢
      obtain ⟨f, hto⟩ := h.documents w.name
      obtain ⟨f', hto'⟩ := h'.documents w.name
      have hmap : ∀ f : String, ((EventLogs.ofItems items).lookup w.name).map
            (EventLogs.documentWrite f w.name) =
          (((EventLogs.ofItems items).lookup w.name).map Document.text).map
            fun text => (⟨f, w.name, "xes", .replace, text⟩ : FileWrite) := by
        intro f
        rw [Option.map_map]
        rfl
      rw [hmap] at hto hto'
      rw [FileWrite.text_eq_of_document hwrote hnamed hdir hlength hto,
        FileWrite.text_eq_of_document hwrote' hnamed' hdir' hlength hto']
  · have hnone : ∀ w ∈ ws, w.location d ≠ loc := fun w hw hloc => hsome ⟨w, .inl hw, hloc⟩
    have hnone' : ∀ w ∈ vs, w.location d ≠ loc := fun w hw hloc => hsome ⟨w, .inr hw, hloc⟩
    rw [hwrote.text, hwrote'.text, FileWrite.foldl_after_of_ne hnone,
      FileWrite.foldl_after_of_ne hnone']

/-- Deliveries that go to the same network, whatever is staged at first. -/
theorem Settles.deliveries_eq (hwire : p.wire = o.wire)
    (hsame : p.deliveries = { o.deliveries with requests := p.deliveries.requests }) :
    p'.wire = o'.wire ∧ p'.deliveries.deadLetters = o'.deliveries.deadLetters ∧
      p'.deliveries.delivered = o'.deliveries.delivered := by
  have hdelivered := h'.deliveries
  rw [hwire, hsame, Deliveries.deliver_requests, h.deliveries] at hdelivered
  obtain ⟨hdeliveries, hsent⟩ := Prod.mk.inj hdelivered
  exact ⟨hsent.symm, (congrArg Deliveries.deadLetters hdeliveries).symm,
    (congrArg Deliveries.delivered hdeliveries).symm⟩

end Same

end Outputs
end ChainQuery
