import ChainQuery.Proofs.Output.Deferral

/-!
# Outputs that have received a part

Where all writes are made in one folder without files, outputs that have received only the first items
leave in each file of a table and in the log the first part of what the others leave, or no file.
-/

namespace ChainQuery

/-- A text is missing or is the first part of another one. -/
def Begins (text? whole? : Option String) : Prop :=
  ∀ text, text? = some text → ∃ rest, whole? = some (text ++ rest)

theorem Renders.append_of_prefix {render : List α → String} (h : Renders render) {as bs : List α}
    (hpart : as <+: bs) : ∃ rest, render bs = render as ++ rest := by
  obtain ⟨rest, rfl⟩ := hpart
  exact ⟨render rest, h.append as rest⟩

theorem Tables.records_prefix (table : String) {items items' : List OutputItem}
    (hpart : items <+: items') : records table items <+: records table items' := by
  obtain ⟨rest, rfl⟩ := hpart
  rw [records, records, List.filterMap_append]
  cases items.filterMap (OutputItem.cells? table) with
  | nil => exact List.nil_prefix
  | cons cells rows =>
    rw [List.cons_append, withColumns, withColumns, ← List.cons_append, List.map_append,
      ← List.cons_append]
    exact List.prefix_append _ _

namespace FileWrite

variable {d d₁ d₂ : Disk} {ws vs : List FileWrite} {name extension : String}

/-- The text of a file in a folder without files, if all writes were made in one place. -/
theorem Parts.text_cases {render : List α → String} (hrender : Renders render) {contents : List α}
    {opened : Prop} (h : Parts ws name extension render contents opened) (hwrote : d.Wrote ws d₁)
    {place : Option Location} (hplaced : ∀ w ∈ ws, Outputs.Named w ∧ place = some (d.resolve w.folder))
    (hlength : extension.length = 3) {dir : Location}
    (hempty : d.text? (dir ++ [name ++ "." ++ extension]) = none) :
    d₁.text? (dir ++ [name ++ "." ++ extension]) =
      if place = some dir ∧ contents ≠ [] then some (render contents) else none := by
  by_cases hdir : place = some dir
  · have hall : ∀ w ∈ ws, d.resolve w.folder = dir := fun w hw =>
      Option.some.inj ((hplaced w hw).2.symm.trans hdir)
    rw [h.text_eq hwrote (fun w hw => (hplaced w hw).1) hall hlength hrender, hempty]
    by_cases hcontents : contents = []
    · rw [if_pos hcontents, if_neg fun hne => hne.2 hcontents]
    · rw [if_neg hcontents, if_pos ⟨hdir, hcontents⟩]
  · have hother : ∀ w ∈ ws, w.location d ≠ dir ++ [name ++ "." ++ extension] := by
      intro w hw hlocation
      obtain ⟨hfolder, -⟩ := List.append_inj' hlocation rfl
      exact hdir ((hplaced w hw).2.trans (congrArg some hfolder))
    rw [hwrote.text, foldl_after_of_ne hother, hempty, if_neg fun hplace => hdir hplace.1]

theorem Parts.begins {render : List α → String} (hrender : Renders render)
    {contents contents' : List α} {opened opened' : Prop}
    (h : Parts ws name extension render contents opened)
    (h' : Parts vs name extension render contents' opened') (hpart : contents <+: contents')
    (hwrote : d.Wrote ws d₁) (hwrote' : d.Wrote vs d₂) {place : Option Location}
    (hplaced : ∀ w ∈ ws, Outputs.Named w ∧ place = some (d.resolve w.folder))
    (hplaced' : ∀ w ∈ vs, Outputs.Named w ∧ place = some (d.resolve w.folder))
    (hlength : extension.length = 3) {dir : Location}
    (hempty : d.text? (dir ++ [name ++ "." ++ extension]) = none) :
    Begins (d₁.text? (dir ++ [name ++ "." ++ extension]))
      (d₂.text? (dir ++ [name ++ "." ++ extension])) := by
  intro text htext
  rw [h.text_cases hrender hwrote hplaced hlength hempty] at htext
  split at htext
  · next hwritten =>
    obtain ⟨hdir, hcontents⟩ := hwritten
    have hcontents' : contents' ≠ [] := fun hnil =>
      hcontents (List.prefix_nil.mp (hnil ▸ hpart))
    obtain ⟨rest, hrest⟩ := hrender.append_of_prefix hpart
    refine ⟨rest, ?_⟩
    rw [h'.text_cases hrender hwrote' hplaced' hlength hempty, if_pos ⟨hdir, hcontents'⟩, hrest,
      Option.some.inj htext]
  · cases htext

end FileWrite

namespace Outputs

/-- What outputs have written that have received the first items. -/
theorem Settles.begins {o o' p p' : Outputs} {items items' : List OutputItem} {ws vs : List FileWrite}
    (h : Settles o items o' ws) (h' : Settles p items' p' vs) (hpart : items <+: items') {d : Disk}
    (hwrote : d.Wrote ws o'.disk) (hwrote' : d.Wrote vs p'.disk) {place : Option Location}
    (hplaced : ∀ w ∈ ws, Named w ∧ place = some (d.resolve w.folder))
    (hplaced' : ∀ w ∈ vs, Named w ∧ place = some (d.resolve w.folder)) {dir : Location}
    (hempty : ∀ name, d.text? (dir ++ [name]) = none) :
    (∀ table, Begins (o'.disk.text? (dir ++ [table ++ ".csv"]))
      (p'.disk.text? (dir ++ [table ++ ".csv"]))) ∧
      Begins (o'.disk.text? (dir ++ ["log.txt"])) (p'.disk.text? (dir ++ ["log.txt"])) := by
  have hcsv : ∀ table, table ++ "." ++ "csv" = table ++ ".csv" := fun table => String.append_assoc ..
  constructor
  · intro table
    obtain ⟨_, hparts⟩ := h.tables table
    obtain ⟨_, hparts'⟩ := h'.tables table
    have hbegins := hparts.begins TableRow.renders_recordsText hparts'
      (Tables.records_prefix table hpart) hwrote hwrote' hplaced hplaced' rfl (hempty _)
    rw [hcsv] at hbegins
    exact hbegins
  · obtain ⟨_, hparts⟩ := h.lines
    obtain ⟨_, hparts'⟩ := h'.lines
    exact hparts.begins LineLog.renders_linesText hparts' (hpart.filterMap _) hwrote hwrote' hplaced
      hplaced' rfl (hempty _)

end Outputs
end ChainQuery
