import ChainQuery.Proofs.Output.Sources

/-!
# The texts of the files of outputs

The file of a table or of the log in a folder holds what was written to it there, in order. It starts
anew only when the first write to a file of that name, in whatever folder, was made in this folder; all
other writes are added to what is there.
-/

namespace ChainQuery

/-- A text is made of parts that are not empty. -/
structure Renders (render : List α → String) : Prop where
  append : ∀ as bs, render (as ++ bs) = render as ++ render bs
  ne_empty : ∀ {as}, as ≠ [] → render as ≠ ""

theorem Renders.nil {render : List α → String} (h : Renders render) : render [] = "" := by
  have happend := h.append [] []
  rw [List.append_nil] at happend
  exact String.append_eq_left_iff.mp happend.symm

theorem renders_flatMap {chars : α → List Char} (h : ∀ a, chars a ≠ []) :
    Renders fun as : List α => String.ofList (as.flatMap chars) where
  append as bs := by rw [List.flatMap_append, String.ofList_append]
  ne_empty := by
    intro as has hempty
    cases as with
    | nil => exact has rfl
    | cons a as =>
      have hchars := congrArg String.toList hempty
      rw [String.toList_ofList] at hchars
      exact h a (List.append_eq_nil_iff.mp hchars).1

theorem TableRow.renders_recordsText : Renders recordsText :=
  renders_flatMap fun _ => List.append_ne_nil_of_right_ne_nil _ (List.cons_ne_nil _ _)

theorem LineLog.renders_linesText : Renders linesText :=
  renders_flatMap fun _ => List.append_ne_nil_of_right_ne_nil _ (List.cons_ne_nil _ _)

namespace Disk

def partsAt (d : Disk) (parts : List (String × List α)) (dir : Location) : List (String × List α) :=
  parts.filter fun part => d.resolve part.1 = dir

def beginsAt (d : Disk) (parts : List (String × List α)) (dir : Location) : Bool :=
  parts.head?.any fun part => d.resolve part.1 = dir

/-- The text of a file after parts are written, of which the first one comes with an opening. -/
def textAfter (d : Disk) (render : List α → String) (opening : List α) (name : String)
    (parts : List (String × List α)) (dir : Location) : Option String :=
  let contents := (d.partsAt parts dir).flatMap (·.2)
  if (d.partsAt parts dir).isEmpty then d.text? (dir ++ [name])
  else if d.beginsAt parts dir then some (render (opening ++ contents))
  else some ((d.text? (dir ++ [name])).getD "" ++ render contents)

end Disk

namespace FileWrite

variable {d : Disk} {render : List α → String} {name extension : String}

theorem after_eq (d : Disk) (dir : Location) (folder : String) (mode : Disk.WriteMode)
    (text : String) (old : Option String) :
    after d (dir ++ [name ++ "." ++ extension]) old ⟨folder, name, extension, mode, text⟩ =
      if d.resolve folder = dir then some (mode.result old text) else old := by
  rw [after, location]
  simp only [List.append_left_inj]

theorem foldl_append (hrender : Renders render) (dir : Location) (parts : List (String × List α))
    (old : Option String) :
    (parts.map fun part => (⟨part.1, name, extension, .append, render part.2⟩ : FileWrite)).foldl
        (after d (dir ++ [name ++ "." ++ extension])) old =
      if (d.partsAt parts dir).isEmpty then old
      else some (old.getD "" ++ render ((d.partsAt parts dir).flatMap (·.2))) := by
  induction parts generalizing old with
  | nil => rfl
  | cons part parts ih =>
    rw [List.map_cons, List.foldl_cons, after_eq, ih]
    by_cases hpart : d.resolve part.1 = dir
    · have hcons : d.partsAt (part :: parts) dir = part :: d.partsAt parts dir :=
        List.filter_cons_of_pos (decide_eq_true hpart)
      rw [if_pos hpart, hcons, List.flatMap_cons, hrender.append]
      by_cases hrest : (d.partsAt parts dir).isEmpty = true
      · rw [if_pos hrest, List.isEmpty_iff.mp hrest]
        simp [Disk.WriteMode.result, hrender.nil]
      · rw [if_neg hrest]
        simp [Disk.WriteMode.result, String.append_assoc]
    · have hcons : d.partsAt (part :: parts) dir = d.partsAt parts dir :=
        List.filter_cons_of_neg (by simp [hpart])
      rw [if_neg hpart, hcons]

/-- The first part with an opening before it. -/
def openedBy (opening : List α) : List (String × List α) → List (String × List α)
  | [] => []
  | part :: parts => (part.1, opening ++ part.2) :: parts

theorem foldl_chunks (hrender : Renders render) (opening : List α) (dir : Location)
    (parts : List (String × List α)) :
    (chunks name extension render (openedBy opening parts)).foldl
        (after d (dir ++ [name ++ "." ++ extension])) (d.text? (dir ++ [name ++ "." ++ extension])) =
      d.textAfter render opening (name ++ "." ++ extension) parts dir := by
  cases parts with
  | nil => rfl
  | cons part parts =>
    rw [openedBy, chunks, List.foldl_cons, after_eq, foldl_append hrender, Disk.textAfter]
    by_cases hpart : d.resolve part.1 = dir
    · have hcons : d.partsAt (part :: parts) dir = part :: d.partsAt parts dir :=
        List.filter_cons_of_pos (decide_eq_true hpart)
      have hbegins : d.beginsAt (part :: parts) dir = true := decide_eq_true hpart
      rw [if_pos hpart, hcons, hbegins, List.flatMap_cons]
      by_cases hrest : (d.partsAt parts dir).isEmpty = true
      · rw [if_pos hrest, List.isEmpty_iff.mp hrest]
        simp [Disk.WriteMode.result]
      · rw [if_neg hrest]
        simp [Disk.WriteMode.result, hrender.append, String.append_assoc]
    · have hcons : d.partsAt (part :: parts) dir = d.partsAt parts dir :=
        List.filter_cons_of_neg (by simp [hpart])
      have hbegins : d.beginsAt (part :: parts) dir = false := decide_eq_false hpart
      rw [if_neg hpart, hcons, hbegins]
      rfl

/-- Only the writes to a file count for its text. -/
theorem foldl_toFile {ws : List FileWrite} {l : Location}
    (h : ∀ w ∈ ws, w.location d = l → w.name = name ∧ w.extension = extension) (old : Option String) :
    (toFile name extension ws).foldl (after d l) old = ws.foldl (after d l) old := by
  induction ws generalizing old with
  | nil => rfl
  | cons w ws ih =>
    have hrest := ih fun v hv => h v (List.mem_cons_of_mem _ hv)
    rw [List.foldl_cons, toFile]
    by_cases hfile : w.name = name ∧ w.extension = extension
    · rw [List.filter_cons_of_pos (by simpa using hfile), List.foldl_cons]
      exact hrest _
    · have hother : after d l old w = old :=
        if_neg fun hl => hfile (h w List.mem_cons_self hl)
      rw [List.filter_cons_of_neg (by simpa using hfile), hother]
      exact hrest _

theorem fileName_inj {name' extension' : String} (hlength : extension.length = extension'.length)
    (h : name ++ "." ++ extension = name' ++ "." ++ extension') :
    name = name' ∧ extension = extension' := by
  have hchars := congrArg String.toList h
  simp only [String.toList_append] at hchars
  obtain ⟨hname, hextension⟩ := List.append_inj' hchars hlength
  exact ⟨String.toList_inj.mp (List.append_inj' hname rfl).1, String.toList_inj.mp hextension⟩

/-- The writes to a file are those of parts, the first of which has an opening before it. -/
structure Pieces (ws : List FileWrite) (name extension : String) (render : List α → String)
    (opening : List α) (parts : List (String × List α)) : Prop where
  writes : toFile name extension ws = chunks name extension render (openedBy opening parts)
  ne_nil : ∀ part ∈ parts.tail, part.2 ≠ []

theorem Parts.pieces {ws : List FileWrite} {contents : List α} {opened : Prop}
    (h : Parts ws name extension render contents opened) :
    ∃ parts, Pieces ws name extension render [] parts ∧ parts.flatMap (·.2) = contents := by
  obtain ⟨parts, hwrites, hcontents, -, hne⟩ := h.parts
  refine ⟨parts, ⟨?_, fun part hpart => hne part (List.mem_of_mem_tail hpart)⟩, hcontents⟩
  rw [hwrites]
  cases parts <;> rfl

theorem Parts.pieces_headed {ws : List FileWrite} {render : List (List String) → String}
    {columns : Option (List String)} {rows : List (List String)} {opened : Prop}
    (h : Parts ws name extension render (Tables.headed columns rows) opened) :
    ∃ parts, Pieces ws name extension render columns.toList parts ∧ parts.flatMap (·.2) = rows := by
  obtain ⟨parts, hwrites, hcontents, -, hne⟩ := h.parts
  cases parts with
  | nil => exact ⟨[], ⟨hwrites, nofun⟩, (Tables.headed_eq_nil.mp hcontents.symm).symm⟩
  | cons first rest =>
    obtain ⟨folder, records⟩ := first
    have hrest : ∀ part ∈ rest, part.2 ≠ [] := fun part hpart => hne part (List.mem_cons_of_mem _ hpart)
    cases records with
    | nil => exact absurd rfl (hne (folder, []) List.mem_cons_self)
    | cons record records =>
      have hrows : rows ≠ [] := by
        intro hnil
        rw [Tables.headed_eq_nil.mpr hnil] at hcontents
        cases hcontents
      rw [Tables.headed, if_neg hrows] at hcontents
      cases columns with
      | none => exact ⟨(folder, record :: records) :: rest, ⟨hwrites, hrest⟩, hcontents⟩
      | some names =>
        obtain ⟨rfl, hrecords⟩ := List.cons.inj hcontents
        exact ⟨(folder, records) :: rest, ⟨hwrites, hrest⟩, hrecords⟩

end FileWrite

/-- What a repetition of parts does to their file: it stays as it is just if nothing was written in the
folder or the first part was. -/
theorem Disk.textAfter_eq_iff (d d' : Disk) (hhome : d'.home = d.home) {render : List α → String}
    (hrender : Renders render) {opening : List α} {name : String} {parts : List (String × List α)}
    {dir : Location} (hparts : ∀ part ∈ parts.tail, part.2 ≠ [])
    (htext : d'.text? (dir ++ [name]) = d.textAfter render opening name parts dir) :
    d'.textAfter render opening name parts dir = d'.text? (dir ++ [name]) ↔
      d.partsAt parts dir = [] ∨ d.beginsAt parts dir = true := by
  have hpartsAt : d'.partsAt parts dir = d.partsAt parts dir := by
    rw [partsAt, resolve_eq hhome, partsAt]
  have hbeginsAt : d'.beginsAt parts dir = d.beginsAt parts dir := by
    rw [beginsAt, resolve_eq hhome, beginsAt]
  by_cases hnone : d.partsAt parts dir = []
  · have hempty : (d'.partsAt parts dir).isEmpty = true := by rw [hpartsAt, hnone]; rfl
    simp [textAfter, hempty, hnone]
  · have hsome : (d.partsAt parts dir).isEmpty = false := by simpa using hnone
    by_cases hbegins : d.beginsAt parts dir = true
    · rw [textAfter, hsome, hbegins] at htext
      rw [textAfter, hpartsAt, hbeginsAt, hsome, hbegins, htext]
      simp
    · have hlater : d.beginsAt parts dir = false := Bool.eq_false_iff.mpr hbegins
      obtain ⟨part, hpart⟩ := List.exists_mem_of_ne_nil _ hnone
      have hcontents : (d.partsAt parts dir).flatMap (·.2) ≠ [] := by
        intro hnil
        refine hparts part ?_ (List.flatMap_eq_nil_iff.mp hnil part hpart)
        obtain ⟨hmem, hat⟩ := List.mem_filter.mp hpart
        cases parts with
        | nil => cases hmem
        | cons first rest =>
          rcases List.mem_cons.mp hmem with rfl | hmem
          · exact absurd hat hbegins
          · exact hmem
      rw [textAfter, hsome, hlater] at htext
      rw [textAfter, hpartsAt, hbeginsAt, hsome, hlater, htext]
      simpa [hnone] using hrender.ne_empty hcontents

namespace Outputs

theorem Named.length {w : FileWrite} (h : Named w) : w.extension.length = 3 := by
  rcases h with h | ⟨-, h⟩ | h
  · rw [h]; rfl
  · rw [h]; rfl
  · rw [h]; rfl

/-- The text of a file after the writes of a run, by the pieces that were written to it. -/
theorem text_of_pieces {ws : List FileWrite} {d d' : Disk} (hwrote : d.Wrote ws d')
    (hnamed : ∀ w ∈ ws, Named w) {name extension : String} (hlength : extension.length = 3)
    {render : List α → String} (hrender : Renders render) {opening : List α}
    {parts : List (String × List α)}
    (hpieces : FileWrite.Pieces ws name extension render opening parts) (dir : Location) :
    d'.text? (dir ++ [name ++ "." ++ extension]) =
      d.textAfter render opening (name ++ "." ++ extension) parts dir := by
  have hfile : ∀ w ∈ ws, w.location d = dir ++ [name ++ "." ++ extension] →
      w.name = name ∧ w.extension = extension := by
    intro w hw hlocation
    obtain ⟨-, hname⟩ := List.append_inj' hlocation rfl
    exact FileWrite.fileName_inj ((hnamed w hw).length.trans hlength.symm) (List.cons.inj hname).1
  rw [hwrote.text, ← FileWrite.foldl_toFile hfile, hpieces.writes]
  exact FileWrite.foldl_chunks hrender opening dir parts

end Outputs
end ChainQuery
