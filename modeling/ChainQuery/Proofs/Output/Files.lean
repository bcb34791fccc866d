import ChainQuery.Output.Folder

/-!
# What is written to files

The text of every file after some writes: each write replaces the text of its file or is added at its
end, and all other files stay as they are. Making folders changes no file.
-/

namespace ChainQuery

namespace Disk

def enter (loc : Location) (name : String) : Location :=
  if name = ".." then loc.dropLast else loc ++ [name]

def resolve (d : Disk) (folder : String) : Location :=
  (pathNames folder).foldl enter (d.pathStart folder)

theorem resolve_eq {d d' : Disk} (h : d'.home = d.home) : d'.resolve = d.resolve := by
  funext folder
  simp only [resolve, pathStart, h]

theorem lookup_putNode (loc l : Location) (node : DiskNode) (nodes : List (Location × DiskNode)) :
    (putNode loc node nodes).lookup l = if loc = l then some node else nodes.lookup l := by
  induction nodes with
  | nil =>
    by_cases h : loc = l
    · simp [putNode, h]
    · simp [putNode, List.lookup_cons, beq_false_of_ne (Ne.symm h), h]
  | cons n nodes ih =>
    obtain ⟨key, value⟩ := n
    by_cases hkey : key = loc
    · subst hkey
      by_cases h : key = l
      · simp [putNode, h]
      · simp [putNode, List.lookup_cons, beq_false_of_ne (Ne.symm h), h]
    · by_cases h : l = key
      · subst h
        simp [putNode, hkey, Ne.symm hkey]
      · simp [putNode, hkey, List.lookup_cons, beq_false_of_ne h, ih]

theorem node?_put (d : Disk) (loc l : Location) (node : DiskNode) :
    (d.put loc node).node? l =
      if l = [] then some .folder else if loc = l then some node else d.node? l := by
  unfold node? put
  by_cases h : l = []
  · simp [h]
  · simp [h, lookup_putNode]

theorem text?_put_folder {d : Disk} {loc : Location} (h : d.node? loc = none) (l : Location) :
    (d.put loc .folder).text? l = d.text? l := by
  unfold text?
  rw [node?_put]
  by_cases hl : l = []
  · simp [hl, node?]
  · by_cases heq : loc = l
    · subst heq
      simp [h, hl]
    · simp [hl, heq]

theorem text?_put_file {d : Disk} {loc : Location} (hloc : loc ≠ []) (text : String) (l : Location) :
    (d.put loc (.file text)).text? l = if loc = l then some text else d.text? l := by
  unfold text?
  rw [node?_put]
  by_cases hl : l = []
  · simp [hl, hloc, node?]
  · by_cases heq : loc = l
    · subst heq
      simp [hl]
    · simp [hl, heq]

theorem follow_text (creating : Bool) (d : Disk) (loc : Location) (names : List String) :
    (follow creating d loc names).1.home = d.home ∧
      ∀ l, (follow creating d loc names).1.text? l = d.text? l := by
  induction names generalizing d loc with
  | nil => exact ⟨rfl, fun _ => rfl⟩
  | cons name names ih =>
    rw [follow]
    split
    · exact ih d loc.dropLast
    · split
      · exact ⟨rfl, fun _ => rfl⟩
      · split
        · exact ih d (loc ++ [name])
        · exact ⟨rfl, fun _ => rfl⟩
        · next hnode =>
          split
          · obtain ⟨hhome, htext⟩ := ih (d.put (loc ++ [name]) .folder) (loc ++ [name])
            exact ⟨hhome, fun l => (htext l).trans (text?_put_folder hnode l)⟩
          · exact ⟨rfl, fun _ => rfl⟩

theorem follow_eq_ok {creating : Bool} {d : Disk} {loc l : Location} {names : List String}
    (h : (follow creating d loc names).2 = .ok l) : l = names.foldl enter loc := by
  induction names generalizing d loc with
  | nil =>
    cases h
    rfl
  | cons name names ih =>
    rw [List.foldl_cons]
    rw [follow] at h
    unfold enter
    split at h
    · next hup =>
      rw [if_pos hup]
      exact ih h
    · next hup =>
      rw [if_neg hup]
      split at h
      · cases h
      · split at h
        · exact ih h
        · cases h
        · split at h
          · exact ih h
          · cases h

theorem makeFolders_text (d : Disk) (path : String) :
    (d.makeFolders path).1.home = d.home ∧ ∀ l, (d.makeFolders path).1.text? l = d.text? l := by
  unfold makeFolders
  split
  · exact ⟨rfl, fun _ => rfl⟩
  · have htext := follow_text true d (d.pathStart path) (pathNames path)
    rcases hfollow : follow true d (d.pathStart path) (pathNames path) with ⟨d', e | l⟩
    · rw [hfollow] at htext
      exact htext
    · rw [hfollow] at htext
      exact htext

theorem locate_eq_ok {d : Disk} {folder name : String} {loc : Location}
    (h : d.locate folder name = .ok loc) : loc = d.resolve folder ++ [name] := by
  unfold locate at h
  split at h
  · cases h
  · split at h
    · cases h
    · next l hfollow =>
      split at h
      · cases h
      · cases h
        rw [follow_eq_ok hfollow]
        rfl

/-- A write that succeeds changes the text of its own file. -/
theorem write_text {d d' : Disk} {mode : WriteMode} {folder name text : String}
    (h : d.write mode folder name text = (d', none)) :
    d'.home = d.home ∧ ∀ l, d'.text? l =
      if d.resolve folder ++ [name] = l then some (mode.result (d.text? l) text) else d.text? l := by
  unfold write at h
  split at h
  · cases h
  · next loc hlocate =>
    have hloc := locate_eq_ok hlocate
    have hne : loc ≠ [] := by
      rw [hloc]
      exact List.append_ne_nil_of_right_ne_nil _ (List.cons_ne_nil _ _)
    simp only at h
    split at h
    · cases h
    · split at h
      · cases h
      · cases h
        refine ⟨rfl, fun l => ?_⟩
        rw [text?_put_file hne, ← hloc]
        split
        · next heq =>
          subst heq
          rfl
        · rfl

theorem write_text_of_error {d d' : Disk} {mode : WriteMode} {folder name text : String}
    {e : DiskError} (h : d.write mode folder name text = (d', some e)) :
    d'.home = d.home ∧ ∀ l, d'.text? l = d.text? l := by
  unfold write at h
  split at h
  · cases h
    exact ⟨rfl, fun _ => rfl⟩
  · simp only at h
    split at h
    · cases h
      exact ⟨rfl, fun _ => rfl⟩
    · split at h
      · cases h
        exact ⟨rfl, fun _ => rfl⟩
      · cases h

end Disk

structure FileWrite where
  folder : String
  name : String
  extension : String
  mode : Disk.WriteMode
  text : String
deriving DecidableEq, Repr

namespace FileWrite

def location (d : Disk) (w : FileWrite) : Location :=
  d.resolve w.folder ++ [w.name ++ "." ++ w.extension]

def after (d : Disk) (l : Location) (text : Option String) (w : FileWrite) : Option String :=
  if w.location d = l then some (w.mode.result text w.text) else text

def made (folder : Option String) (failure : Option WriterError) (write : String → FileWrite) :
    List FileWrite :=
  match folder, failure with
  | some f, none => [write f]
  | _, _ => []

theorem mem_made {folder : Option String} {failure : Option WriterError} {write : String → FileWrite}
    {w : FileWrite} (h : w ∈ made folder failure write) : ∃ f, folder = some f ∧ w = write f := by
  cases folder with
  | none => exact absurd h List.not_mem_nil
  | some f =>
    cases failure with
    | none => exact ⟨f, rfl, List.mem_singleton.mp h⟩
    | some e => exact absurd h List.not_mem_nil

/-- The writes to the files of a name, in whatever folders they are. -/
def toFile (name extension : String) (ws : List FileWrite) : List FileWrite :=
  ws.filter fun w => w.name = name ∧ w.extension = extension

theorem toFile_append (name extension : String) (ws vs : List FileWrite) :
    toFile name extension (ws ++ vs) = toFile name extension ws ++ toFile name extension vs :=
  List.filter_append ..

end FileWrite

namespace Disk

/-- A disk is the one after writes, as far as the texts of files go. -/
structure Wrote (d : Disk) (ws : List FileWrite) (d' : Disk) : Prop where
  home : d'.home = d.home
  text : ∀ l, d'.text? l = ws.foldl (FileWrite.after d l) (d.text? l)

theorem wrote_nil {d d' : Disk} (home : d'.home = d.home) (text : ∀ l, d'.text? l = d.text? l) :
    d.Wrote [] d' :=
  ⟨home, text⟩

theorem Wrote.append {d d' d'' : Disk} {ws vs : List FileWrite} (hws : d.Wrote ws d')
    (hvs : d'.Wrote vs d'') : d.Wrote (ws ++ vs) d'' := by
  have hlocation : ∀ w : FileWrite, w.location d' = w.location d := by
    intro w
    rw [FileWrite.location, resolve_eq hws.home, FileWrite.location]
  refine ⟨hvs.home.trans hws.home, fun l => ?_⟩
  have hafter : FileWrite.after d' l = FileWrite.after d l := by
    funext text w
    simp only [FileWrite.after, hlocation]
  rw [hvs.text, hafter, hws.text, List.foldl_append]

end Disk

namespace OutputFile

variable {folder : Option String} {name extension : String}

theorem make_eq_ok {file : OutputFile} (h : make folder name extension = .ok file) :
    folder = some file.folder ∧ file.name = name ++ "." ++ extension := by
  unfold make at h
  split at h
  · cases h
  · split at h
    · cases h
      exact ⟨rfl, rfl⟩
    · cases h

theorem isName_of_make {file : OutputFile} (h : make folder name extension = .ok file) :
    isName name = true := by
  cases folder with
  | none => cases h
  | some f =>
    unfold make at h
    dsimp only at h
    split at h
    · next hname => exact hname
    · cases h

theorem write_of_refused {e : WriterError} (h : make folder name extension = .error e) (d : Disk)
    (mode : Disk.WriteMode) (text : String) :
    write d mode folder name extension text = (d, some e) := by
  unfold write
  rw [h]

theorem write_of_make {file : OutputFile} (h : make folder name extension = .ok file) (d : Disk)
    (mode : Disk.WriteMode) (text : String) :
    write d mode folder name extension text =
      ((d.write mode file.folder file.name text).1,
        (d.write mode file.folder file.name text).2.map WriterError.io) := by
  unfold write
  rw [h]
  dsimp only
  rcases d.write mode file.folder file.name text with ⟨d', _ | e⟩
  · rfl
  · rfl

theorem wrote_of_error {d d' : Disk} {mode : Disk.WriteMode} {text : String} {e : WriterError}
    (h : write d mode folder name extension text = (d', some e)) : d.Wrote [] d' := by
  rcases hmake : make folder name extension with refusal | file
  · rw [write_of_refused hmake] at h
    cases h
    exact Disk.wrote_nil rfl fun _ => rfl
  · rw [write_of_make hmake] at h
    rcases hwrite : d.write mode file.folder file.name text with ⟨d₁, _ | e'⟩
    · rw [hwrite] at h
      cases h
    · rw [hwrite] at h
      cases h
      obtain ⟨hhome, htext⟩ := Disk.write_text_of_error hwrite
      exact Disk.wrote_nil hhome htext

theorem wrote {d d' : Disk} {mode : Disk.WriteMode} {text : String}
    (h : write d mode folder name extension text = (d', none)) :
    ∃ f, folder = some f ∧ d.Wrote [⟨f, name, extension, mode, text⟩] d' := by
  rcases hmake : make folder name extension with refusal | file
  · rw [write_of_refused hmake] at h
    cases h
  · obtain ⟨hfolder, hname⟩ := make_eq_ok hmake
    rw [write_of_make hmake, hname] at h
    rcases hwrite : d.write mode file.folder (name ++ "." ++ extension) text with ⟨d₁, _ | e⟩
    · rw [hwrite] at h
      cases h
      obtain ⟨hhome, htext⟩ := Disk.write_text hwrite
      exact ⟨file.folder, hfolder, hhome, htext⟩
    · rw [hwrite] at h
      cases h

/-- A write of an output is one write to its file, or none. -/
theorem wrote_made {d d' : Disk} {mode : Disk.WriteMode} {text : String}
    {failure : Option WriterError}
    (h : write d mode folder name extension text = (d', failure)) :
    d.Wrote (FileWrite.made folder failure fun f => ⟨f, name, extension, mode, text⟩) d' := by
  cases failure with
  | some e =>
    cases folder with
    | none => exact wrote_of_error h
    | some f => exact wrote_of_error h
  | none =>
    obtain ⟨f, rfl, hwrote⟩ := wrote h
    exact hwrote

end OutputFile
end ChainQuery
