import ChainQuery.Proofs.Output.Files

/-!
# A disk that has grown

The operations of a run make folders and files and take none away. On a disk that has already grown to
what a run makes of it, the same operations succeed and fail as they did in that run.
-/

namespace ChainQuery

/-- What a node is, whatever the text of a file. -/
def DiskNode.kind : DiskNode → DiskNode
  | folder => folder
  | file _ => file ""

namespace Disk

def kind? (d : Disk) (loc : Location) : Option DiskNode :=
  (d.node? loc).map DiskNode.kind

theorem kind?_eq_folder {d : Disk} {loc : Location} :
    d.kind? loc = some .folder ↔ d.node? loc = some .folder := by
  rw [kind?]
  rcases d.node? loc with _ | _ | text
  · simp
  · simp [DiskNode.kind]
  · simp [DiskNode.kind]

theorem kind?_eq_file {d : Disk} {loc : Location} :
    d.kind? loc = some (.file "") ↔ ∃ text, d.node? loc = some (.file text) := by
  rw [kind?]
  rcases d.node? loc with _ | _ | text
  · simp
  · simp [DiskNode.kind]
  · simp [DiskNode.kind]

theorem kind?_put (d : Disk) (loc l : Location) (node : DiskNode) :
    (d.put loc node).kind? l =
      if l = [] then some .folder else if loc = l then some node.kind else d.kind? l := by
  rw [kind?, node?_put]
  split
  · rfl
  · split
    · rfl
    · rfl

theorem kind?_put_self {loc : Location} (h : loc ≠ []) (d : Disk) (node : DiskNode) :
    (d.put loc node).kind? loc = some node.kind := by
  rw [kind?_put, if_neg h, if_pos rfl]

theorem kind?_put_child (d : Disk) (loc : Location) (name : String) (node : DiskNode) :
    (d.put (loc ++ [name]) node).kind? (loc ++ [name]) = some node.kind :=
  kind?_put_self (List.append_ne_nil_of_right_ne_nil _ (List.cons_ne_nil _ _)) d node

/-- All folders and files are still there. -/
structure Grows (d d' : Disk) : Prop where
  home : d'.home = d.home
  kind : ∀ {loc k}, d.kind? loc = some k → d'.kind? loc = some k

theorem Grows.refl (d : Disk) : d.Grows d :=
  ⟨rfl, id⟩

theorem Grows.trans {d d' d'' : Disk} (h : d.Grows d') (h' : d'.Grows d'') : d.Grows d'' :=
  ⟨h'.home.trans h.home, fun hk => h'.kind (h.kind hk)⟩

theorem grows_put {d : Disk} {loc : Location} {node : DiskNode}
    (h : ∀ k, d.kind? loc = some k → k = node.kind) : d.Grows (d.put loc node) where
  home := rfl
  kind := by
    intro l k hk
    rw [kind?_put]
    split
    · next hroot =>
      rw [hroot] at hk
      exact hk
    · split
      · next heq =>
        rw [← heq] at hk
        rw [h k hk]
      · exact hk

theorem grows_follow (creating : Bool) (d : Disk) (loc : Location) (names : List String) :
    d.Grows (follow creating d loc names).1 := by
  induction names generalizing d loc with
  | nil => exact .refl d
  | cons name names ih =>
    rw [follow]
    split
    · exact ih d loc.dropLast
    · split
      · exact .refl d
      · split
        · exact ih d (loc ++ [name])
        · exact .refl d
        · next hnode =>
          split
          · refine (grows_put fun k hk => ?_).trans (ih _ _)
            rw [kind?, hnode] at hk
            cases hk
          · exact .refl d

theorem grows_makeFolders (d : Disk) (path : String) : d.Grows (d.makeFolders path).1 := by
  have hfollow := grows_follow true d (d.pathStart path) (pathNames path)
  unfold makeFolders
  split
  · exact .refl d
  · split
    · next hfound =>
      rw [hfound] at hfollow
      exact hfollow
    · next hfailed =>
      rw [hfailed] at hfollow
      exact hfollow

theorem grows_write (d : Disk) (mode : WriteMode) (folder name text : String) :
    d.Grows (d.write mode folder name text).1 := by
  unfold write
  split
  · exact .refl d
  · next loc _ =>
    have hnoted : d.Grows { d with written := loc :: d.written } := ⟨rfl, id⟩
    dsimp only
    split
    · exact hnoted
    · next hnode =>
      split
      · exact hnoted
      · refine hnoted.trans (grows_put fun k hk => ?_)
        rcases hold : d.node? loc with _ | _ | old
        · have hnone : d.kind? loc = none := by rw [kind?, hold]; rfl
          exact absurd (hk.symm.trans hnone) nofun
        · exact absurd hold hnode
        · have hfile : d.kind? loc = some (.file "") := kind?_eq_file.mpr ⟨old, hold⟩
          exact Option.some.inj (hk.symm.trans hfile)

/-- Where a folder is, or why it is not found. -/
def reach (d : Disk) (folder : String) : Except DiskError Location :=
  (follow false d (d.pathStart folder) (pathNames folder)).2

/-- A folder that is found is found on the grown disk, and what stands in the way stays there. -/
theorem Grows.follow {d d' : Disk} (h : d.Grows d') (loc : Location) (names : List String) :
    (follow false d loc names).2 = .error .missingFolder ∨
      (follow false d' loc names).2 = (follow false d loc names).2 := by
  induction names generalizing loc with
  | nil => exact .inr rfl
  | cons name names ih =>
    rw [Disk.follow, Disk.follow]
    split
    · exact ih loc.dropLast
    · split
      · exact .inr rfl
      · rcases hnode : d.node? (loc ++ [name]) with _ | _ | text
        · exact .inl rfl
        · rw [kind?_eq_folder.mp (h.kind (kind?_eq_folder.mpr hnode))]
          exact ih (loc ++ [name])
        · obtain ⟨text', hfile⟩ := kind?_eq_file.mp (h.kind (kind?_eq_file.mpr ⟨text, hnode⟩))
          rw [hfile]
          exact .inr rfl

theorem Grows.reach {d d' : Disk} (h : d.Grows d') (folder : String) :
    d.reach folder = .error .missingFolder ∨ d'.reach folder = d.reach folder := by
  have hstart : d'.pathStart folder = d.pathStart folder := by
    unfold pathStart
    rw [h.home]
  unfold Disk.reach
  rw [hstart]
  exact h.follow _ _

theorem Grows.reach_between {d d' last : Disk} (h : d.Grows d') (h' : d'.Grows last)
    {folder : String} (hsame : d.reach folder = last.reach folder) :
    d'.reach folder = last.reach folder := by
  rcases h.reach folder with hmissing | heq
  · rcases h'.reach folder with hmissing' | heq'
    · rw [hmissing', ← hsame, hmissing]
    · exact heq'.symm
  · exact heq.trans hsame

theorem follow_eq_of_kind {d d' : Disk} (h : ∀ loc, d'.kind? loc = d.kind? loc) (loc : Location)
    (names : List String) : (Disk.follow false d' loc names).2 = (Disk.follow false d loc names).2 := by
  induction names generalizing loc with
  | nil => rfl
  | cons name names ih =>
    rw [Disk.follow, Disk.follow]
    have hkind := h (loc ++ [name])
    rw [kind?, kind?] at hkind
    split
    · exact ih loc.dropLast
    · split
      · rfl
      · rcases hnode : d.node? (loc ++ [name]) with _ | _ | text
        · rw [hnode] at hkind
          rw [Option.map_eq_none_iff.mp hkind]
          rfl
        · rw [kind?_eq_folder.mp ((h _).trans (kind?_eq_folder.mpr hnode))]
          exact ih (loc ++ [name])
        · obtain ⟨text', hfile⟩ := kind?_eq_file.mp ((h _).trans (kind?_eq_file.mpr ⟨text, hnode⟩))
          rw [hfile]

/-- A disk `d'` is to a disk `d` of a run as in its repetition: it has grown to the last disk of the
run already, on which the folder in use is where it is on `d`. -/
structure Ahead (last : Disk) (folder : Option String) (d d' : Disk) : Prop where
  grows : d.Grows last
  home : d'.home = last.home
  kind : ∀ loc, d'.kind? loc = last.kind? loc
  written : d'.written = d.written
  refuses : d'.refuses = d.refuses
  /-- What refuses to be written is not a folder. -/
  refused : ∀ loc n, d.refuses loc n = true → last.node? loc ≠ some .folder
  reach : ∀ f, folder = some f → d.reach f = last.reach f

namespace Ahead

variable {last d d' : Disk} {folder : Option String}

theorem reach_eq (h : Ahead last folder d d') {f : String} (hfolder : folder = some f) :
    d'.reach f = d.reach f := by
  have hstart : d'.pathStart f = last.pathStart f := by
    unfold pathStart
    rw [h.home]
  rw [h.reach f hfolder]
  unfold Disk.reach
  rw [hstart]
  exact follow_eq_of_kind h.kind _ _

theorem locate_eq (h : Ahead last folder d d') {f : String} (hfolder : folder = some f)
    (name : String) : d'.locate f name = d.locate f name := by
  have hreach := h.reach_eq hfolder
  unfold Disk.reach at hreach
  unfold locate
  rw [hreach]

/-- What is done to the two disks while both keep their relation. -/
theorem step (h : Ahead last folder d d') {e e' : Disk} (hgrows : d.Grows e) (hlast : e.Grows last)
    (hhome : e'.home = d'.home) (hkind : ∀ loc, e'.kind? loc = d'.kind? loc)
    (hwritten : e'.written = e.written) (hrefuses : e.refuses = d.refuses)
    (hrefuses' : e'.refuses = d'.refuses) : Ahead last folder e e' where
  grows := hlast
  home := hhome.trans h.home
  kind := fun loc => (hkind loc).trans (h.kind loc)
  written := hwritten
  refuses := by rw [hrefuses, hrefuses', h.refuses]
  refused := by
    rw [hrefuses]
    exact h.refused
  reach := fun f hf => hgrows.reach_between hlast (h.reach f hf)

theorem isFolder_iff (h : Ahead last folder d d') (loc : Location) :
    d'.node? loc = some .folder ↔ last.node? loc = some .folder := by
  rw [← kind?_eq_folder, ← kind?_eq_folder, h.kind]

theorem write (h : Ahead last folder d d') {f : String} (hfolder : folder = some f) (mode : WriteMode)
    (name text : String) (hlast : (d.write mode f name text).1.Grows last) :
    (d'.write mode f name text).2 = (d.write mode f name text).2 ∧
      Ahead last folder (d.write mode f name text).1 (d'.write mode f name text).1 := by
  have hgrows := grows_write d mode f name text
  unfold Disk.write at hlast hgrows ⊢
  rw [h.locate_eq hfolder]
  rcases hlocate : d.locate f name with e | loc
  · exact ⟨rfl, h⟩
  · simp only [hlocate] at hlast hgrows
    dsimp only
    have hwritten : loc :: d'.written = loc :: d.written := by rw [h.written]
    by_cases hnode : d.node? loc = some .folder
    · have hthere : last.node? loc = some .folder :=
        kind?_eq_folder.mp (h.grows.kind (kind?_eq_folder.mpr hnode))
      rw [if_pos hnode] at hlast hgrows ⊢
      rw [if_pos ((h.isFolder_iff loc).mpr hthere)]
      exact ⟨rfl, h.step hgrows hlast rfl (fun _ => rfl) hwritten rfl rfl⟩
    · rw [if_neg hnode] at hlast hgrows ⊢
      rw [h.refuses, h.written]
      by_cases hrefused : d.refuses loc (d.written.count loc) = true
      · have hnot := h.refused _ _ hrefused
        rw [if_pos hrefused] at hlast hgrows ⊢
        rw [if_neg fun hthere => hnot ((h.isFolder_iff loc).mp hthere), if_pos hrefused]
        exact ⟨rfl, h.step hgrows hlast rfl (fun _ => rfl) rfl rfl h.refuses.symm⟩
      · rw [if_neg hrefused] at hlast hgrows ⊢
        -- the file that is written now is there in the end
        have hroot : loc ≠ [] := fun hroot => hnode (by rw [hroot]; rfl)
        have hfile : last.kind? loc = some (.file "") := hlast.kind (kind?_put_self hroot _ _)
        have hnot : last.node? loc ≠ some .folder := by
          intro hthere
          rw [kind?_eq_folder.mpr hthere] at hfile
          cases hfile
        rw [if_neg fun hthere => hnot ((h.isFolder_iff loc).mp hthere), if_neg hrefused]
        refine ⟨rfl, h.step hgrows hlast rfl (fun l => ?_) rfl rfl h.refuses.symm⟩
        rw [kind?_put]
        split
        · next hl =>
          rw [hl]
          rfl
        · split
          · next heq =>
            rw [← heq, h.kind, hfile]
            rfl
          · rfl

end Ahead

/-- Folders that have been made are followed once they are there. -/
theorem follow_ahead {last d d' : Disk} (hkind : ∀ loc, d'.kind? loc = last.kind? loc) (loc : Location)
    (names : List String) (hlast : (follow true d loc names).1.Grows last) :
    follow true d' loc names = (d', (follow true d loc names).2) := by
  induction names generalizing d loc with
  | nil => rfl
  | cons name names ih =>
    have hgrows := (grows_follow true d loc (name :: names)).trans hlast
    rw [follow] at hlast ⊢
    rw [follow]
    split
    · next hup =>
      rw [if_pos hup] at hlast
      exact ih loc.dropLast hlast
    · next hup =>
      rw [if_neg hup] at hlast
      split
      · rfl
      · next hlimit =>
        rw [if_neg hlimit] at hlast
        rcases hnode : d.node? (loc ++ [name]) with _ | _ | text
        · rw [hnode] at hlast
          have hmade := d.kind?_put_child loc name .folder
          have hthere := ((grows_follow true _ _ names).trans hlast).kind hmade
          rw [kind?_eq_folder.mp ((hkind _).trans hthere)]
          exact ih (loc ++ [name]) hlast
        · rw [hnode] at hlast
          have hthere := hgrows.kind (kind?_eq_folder.mpr hnode)
          rw [kind?_eq_folder.mp ((hkind _).trans hthere)]
          exact ih (loc ++ [name]) hlast
        · have hthere := hgrows.kind (kind?_eq_file.mpr ⟨text, hnode⟩)
          obtain ⟨text', hfile⟩ := kind?_eq_file.mp ((hkind _).trans hthere)
          rw [hfile]

/-- A path whose folders could be made leads to its folder from then on. -/
theorem reach_of_follow {last d d₁ : Disk} {loc l : Location} {names : List String}
    (h : follow true d loc names = (d₁, .ok l)) (hlast : d₁.Grows last) :
    (follow false last loc names).2 = .ok l := by
  induction names generalizing d loc with
  | nil =>
    cases h
    rfl
  | cons name names ih =>
    have hgrows := grows_follow true d loc (name :: names)
    rw [h] at hgrows
    rw [follow] at h ⊢
    split
    · next hup =>
      rw [if_pos hup] at h
      exact ih h
    · next hup =>
      rw [if_neg hup] at h
      split
      · next hlimit =>
        rw [if_pos hlimit] at h
        cases h
      · next hlimit =>
        rw [if_neg hlimit] at h
        rcases hnode : d.node? (loc ++ [name]) with _ | _ | text
        · rw [hnode] at h
          have hmade := d.kind?_put_child loc name .folder
          have hrest := grows_follow true (d.put (loc ++ [name]) .folder) (loc ++ [name]) names
          rw [show follow true (d.put (loc ++ [name]) .folder) (loc ++ [name]) names = _ from h] at hrest
          rw [kind?_eq_folder.mp (hlast.kind (hrest.kind hmade))]
          exact ih h
        · rw [hnode] at h
          rw [kind?_eq_folder.mp (hlast.kind (hgrows.kind (kind?_eq_folder.mpr hnode)))]
          exact ih h
        · rw [hnode] at h
          cases h

theorem makeFolders_eq (d : Disk) (path : String) : d.makeFolders path =
    if isBroken path then (d, some .invalidName)
    else
      let w := follow true d (d.pathStart path) (pathNames path)
      (w.1, match w.2 with
        | .ok _ => none
        | .error e => some e) := by
  unfold makeFolders
  split
  · rfl
  · dsimp only
    rcases follow true d (d.pathStart path) (pathNames path) with ⟨d', e | loc⟩
    · rfl
    · rfl

theorem follow_untouched (creating : Bool) (d : Disk) (loc : Location) (names : List String) :
    (follow creating d loc names).1.written = d.written ∧
      (follow creating d loc names).1.refuses = d.refuses := by
  induction names generalizing d loc with
  | nil => exact ⟨rfl, rfl⟩
  | cons name names ih =>
    rw [follow]
    split
    · exact ih d loc.dropLast
    · split
      · exact ⟨rfl, rfl⟩
      · split
        · exact ih d (loc ++ [name])
        · exact ⟨rfl, rfl⟩
        · split
          · exact ih (d.put (loc ++ [name]) .folder) (loc ++ [name])
          · exact ⟨rfl, rfl⟩

theorem makeFolders_untouched (d : Disk) (path : String) :
    (d.makeFolders path).1.written = d.written ∧ (d.makeFolders path).1.refuses = d.refuses := by
  rw [makeFolders_eq]
  split
  · exact ⟨rfl, rfl⟩
  · exact follow_untouched true d _ _

/-- On a disk that has grown already, making folders changes nothing and fails as before. -/
theorem Ahead.makeFolders {last d d' : Disk} {folder : Option String} (h : Ahead last folder d d')
    {path : String} (hlast : (d.makeFolders path).1.Grows last) :
    d'.makeFolders path = (d', (d.makeFolders path).2) ∧
      Ahead last folder (d.makeFolders path).1 d' ∧
      ((d.makeFolders path).2 = none → (d.makeFolders path).1.reach path = last.reach path) := by
  have hgrows := d.grows_makeFolders path
  obtain ⟨hwritten, hrefuses⟩ := d.makeFolders_untouched path
  refine ⟨?_, h.step hgrows hlast rfl (fun _ => rfl) (h.written.trans hwritten.symm) hrefuses rfl, ?_⟩
  · have hstart : d'.pathStart path = d.pathStart path := by
      unfold pathStart
      rw [h.home, h.grows.home]
    rw [makeFolders_eq] at hlast
    rw [makeFolders_eq, makeFolders_eq, hstart]
    split
    · rfl
    · next hbroken =>
      rw [if_neg hbroken] at hlast
      rw [follow_ahead h.kind _ _ hlast]
  · intro hmade
    rw [makeFolders_eq] at hlast hmade ⊢
    split at hmade
    · cases hmade
    · next hbroken =>
      rw [if_neg hbroken] at hlast ⊢
      dsimp only at hlast hmade ⊢
      rcases hfollow : follow true d (d.pathStart path) (pathNames path) with ⟨d₁, e | loc⟩
      · rw [hfollow] at hmade
        cases hmade
      · have hstart : ∀ e : Disk, d.Grows e → e.pathStart path = d.pathStart path := by
          intro e he
          unfold pathStart
          rw [he.home]
        have hd₁ : d.Grows d₁ := by
          have hfollowed := grows_follow true d (d.pathStart path) (pathNames path)
          rwa [hfollow] at hfollowed
        rw [hfollow] at hlast
        show d₁.reach path = last.reach path
        unfold Disk.reach
        rw [hstart d₁ hd₁, hstart last (hd₁.trans hlast), reach_of_follow hfollow hlast,
          reach_of_follow hfollow (.refl _)]

end Disk
end ChainQuery
