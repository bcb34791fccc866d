import ChainQuery.Proofs.Output.Settling

/-!
# Writing now and writing at the end

Outputs that start in the one mode or in the other follow the same journal. As long as the output folder
stays in its place from the first emission on and no write fails, they make the same folders on the way
and look alike in the end.
-/

namespace ChainQuery

namespace Journal

theorem prefix_of_concat {j k : Journal} {e last : JournalEntry} (h : k ++ [e] <+: j ++ [last])
    (hne : e ≠ last) : k ++ [e] <+: j := by
  rcases List.prefix_concat_iff.mp h with heq | hprefix
  · exact absurd (List.singleton_inj.mp (List.append_inj' heq rfl).2) hne
  · exact hprefix

end Journal

namespace Outputs

def place (o : Outputs) : Option Location :=
  o.folder.map o.disk.resolve

/-- From the first emission on, the output folder stays in its place. -/
def Steady (o : Outputs) (j : Journal) : Prop :=
  ∃ place, ∀ k l, j = k ++ l → (∃ item, .staged item ∈ k) → (o.replay k).place = place

def startIn (mode : EmissionMode) (config : RunConfig) (disk : Disk) (wire : Wire) : Outputs :=
  start { config with mode := mode } disk wire

theorem defers_startIn (config : RunConfig) (disk : Disk) (wire : Wire) :
    (startIn .program config disk wire).Defers :=
  ⟨rfl, rfl⟩

theorem headers_startIn (mode mode' : EmissionMode) (config : RunConfig) (disk : Disk) (wire : Wire) :
    (startIn mode' config disk wire).tables.headers = (startIn mode config disk wire).tables.headers :=
  rfl

theorem accepts_startIn {mode mode' : EmissionMode} {config : RunConfig} {disk : Disk} {wire : Wire}
    {j : Journal} (h : (startIn mode config disk wire).Accepts j) :
    (startIn mode' config disk wire).Accepts j :=
  accepts_of_headers (headers_startIn mode mode' config disk wire) h

theorem home_replay (o : Outputs) (j : Journal) : (o.replay j).disk.home = o.disk.home :=
  (o.grows_replay j).home

/-- The place of the output folder, by what is written there. -/
theorem place_of_folder {o : Outputs} {j : Journal} {f : String} (h : (o.replay j).folder = some f) :
    (o.replay j).place = some (o.disk.resolve f) := by
  rw [place, h, Option.map_some, Disk.resolve_eq (o.home_replay j)]

/-- The output folder stays where it is while it is not set. -/
theorem place_replay {o : Outputs} {j : Journal} (h : ∀ path, .moved path ∉ j) :
    (o.replay j).place = o.place := by
  induction j generalizing o with
  | nil => rfl
  | cons e j ih =>
    rw [replay_cons, ih fun path hpath => h path (List.mem_cons_of_mem _ hpath)]
    have hfolder : (o.follow e).1.folder = o.folder :=
      o.folder_follow fun path hpath => h path (hpath ▸ List.mem_cons_self)
    rw [place, place, hfolder, Disk.resolve_eq (o.grows_follow e).home]

/-- It is enough that the output folder is not set after the first emission. -/
theorem steady_of_unmoved {o : Outputs} {j k : Journal} (hj : ∀ item, .staged item ∉ j)
    (hk : ∀ path, .moved path ∉ k) : o.Steady (j ++ k) := by
  refine ⟨(o.replay j).place, fun l m hsplit ⟨item, hitem⟩ => ?_⟩
  rcases List.append_eq_append_iff.mp hsplit with ⟨n, rfl, rfl⟩ | ⟨n, rfl, rfl⟩
  · rw [replay_append]
    exact place_replay fun path hpath => hk path (List.mem_append_left _ hpath)
  · exact absurd (List.mem_append_left _ hitem) (hj item)

theorem writes_of_extends {o : Outputs} {j k : Journal} (h : o.Writes j) (hk : k <+: j) :
    o.Writes k := by
  obtain ⟨l, rfl⟩ := hk
  exact (succeeds_append.mp h).1

theorem mem_flushed {o : Outputs} {j : Journal} {w : FileWrite} (h : w ∈ o.flushed j) :
    ∃ k e l, j = k ++ [e] ++ l ∧ w ∈ (o.replay k).entryFlushed e := by
  induction j generalizing o with
  | nil => exact absurd h List.not_mem_nil
  | cons e j ih =>
    rcases List.mem_append.mp h with h | h
    · exact ⟨[], e, j, rfl, h⟩
    · obtain ⟨k, e', l, rfl, hw⟩ := ih h
      exact ⟨e :: k, e', l, rfl, hw⟩

theorem staged_before {config : RunConfig} {disk : Disk} {wire : Wire} {k : Journal} {e : JournalEntry}
    (hclosed : ∀ e' ∈ k ++ [e], ∀ failure, e' ≠ .closed failure)
    (haccepts : (start config disk wire).Accepts (k ++ [e]))
    (hwrites : (start config disk wire).Writes (k ++ [e])) {w : FileWrite}
    (hw : w ∈ ((start config disk wire).replay k).entryFlushed e) : ∃ item, .staged item ∈ k := by
  have hflushed : w ∈ (start config disk wire).flushed (k ++ [e]) := by
    rw [flushed_concat]
    exact List.mem_append_right _ hw
  obtain ⟨item, hitem⟩ : ∃ item, item ∈ Journal.kept (k ++ [e]) := by
    have hholds := holds_replay _ hclosed haccepts hwrites (holds_start config disk wire)
    rcases hholds.exists_kept hflushed (mem_entryFlushed hw).2 with ⟨-, _, hitem⟩ | ⟨-, -, _, hitem⟩
    · exact ⟨_, hitem⟩
    · exact ⟨_, hitem⟩
  rcases List.mem_append.mp (Journal.mem_of_mem_kept hitem) with hstaged | hlast
  · exact ⟨item, hstaged⟩
  · rw [← List.mem_singleton.mp hlast] at hw
    exact absurd hw List.not_mem_nil

/-- After a part of a journal the disk of the mode that writes at the end trails the other one, and what
the other one has written is in a place `dir`. -/
structure Deferral (config : RunConfig) (disk : Disk) (wire : Wire) (journal : Journal)
    (dir : Option Location) (j : Journal) : Prop where
  trails : Trails ((startIn .program config disk wire).replay journal).disk
    ((startIn .program config disk wire).replay j) ((startIn .block config disk wire).replay j)
  placed : ∀ w ∈ (startIn .block config disk wire).flushed j, dir = some (disk.resolve w.folder)

section Modes
variable {config : RunConfig} {disk : Disk} {wire : Wire} {j : Journal}
variable {failure : Option ExecutionError} (hclosed : ∀ e ∈ j, ∀ failure, e ≠ .closed failure)

section Closing
variable {mode : EmissionMode}
variable (haccepts : (startIn mode config disk wire).Accepts (j ++ [.closed failure]))
variable (hwrites : (startIn mode config disk wire).Writes (j ++ [.closed failure]))
include hclosed haccepts hwrites

/-- What is written at the closing is written where the output folder is then. -/
theorem placed_closing {w : FileWrite} (hw : w ∈
    ((startIn mode config disk wire).replay j).entryFlushed (.closed failure)) :
    (∃ item, .staged item ∈ j) ∧
      ((startIn mode config disk wire).replay j).place = some (disk.resolve w.folder) := by
  obtain ⟨hfolder, hnamed⟩ := mem_entryFlushed hw
  refine ⟨?_, place_of_folder hfolder⟩
  have hflushed : w ∈ (startIn mode config disk wire).flushed (j ++ [.closed failure]) := by
    rw [flushed_concat]
    exact List.mem_append_right _ hw
  obtain ⟨item, hitem⟩ := List.exists_mem_of_ne_nil _
    ((settles_replay hclosed haccepts hwrites).ne_nil hflushed hnamed)
  rcases List.mem_append.mp (Journal.mem_of_mem_kept hitem) with hstaged | hlast
  · exact ⟨item, hstaged⟩
  · cases List.mem_singleton.mp hlast

/-- All writes are made in the place where the output folder stays. -/
theorem placed_flushed {dir : Option Location} (hsteady : ∀ k l, j ++ [.closed failure] = k ++ l →
      (∃ item, .staged item ∈ k) → ((startIn mode config disk wire).replay k).place = dir)
    {w : FileWrite} (hw : w ∈ (startIn mode config disk wire).flushed (j ++ [.closed failure])) :
    dir = some (disk.resolve w.folder) := by
  rw [flushed_concat] at hw
  rcases List.mem_append.mp hw with hw | hw
  · obtain ⟨k, e, l, rfl, hentry⟩ := mem_flushed hw
    have hstaged := staged_before (fun e' he' => hclosed e' (List.mem_append_left l he'))
      (succeeds_append.mp (succeeds_append.mp haccepts).1).1
      (succeeds_append.mp (succeeds_append.mp hwrites).1).1 hentry
    rw [← hsteady k ([e] ++ l ++ [.closed failure]) (by simp) hstaged]
    exact place_of_folder (mem_entryFlushed hentry).1
  · obtain ⟨hstaged, hplace⟩ := placed_closing hclosed haccepts hwrites hw
    rw [← hsteady j _ rfl hstaged]
    exact hplace

end Closing

variable (haccepts : (startIn .program config disk wire).Accepts (j ++ [.closed failure]))
variable (hwrites : (startIn .program config disk wire).Writes (j ++ [.closed failure]))
variable {dir : Option Location} (hsteady : ∀ k l, j ++ [.closed failure] = k ++ l →
  (∃ item, .staged item ∈ k) → ((startIn .program config disk wire).replay k).place = dir)
include hclosed haccepts hwrites hsteady

/-- A file that the one mode writes before the closing is one that the other mode writes at the end,
in the same place. -/
theorem Deferral.written {k l : Journal} {e : JournalEntry} (hsplit : j = k ++ [e] ++ l)
    (hwritesBlock : (startIn .block config disk wire).Writes (k ++ [e]))
    (h : Deferral config disk wire (j ++ [.closed failure]) dir k) {w : FileWrite}
    (hw : w ∈ ((startIn .block config disk wire).replay k).entryFlushed e) :
    dir = some (disk.resolve w.folder) ∧
      ∃ v ∈ (startIn .program config disk wire).flushed (j ++ [.closed failure]),
        v.location disk = w.location disk := by
  have hwhole : j ++ [.closed failure] = k ++ [e] ++ (l ++ [.closed failure]) := by
    rw [hsplit, List.append_assoc]
  have hclosedBefore : ∀ e' ∈ k ++ [e], ∀ failure, e' ≠ .closed failure :=
    fun e' he' => hclosed e' (hsplit ▸ List.mem_append_left l he')
  have hacceptsBefore : (startIn .block config disk wire).Accepts (k ++ [e]) :=
    (succeeds_append.mp (hwhole ▸ accepts_startIn haccepts)).1
  have hholds := holds_replay (k ++ [e]) hclosedBefore hacceptsBefore hwritesBlock
    (holds_start _ disk wire)
  obtain ⟨hfolder, hnamed⟩ := mem_entryFlushed hw
  have hflushed : w ∈ (startIn .block config disk wire).flushed (k ++ [e]) := by
    rw [flushed_concat]
    exact List.mem_append_right _ hw
  have hstaged := staged_before hclosedBefore hacceptsBefore hwritesBlock hw
  have hplace : dir = some (disk.resolve w.folder) := by
    rw [← hsteady k ([e] ++ (l ++ [.closed failure])) (by rw [hwhole, List.append_assoc]) hstaged]
    exact place_of_folder (o := startIn .program config disk wire)
      (h.trails.folder.symm.trans hfolder)
  obtain ⟨v, hv, hname, hextension⟩ := (settles_replay hclosed haccepts hwrites).exists_write hholds
    (hwhole ▸ Journal.kept_subset_append _ _) hflushed hnamed
  refine ⟨hplace, v, hv, ?_⟩
  rw [FileWrite.location, FileWrite.location, hname, hextension,
    Option.some.inj ((placed_flushed hclosed haccepts hwrites hsteady hv).symm.trans hplace)]

theorem Deferral.concat {k l : Journal} {e : JournalEntry} (hsplit : j = k ++ [e] ++ l)
    (hwritesBlock : (startIn .block config disk wire).Writes (k ++ [e]))
    (h : Deferral config disk wire (j ++ [.closed failure]) dir k) :
    Deferral config disk wire (j ++ [.closed failure]) dir (k ++ [e]) := by
  have hwritten : ∀ w ∈ ((startIn .block config disk wire).replay k).entryFlushed e, _ := fun w hw =>
    h.written hclosed haccepts hwrites hsteady hsplit hwritesBlock hw
  have hbefore : ∀ failure, e ≠ .closed failure :=
    hclosed e (hsplit ▸ List.mem_append_left l List.mem_concat_self)
  constructor
  · rw [replay_concat _ k, replay_concat _ k]
    refine h.trails.follow ((defers_startIn config disk wire).replay k) hbefore ?_ fun w hw => ?_
    · have hgrows := ((startIn .program config disk wire).replay (k ++ [e])).grows_replay
        (l ++ [.closed failure])
      rw [← replay_append, ← List.append_assoc, ← hsplit, replay_concat] at hgrows
      exact hgrows
    · obtain ⟨-, v, hv, hlocation⟩ := hwritten w hw
      have hhome : w.location ((startIn .block config disk wire).replay k).disk = w.location disk := by
        rw [FileWrite.location, Disk.resolve_eq (home_replay _ k)]
        rfl
      rw [hhome, ← hlocation, (wrote_replay _ _).text]
      exact FileWrite.isSome_foldl_after.mpr (.inr ⟨v, hv, rfl⟩)
  · intro w hw
    rw [flushed_concat] at hw
    rcases List.mem_append.mp hw with hw | hw
    · exact h.placed w hw
    · exact (hwritten w hw).1

/-- The two modes stand so at every point before the closing. -/
theorem deferral_replay {k : Journal} (hk : k <+: j)
    (hwritesBlock : (startIn .block config disk wire).Writes k) :
    Deferral config disk wire (j ++ [.closed failure]) dir k := by
  refine (replay_induction (motive := fun k b => b = (startIn .block config disk wire).replay k ∧
    (startIn .block config disk wire).Writes k ∧
    (k <+: j → Deferral config disk wire (j ++ [.closed failure]) dir k)) ?_ ?_ hwritesBlock).2.2 hk
  · exact ⟨rfl, trivial, fun _ => ⟨⟨rfl, .refl ((startIn .program config disk wire).grows_replay _)⟩,
      nofun⟩⟩
  · rintro k e b ⟨rfl, hwritesBlock, hdeferral⟩ hsucceeds
    have hwrites' : (startIn .block config disk wire).Writes (k ++ [e]) :=
      succeeds_append.mpr ⟨hwritesBlock, hsucceeds, trivial⟩
    refine ⟨(replay_concat _ k e).symm, hwrites', fun ⟨l, hl⟩ => ?_⟩
    have hk : k <+: j := ⟨[e] ++ l, by rw [← hl, List.append_assoc]⟩
    exact (hdeferral hk).concat hclosed haccepts hwrites hsteady hl.symm hwrites'

/-- The modes make the same folders on the way. -/
theorem makeFolders_replay {k : Journal} {path : String}
    (hk : k ++ [.moved path] <+: j ++ [.closed failure])
    (hwritesBlock : (startIn .block config disk wire).Writes k) :
    (((startIn .block config disk wire).replay k).disk.makeFolders path).2 =
      (((startIn .program config disk wire).replay k).disk.makeFolders path).2 := by
  have hdeferral := deferral_replay hclosed haccepts hwrites hsteady
    ((List.prefix_append _ _).trans (Journal.prefix_of_concat hk nofun)) hwritesBlock
  have hgrows : (((startIn .program config disk wire).replay k).moveTo path).disk.Grows
      ((startIn .program config disk wire).replay (j ++ [.closed failure])).disk := by
    obtain ⟨l, hl⟩ := hk
    rw [← hl, replay_append, replay_concat]
    exact grows_replay _ l
  exact (hdeferral.trails.moveTo hgrows).1

/-- In the end the outputs of both modes look alike. -/
theorem alike_replay
    (hwritesBlock : (startIn .block config disk wire).Writes (j ++ [.closed failure])) :
    Alike ((startIn .program config disk wire).replay (j ++ [.closed failure]))
      ((startIn .block config disk wire).replay (j ++ [.closed failure])) := by
  have hacceptsBlock : (startIn .block config disk wire).Accepts (j ++ [.closed failure]) :=
    accepts_startIn haccepts
  have hsettles := settles_replay hclosed haccepts hwrites
  have hsettlesBlock := settles_replay hclosed hacceptsBlock hwritesBlock
  have hdeferral := deferral_replay hclosed haccepts hwrites hsteady List.prefix_rfl
    (succeeds_append.mp hwritesBlock).1
  have hplaced : ∀ w ∈ (startIn .block config disk wire).flushed (j ++ [.closed failure]),
      dir = some (disk.resolve w.folder) := by
    intro w hw
    rw [flushed_concat] at hw
    rcases List.mem_append.mp hw with hw | hw
    · exact hdeferral.placed w hw
    · obtain ⟨hstaged, -⟩ := placed_closing hclosed hacceptsBlock hwritesBlock hw
      rw [← hsteady j _ rfl hstaged]
      exact place_of_folder (o := startIn .program config disk wire)
        (hdeferral.trails.folder.symm.trans (mem_entryFlushed hw).1)
  obtain ⟨hwire, hdead, hdelivered⟩ := hsettles.deliveries_eq hsettlesBlock rfl rfl
  refine ⟨?_, congrArg Wire.sent hwire, hdead, hdelivered⟩
  have hwrote := wrote_replay (startIn .program config disk wire) (j ++ [.closed failure])
  have hwroteBlock := wrote_replay (startIn .block config disk wire) (j ++ [.closed failure])
  exact hsettles.text_eq hsettlesBlock hwrote hwroteBlock
    (fun w hw => ⟨named_of_mem_flushed hw, placed_flushed hclosed haccepts hwrites hsteady hw⟩)
    fun w hw => ⟨named_of_mem_flushed hw, hplaced w hw⟩

end Modes
end Outputs
end ChainQuery
