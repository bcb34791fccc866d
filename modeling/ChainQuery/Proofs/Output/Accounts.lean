import ChainQuery.Output.Outputs
import ChainQuery.Proofs.Output.Files

/-!
# Accounts of the writers

Each writer holds the items that wait in its stage and those that are committed but not due yet; all
other items that were kept have arrived. A commit moves items on, a discard drops those in the stage.

Of the items that have arrived, the file of each table has the columns of its first row and then its rows,
the line log has the lines, each process has the document into which its records are merged, and each
request is posted. All of them come in the order of the items.
-/

namespace ChainQuery

namespace OutputItem

def row? : OutputItem → Option TableRow
  | row table cells => some ⟨table, cells.map (·.2)⟩
  | _ => none

def cells? (table : String) : OutputItem → Option (List (String × String))
  | row name cells => if name = table then some cells else none
  | _ => none

def line? : OutputItem → Option String
  | line text => some text
  | _ => none

def record? : OutputItem → Option EventRecord
  | record r => some r
  | _ => none

def request? : OutputItem → Option Delivery
  | request d => some d
  | _ => none

end OutputItem

/-- Rows of named cells as records, after the columns of the first row. -/
def Tables.withColumns : List (List (String × String)) → List (List String)
  | [] => []
  | cells :: rows => cells.map (·.1) :: (cells :: rows).map fun cells => cells.map (·.2)

def Tables.records (table : String) (items : List OutputItem) : List (List String) :=
  withColumns (items.filterMap (OutputItem.cells? table))

def EventLogs.ofItems (items : List OutputItem) : Keyed Document :=
  (items.filterMap OutputItem.record?).foldl mergeRecord []

namespace FileWrite

/-- The writes of parts to a file, each in the folder before it. The first one replaces the file, the
others are added to it. -/
def chunks (name extension : String) (render : α → String) : List (String × α) → List FileWrite
  | [] => []
  | c :: cs =>
    ⟨c.1, name, extension, .replace, render c.2⟩ ::
      cs.map fun c => ⟨c.1, name, extension, .append, render c.2⟩

theorem chunks_append (name extension : String) (render : α → String) (cs : List (String × α))
    (c : String × α) :
    chunks name extension render (cs ++ [c]) = chunks name extension render cs ++
      [⟨c.1, name, extension, if cs = [] then .replace else .append, render c.2⟩] := by
  cases cs with
  | nil => rfl
  | cons c' cs => simp [chunks]

end FileWrite

/-- Requests are posted one after the other, each at least once. -/
inductive Delivers : List Delivery → List Post → Prop where
  | nil : Delivers [] []
  | cons {d : Delivery} {ds : List Delivery} {posts : List Post} (retries : Nat) :
      Delivers ds posts → Delivers (d :: ds) (List.replicate (retries + 1) d.post ++ posts)

/-- The files and the network have received items, and nothing else. -/
def Outputs.Received (o : Outputs) (items : List OutputItem) (o' : Outputs) : Prop :=
  ∃ ws posts,
    o.disk.Wrote ws o'.disk ∧
    o'.wire.sent.reverse = o.wire.sent.reverse ++ posts ∧
    (∀ table, ∃ parts : List (String × List (List String)),
      FileWrite.toFile table "csv" ws = FileWrite.chunks table "csv" TableRow.recordsText parts ∧
        parts.flatMap (·.2) = Tables.records table items) ∧
    (∃ parts : List (String × List String),
      FileWrite.toFile "log" "txt" ws = FileWrite.chunks "log" "txt" LineLog.linesText parts ∧
        parts.flatMap (·.2) = items.filterMap OutputItem.line?) ∧
    (∀ process, ∃ folder,
      FileWrite.toFile process "xes" ws =
        (((EventLogs.ofItems items).lookup process).map fun traces =>
          (⟨folder, process, "xes", .replace, Document.text traces⟩ : FileWrite)).toList) ∧
    (∀ w ∈ ws, w.extension = "csv" ∨ w.name = "log" ∧ w.extension = "txt" ∨ w.extension = "xes") ∧
    Delivers (items.filterMap OutputItem.request?) posts

/-- The items of a kind are in a stage: those that wait, and the kept ones that are not done. -/
structure Staging.Splits (s : Staging α) (f : OutputItem → Option α)
    (kept waiting done : List OutputItem) : Prop where
  staged : s.staged = waiting.filterMap f
  committed : ∃ left, kept = done ++ left ∧ s.committed = left.filterMap f

namespace Staging.Splits

variable {s : Staging α} {f : OutputItem → Option α} {kept waiting done : List OutputItem}

theorem push (h : s.Splits f kept waiting done) {item : OutputItem} {a : α} (ha : f item = some a) :
    (s.push a).Splits f kept (waiting ++ [item]) done := by
  refine ⟨?_, h.committed⟩
  rw [Staging.push, h.staged]
  simp [ha]

theorem other (h : s.Splits f kept waiting done) {item : OutputItem} (hitem : f item = none) :
    s.Splits f kept (waiting ++ [item]) done := by
  refine ⟨?_, h.committed⟩
  rw [h.staged]
  simp [hitem]

theorem discard (h : s.Splits f kept waiting done) : s.discard.Splits f kept [] done :=
  ⟨rfl, h.committed⟩

theorem endProgram (h : s.Splits f kept waiting done) :
    ∃ due, done ++ due = kept ++ waiting ∧ s.endProgram.2 = due.filterMap f ∧
      s.endProgram.1.Splits f (kept ++ waiting) [] (done ++ due) := by
  obtain ⟨left, hkept, hleft⟩ := h.committed
  refine ⟨left ++ waiting, ?_, ?_, rfl, [], ?_, rfl⟩
  · rw [hkept, List.append_assoc]
  · rw [Staging.endProgram, hleft, h.staged, List.filterMap_append]
  · rw [hkept]
    simp

theorem endBlock (h : s.Splits f kept waiting done) :
    ∃ due, s.endBlock.2 = due.filterMap f ∧
      s.endBlock.1.Splits f (kept ++ waiting) [] (done ++ due) := by
  obtain ⟨left, hkept, hleft⟩ := h.committed
  unfold Staging.endBlock
  cases s.mode with
  | block =>
    refine ⟨left ++ waiting, ?_, rfl, [], ?_, rfl⟩
    · simp only [hleft, h.staged, List.filterMap_append]
    · rw [hkept]
      simp
  | program =>
    refine ⟨[], rfl, rfl, left ++ waiting, ?_, ?_⟩
    · rw [hkept]
      simp
    · simp only [hleft, h.staged, List.filterMap_append]

end Staging.Splits

/-- The writes to a file are those of parts which make up its contents; `opened` says whether there
are any. -/
structure FileWrite.Parts (ws : List FileWrite) (name extension : String) (render : List α → String)
    (contents : List α) (opened : Prop) : Prop where
  parts : ∃ parts : List (String × List α),
    FileWrite.toFile name extension ws = FileWrite.chunks name extension render parts ∧
      parts.flatMap (·.2) = contents ∧ (opened ↔ parts ≠ []) ∧ ∀ part ∈ parts, part.2 ≠ []

namespace FileWrite.Parts

variable {ws vs : List FileWrite} {name extension : String} {render : List α → String}
variable {contents more : List α} {opened : Prop}

theorem nil (hopened : ¬ opened) : Parts [] name extension render ([] : List α) opened :=
  ⟨[], rfl, rfl, by simp [hopened], nofun⟩

theorem contents_eq_nil (h : Parts ws name extension render contents opened) :
    contents = [] ↔ ¬ opened := by
  obtain ⟨parts, -, hcontents, hopened, hne⟩ := h.parts
  rw [← hcontents, hopened]
  cases parts with
  | nil => simp
  | cons part parts => simp [hne part List.mem_cons_self]

theorem same (h : Parts ws name extension render contents opened)
    (hvs : FileWrite.toFile name extension vs = []) :
    Parts (ws ++ vs) name extension render contents opened := by
  obtain ⟨parts, hto, hrest⟩ := h.parts
  refine ⟨parts, ?_, hrest⟩
  rw [FileWrite.toFile_append, hvs, List.append_nil, hto]

theorem add (h : Parts ws name extension render contents opened) {folder : String}
    {mode : Disk.WriteMode} (hmore : more ≠ []) (happend : opened → mode = .append)
    (hreplace : ¬ opened → mode = .replace)
    (hvs : FileWrite.toFile name extension vs = [⟨folder, name, extension, mode, render more⟩]) :
    Parts (ws ++ vs) name extension render (contents ++ more) True := by
  obtain ⟨parts, hto, hcontents, hopened, hne⟩ := h.parts
  refine ⟨parts ++ [(folder, more)], ?_, ?_, ?_, ?_⟩
  · rw [FileWrite.toFile_append, hto, hvs, FileWrite.chunks_append]
    by_cases hparts : parts = []
    · rw [hreplace fun ho => hopened.mp ho hparts, if_pos hparts]
    · rw [happend (hopened.mpr hparts), if_neg hparts]
  · rw [List.flatMap_append, hcontents]
    simp
  · simp
  · intro part hpart
    rcases List.mem_append.mp hpart with hpart | hpart
    · exact hne part hpart
    · rw [List.mem_singleton.mp hpart]
      exact hmore

end FileWrite.Parts

def LineLog.Holds (l : LineLog) (kept waiting : List OutputItem) (ws : List FileWrite) : Prop :=
  ∃ done, l.lines.Splits OutputItem.line? kept waiting done ∧
    FileWrite.Parts ws "log" "txt" linesText (done.filterMap OutputItem.line?) (l.opened = true)

namespace LineLog

variable {l l' : LineLog} {folder : Option String} {d d' : Disk}

/-- What is done with the result of the one write. -/
theorem writeLines_eq (l : LineLog) (folder : Option String) (d : Disk) {lines : List String}
    (hlines : lines ≠ []) : l.writeLines folder d lines =
      let w := OutputFile.write d (if l.opened then .append else .replace) folder "log" "txt"
        (linesText lines)
      (if w.2 = none then { l with opened := true } else l, w.1, w.2) := by
  unfold writeLines
  rw [if_neg hlines]
  dsimp only
  rcases OutputFile.write d _ folder "log" "txt" _ with ⟨d', _ | e⟩
  · rfl
  · rfl

def flushed (folder : Option String) (l : LineLog) (d : Disk) (lines : List String) :
    List FileWrite :=
  if lines = [] then []
  else FileWrite.made folder (l.writeLines folder d lines).2.2 fun f =>
    ⟨f, "log", "txt", if l.opened then .append else .replace, linesText lines⟩

theorem mem_flushed {lines : List String} {w : FileWrite} (h : w ∈ flushed folder l d lines) :
    folder = some w.folder ∧ w.name = "log" ∧ w.extension = "txt" := by
  unfold flushed at h
  split at h
  · exact absurd h List.not_mem_nil
  · obtain ⟨f, hfolder, rfl⟩ := FileWrite.mem_made h
    exact ⟨hfolder, rfl, rfl⟩

/-- Lines are added to the ones that were written before, or their write fails. -/
theorem writeLines_flushed {lines : List String} {failure : Option WriterError}
    (h : l.writeLines folder d lines = (l', d', failure)) :
    d.Wrote (flushed folder l d lines) d' ∧ l'.lines = l.lines ∧
      ∀ us contents, FileWrite.Parts us "log" "txt" linesText contents (l.opened = true) →
        FileWrite.Parts (us ++ flushed folder l d lines) "log" "txt" linesText
          (contents ++ if failure = none then lines else []) (l'.opened = true) := by
  rw [flushed, h]
  unfold writeLines at h
  by_cases hlines : lines = []
  · rw [if_pos hlines] at h
    cases h
    rw [if_pos hlines]
    refine ⟨Disk.wrote_nil rfl fun _ => rfl, rfl, fun us contents hparts => ?_⟩
    rw [if_pos rfl, hlines, List.append_nil, List.append_nil]
    exact hparts
  · rw [if_neg hlines] at h
    rw [if_neg hlines]
    dsimp only at h
    rcases hwrite : OutputFile.write d (if l.opened = true then .append else .replace) folder "log"
        "txt" (linesText lines) with ⟨d₁, _ | e⟩
    · rw [hwrite] at h
      cases h
      obtain ⟨f, rfl, hwrote⟩ := OutputFile.wrote hwrite
      refine ⟨hwrote, rfl, fun us contents hparts => ?_⟩
      have hadded := hparts.add hlines (fun ho => if_pos ho) (fun ho => if_neg ho)
        (rfl : FileWrite.toFile "log" "txt" [⟨f, "log", "txt",
          if l.opened = true then .append else .replace, linesText lines⟩] = _)
      rw [if_pos rfl]
      show FileWrite.Parts _ _ _ _ _ (true = true)
      rw [eq_self_iff_true]
      exact hadded
    · rw [hwrite] at h
      cases h
      have hnone : ∀ write : String → FileWrite, FileWrite.made folder (some e) write = [] := by
        intro write
        cases folder <;> rfl
      rw [hnone]
      refine ⟨OutputFile.wrote_of_error hwrite, rfl, fun us contents hparts => ?_⟩
      rw [if_neg nofun, List.append_nil, List.append_nil]
      exact hparts

variable {kept waiting : List OutputItem} {us : List FileWrite}

theorem Holds.line (h : l.Holds kept waiting us) (text : String) :
    (l.addLine text).Holds kept (waiting ++ [.line text]) us := by
  obtain ⟨done, hsplits, hparts⟩ := h
  exact ⟨done, hsplits.push rfl, hparts⟩

theorem Holds.other (h : l.Holds kept waiting us) {item : OutputItem} (hitem : item.line? = none) :
    l.Holds kept (waiting ++ [item]) us := by
  obtain ⟨done, hsplits, hparts⟩ := h
  exact ⟨done, hsplits.other hitem, hparts⟩

theorem Holds.discard (h : l.Holds kept waiting us) : l.discard.Holds kept [] us := by
  obtain ⟨done, hsplits, hparts⟩ := h
  exact ⟨done, hsplits.discard, hparts⟩

theorem Holds.endBlock (h : l.Holds kept waiting us) (hend : l.endBlock folder d = (l', d', none)) :
    l'.Holds (kept ++ waiting) []
      (us ++ flushed folder { l with lines := l.lines.endBlock.1 } d l.lines.endBlock.2) := by
  obtain ⟨done, hsplits, hparts⟩ := h
  obtain ⟨due, hdue, hsplits'⟩ := hsplits.endBlock
  have hwrite : writeLines { l with lines := l.lines.endBlock.1 } folder d l.lines.endBlock.2 =
    (l', d', none) := hend
  obtain ⟨-, hlines, hadd⟩ := writeLines_flushed hwrite
  refine ⟨done ++ due, ?_, ?_⟩
  · rw [hlines]
    exact hsplits'
  · have hparts' := hadd us _ hparts
    rw [if_pos rfl, hdue] at hparts'
    rw [hdue, List.filterMap_append]
    exact hparts'

theorem Holds.endProgram (h : l.Holds kept waiting us)
    (hend : l.endProgram folder d = (l', d', none)) :
    ∃ opened, FileWrite.Parts
      (us ++ flushed folder { l with lines := l.lines.endProgram.1 } d l.lines.endProgram.2)
      "log" "txt" linesText ((kept ++ waiting).filterMap OutputItem.line?) opened := by
  obtain ⟨done, hsplits, hparts⟩ := h
  obtain ⟨due, hall, hdue, -⟩ := hsplits.endProgram
  have hwrite : writeLines { l with lines := l.lines.endProgram.1 } folder d l.lines.endProgram.2 =
    (l', d', none) := hend
  obtain ⟨-, -, hadd⟩ := writeLines_flushed hwrite
  refine ⟨l'.opened = true, ?_⟩
  have hparts' := hadd us _ hparts
  rw [if_pos rfl, hdue, ← List.filterMap_append, hall] at hparts'
  rw [hdue]
  exact hparts'

end LineLog

/-- The requests that are done have been delivered one after the other, from deliveries `ds₀` on a
network `w₀` on. -/
def Deliveries.Holds (ds₀ : Deliveries) (w₀ : Wire) (ds : Deliveries) (w : Wire)
    (kept waiting : List OutputItem) : Prop :=
  ∃ done, ds.requests.Splits OutputItem.request? kept waiting done ∧
    ds₀.deliver w₀ (done.filterMap OutputItem.request?) = ({ ds with requests := ds₀.requests }, w)

theorem Delivery.attempt_sent (d : Delivery) (w : Wire) (retries : Nat) :
    ∃ n, n ≤ retries ∧
      (d.attempt w retries).1.sent = List.replicate (n + 1) d.post ++ w.sent := by
  induction retries generalizing w with
  | zero =>
    have hattempt : d.attempt w 0 = ((w.send d.post).1, (w.send d.post).2.isSuccess) := by
      simp only [attempt]
      split
      · next hsuccess => rw [hsuccess]
      · next hfailure => rw [Bool.eq_false_iff.mpr hfailure]
    exact ⟨0, Nat.le_refl 0, by rw [hattempt]; rfl⟩
  | succ retries ih =>
    have hattempt : d.attempt w (retries + 1) =
        if (w.send d.post).2.isSuccess then ((w.send d.post).1, true)
        else d.attempt (w.send d.post).1 retries := rfl
    rw [hattempt]
    split
    · exact ⟨0, Nat.zero_le _, rfl⟩
    · obtain ⟨n, hle, hn⟩ := ih (w.send d.post).1
      refine ⟨n + 1, Nat.succ_le_succ hle, ?_⟩
      have hreplicate : List.replicate (n + 1 + 1) d.post =
          List.replicate (n + 1) d.post ++ [d.post] := List.replicate_succ'
      rw [hn, hreplicate, List.append_assoc]
      rfl

namespace Deliveries

variable {ds : Deliveries} {kept waiting : List OutputItem}

theorem deliver_sent (ds : Deliveries) (w : Wire) (due : List Delivery) :
    (ds.deliver w due).1.requests = ds.requests ∧ ∃ posts, Delivers due posts ∧
      (ds.deliver w due).2.sent.reverse = w.sent.reverse ++ posts := by
  induction due generalizing ds w with
  | nil => exact ⟨rfl, [], .nil, (List.append_nil _).symm⟩
  | cons d due ih =>
    obtain ⟨n, -, hsent⟩ := d.attempt_sent w ds.retry.maxRetries
    have hnext : ∀ ds' w', w'.sent = List.replicate (n + 1) d.post ++ w.sent →
        ds'.requests = ds.requests →
        (deliver ds' w' due).1.requests = ds.requests ∧ ∃ posts, Delivers (d :: due) posts ∧
          (deliver ds' w' due).2.sent.reverse = w.sent.reverse ++ posts := by
      intro ds' w' hw' hds'
      obtain ⟨hrequests, posts, hposts, hrest⟩ := ih ds' w'
      refine ⟨hrequests.trans hds', _, .cons n hposts, ?_⟩
      rw [hrest, hw', List.reverse_append, List.reverse_replicate, List.append_assoc]
    rw [deliver]
    rcases hattempt : d.attempt w ds.retry.maxRetries with ⟨w', _ | _⟩
    · rw [hattempt] at hsent
      exact hnext _ _ hsent rfl
    · rw [hattempt] at hsent
      exact hnext _ _ hsent rfl

/-- What is delivered does not depend on the requests that are staged or not due. -/
theorem deliver_requests (ds : Deliveries) (requests : Staging Delivery) (w : Wire)
    (due : List Delivery) : deliver { ds with requests := requests } w due =
      ({ (ds.deliver w due).1 with requests := requests }, (ds.deliver w due).2) := by
  induction due generalizing ds w with
  | nil => rfl
  | cons d due ih =>
    rw [deliver, deliver]
    rcases d.attempt w ds.retry.maxRetries with ⟨w', _ | _⟩
    · exact ih { ds with deadLetters := ds.deadLetters ++ [d] } w'
    · exact ih { ds with delivered := ds.delivered + 1 } w'

theorem deliver_append (ds : Deliveries) (w : Wire) (due later : List Delivery) :
    ds.deliver w (due ++ later) = (ds.deliver w due).1.deliver (ds.deliver w due).2 later := by
  induction due generalizing ds w with
  | nil => rfl
  | cons d due ih =>
    rw [List.cons_append, deliver, deliver]
    rcases d.attempt w ds.retry.maxRetries with ⟨w', _ | _⟩
    · exact ih _ w'
    · exact ih _ w'

variable {ds₀ : Deliveries} {w₀ w : Wire}

theorem Holds.request (h : Holds ds₀ w₀ ds w kept waiting) (d : Delivery) :
    Holds ds₀ w₀ (ds.add d) w kept (waiting ++ [.request d]) := by
  obtain ⟨done, hsplits, hdone⟩ := h
  exact ⟨done, hsplits.push rfl, hdone⟩

theorem Holds.other (h : Holds ds₀ w₀ ds w kept waiting) {item : OutputItem}
    (hitem : item.request? = none) : Holds ds₀ w₀ ds w kept (waiting ++ [item]) := by
  obtain ⟨done, hsplits, hdone⟩ := h
  exact ⟨done, hsplits.other hitem, hdone⟩

theorem Holds.discard (h : Holds ds₀ w₀ ds w kept waiting) :
    Holds ds₀ w₀ ds.discard w kept [] := by
  obtain ⟨done, hsplits, hdone⟩ := h
  exact ⟨done, hsplits.discard, hdone⟩

/-- What is due is delivered after what is done. -/
theorem deliver_done {done due : List Delivery}
    (hdone : ds₀.deliver w₀ done = ({ ds with requests := ds₀.requests }, w))
    (requests : Staging Delivery) : ds₀.deliver w₀ (done ++ due) =
      ({ (deliver { ds with requests := requests } w due).1 with requests := ds₀.requests },
        (deliver { ds with requests := requests } w due).2) := by
  rw [deliver_append, hdone, deliver_requests ds ds₀.requests, deliver_requests ds requests]

theorem Holds.endBlock (h : Holds ds₀ w₀ ds w kept waiting) :
    Holds ds₀ w₀ (ds.endBlock w).1 (ds.endBlock w).2 (kept ++ waiting) [] := by
  obtain ⟨done, hsplits, hdone⟩ := h
  obtain ⟨due, hdue, hsplits'⟩ := hsplits.endBlock
  obtain ⟨hrequests, -⟩ :=
    deliver_sent { ds with requests := ds.requests.endBlock.1 } w ds.requests.endBlock.2
  refine ⟨done ++ due, ?_, ?_⟩
  · rw [Deliveries.endBlock, hrequests]
    exact hsplits'
  · rw [List.filterMap_append, ← hdue]
    exact deliver_done hdone _

/-- At the end all requests that were kept have been delivered. -/
theorem Holds.endProgram (h : Holds ds₀ w₀ ds w kept waiting) :
    ds₀.deliver w₀ ((kept ++ waiting).filterMap OutputItem.request?) =
      ({ (ds.endProgram w).1 with requests := ds₀.requests }, (ds.endProgram w).2) := by
  obtain ⟨done, hsplits, hdone⟩ := h
  obtain ⟨due, hall, hdue, -⟩ := hsplits.endProgram
  rw [← hall, List.filterMap_append, ← hdue]
  exact deliver_done hdone _

end Deliveries
end ChainQuery
