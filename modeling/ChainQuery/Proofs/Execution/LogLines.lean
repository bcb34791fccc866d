import ChainQuery.Proofs.Execution.Aborts
import ChainQuery.Proofs.Execution.Changes
import ChainQuery.Proofs.Failures.Accounts

/-!
# The lines of the log

The log holds the text of each committed emission, in order, and a line feed after it. A text may hold
line feeds itself, and then the emission makes more than one line.
-/

namespace ChainQuery

namespace LineLog

/-- The lines of a text, each of them up to a line feed or the end. -/
def readLines : List Char → List (List Char)
  | [] => []
  | c :: cs =>
    if c = '\n' then [] :: readLines cs
    else
      match readLines cs with
      | [] => [[c]]
      | line :: lines => (c :: line) :: lines

def textLines (text : String) : List String :=
  (readLines text.toList).map String.ofList

theorem length_readLines (line : List Char) :
    (readLines (line ++ ['\n'])).length = line.count '\n' + 1 := by
  induction line with
  | nil => rfl
  | cons c line ih =>
    rw [List.cons_append, readLines]
    by_cases hc : c = '\n'
    · rw [if_pos hc, hc, List.length_cons, ih, List.count_cons_self]
    · rw [if_neg hc, List.count_cons_of_ne hc, ← ih]
      cases hline : readLines (line ++ ['\n']) with
      | nil =>
        rw [hline] at ih
        cases ih
      | cons first lines => rfl

theorem readLines_append (line rest : List Char) :
    readLines (line ++ '\n' :: rest) = readLines (line ++ ['\n']) ++ readLines rest := by
  induction line with
  | nil => rfl
  | cons c line ih =>
    rw [List.cons_append, List.cons_append, readLines, readLines, ih]
    by_cases hc : c = '\n'
    · rw [if_pos hc, if_pos hc]
      rfl
    · rw [if_neg hc, if_neg hc]
      cases hline : readLines (line ++ ['\n']) with
      | nil =>
        have hlength := length_readLines line
        rw [hline] at hlength
        cases hlength
      | cons first lines => rfl

theorem readLines_of_not_mem {line : List Char} (h : '\n' ∉ line) :
    readLines (line ++ ['\n']) = [line] := by
  induction line with
  | nil => rfl
  | cons c line ih =>
    obtain ⟨hc, hline⟩ := not_or.mp (mt List.mem_cons.mpr h)
    rw [List.cons_append, readLines, if_neg (Ne.symm hc), ih hline]

theorem textLines_linesText_cons (line : String) (lines : List String) :
    textLines (linesText (line :: lines)) =
      (readLines (line.toList ++ ['\n'])).map String.ofList ++ textLines (linesText lines) := by
  rw [textLines, textLines, linesText, linesText, String.toList_ofList, String.toList_ofList,
    List.flatMap_cons, List.append_assoc, List.singleton_append, readLines_append, List.map_append]

/-- There is one line for each text, and one more for each line feed in a text. -/
theorem length_textLines (lines : List String) :
    (textLines (linesText lines)).length =
      lines.length + (lines.flatMap String.toList).count '\n' := by
  induction lines with
  | nil => rfl
  | cons line lines ih =>
    rw [textLines_linesText_cons, List.length_append, List.length_map, length_readLines, ih,
      List.flatMap_cons, List.count_append, List.length_cons]
    omega

/-- The lines are the texts just if no text holds a line feed. -/
theorem textLines_eq_iff {lines : List String} :
    textLines (linesText lines) = lines ↔ ∀ line ∈ lines, '\n' ∉ line.toList := by
  constructor
  · intro heq line hline hfeed
    have hlength := length_textLines lines
    rw [heq] at hlength
    have hnone : '\n' ∉ lines.flatMap String.toList := List.count_eq_zero.mp (by omega)
    exact hnone (List.mem_flatMap.mpr ⟨line, hline, hfeed⟩)
  · intro hfeeds
    induction lines with
    | nil => rfl
    | cons line lines ih =>
      obtain ⟨hline, hlines⟩ := List.forall_mem_cons.mp hfeeds
      rw [textLines_linesText_cons, readLines_of_not_mem hline, ih hlines]
      simp

end LineLog

theorem Emission.line?_of_eval {e : Emission} {view : View} {item : OutputItem}
    (heval : e.eval view = .ok item) (he : ∀ values, e ≠ .line values) : item.line? = none := by
  cases e with
  | row table columns =>
    obtain ⟨cells, -, rfl⟩ := except_map_eq_ok.mp heval
    rfl
  | line values => exact absurd rfl (he values)
  | trace process instanceId fields =>
    obtain ⟨_, -, heval⟩ := except_bind_eq_ok.mp heval
    obtain ⟨_, -, heval⟩ := except_bind_eq_ok.mp heval
    obtain ⟨_, -, heval⟩ := except_bind_eq_ok.mp heval
    cases heval
    rfl
  | event process instanceId id fields =>
    obtain ⟨_, -, heval⟩ := except_bind_eq_ok.mp heval
    obtain ⟨_, -, heval⟩ := except_bind_eq_ok.mp heval
    cases id with
    | none =>
      obtain ⟨_, -, heval⟩ := except_bind_eq_ok.mp heval
      obtain ⟨_, -, heval⟩ := except_bind_eq_ok.mp heval
      cases heval
      rfl
    | some id =>
      obtain ⟨_, -, heval⟩ := except_bind_eq_ok.mp heval
      obtain ⟨_, -, heval⟩ := except_bind_eq_ok.mp heval
      cases heval
      rfl
  | request uri fields =>
    obtain ⟨_, -, heval⟩ := except_bind_eq_ok.mp heval
    obtain ⟨_, -, heval⟩ := except_bind_eq_ok.mp heval
    cases heval
    rfl

namespace Deed

/-- Deeds in which each item that is staged is that of the emission which has begun right before. The
first deed comes first. -/
inductive Emitted : List Deed → Prop where
  | nil : Emitted []
  | emission {e : Emission} {view : View} {item : OutputItem} {deeds : List Deed} :
      e.eval view = .ok item → Emitted deeds →
        Emitted (.began (.emit e) view :: .noted (.staged item) :: deeds)
  | other {d : Deed} {deeds : List Deed} : (∀ item, d ≠ .noted (.staged item)) → Emitted deeds →
      Emitted (d :: deeds)

/-- The emissions whose items are kept, each with what it has seen. -/
def emissions : List Deed → List (Emission × View)
  | .began (.emit e) view :: .noted (.staged _) :: deeds =>
    (if Journal.decision? (deeds.filterMap entry?) = some none then [(e, view)] else []) ++
      emissions deeds
  | _ :: deeds => emissions deeds
  | [] => []

def logged? : Emission × View → Option (List Term × View)
  | (.line values, view) => some (values, view)
  | _ => none

theorem Emitted.append {deeds later : List Deed} (h : Emitted deeds) (hlater : Emitted later) :
    Emitted (deeds ++ later) := by
  induction h with
  | nil => exact hlater
  | emission heval _ ih => exact .emission heval ih
  | other hd _ ih => exact .other hd ih

theorem emissions_cons (d : Deed) {deeds : List Deed} (h : Emitted deeds) :
    emissions (d :: deeds) = emissions deeds := by
  rw [emissions]
  rintro e view item rest rfl rfl
  cases h with
  | other hd _ => exact hd item rfl

/-- Each item that is kept is that of an emission. -/
theorem Emitted.kept {deeds : List Deed} (h : Emitted deeds) :
    List.Forall₂ (fun x item => x.1.eval x.2 = .ok item) (emissions deeds)
      (Journal.kept (deeds.filterMap entry?)) := by
  induction h with
  | nil => exact .nil
  | @emission e view item deeds heval h ih =>
    have hkept : Journal.kept ((.began (.emit e) view :: .noted (.staged item) :: deeds).filterMap
        entry?) = (if Journal.decision? (deeds.filterMap entry?) = some none then [item] else []) ++
          Journal.kept (deeds.filterMap entry?) := by
      show Journal.kept (.staged item :: deeds.filterMap entry?) = _
      rw [Journal.kept]
      split <;> rfl
    rw [hkept, emissions]
    refine List.rel_append ?_ ih
    split
    · exact .cons heval .nil
    · exact .nil
  | @other d deeds hd h ih =>
    rw [emissions_cons d h, List.filterMap_cons]
    cases hentry : d.entry? with
    | none => exact ih
    | some e =>
      have hitem : e.item? = none := by
        cases d with
        | noted entry =>
          cases hentry
          cases e with
          | staged item => exact absurd rfl (hd item)
          | _ => rfl
        | _ => cases hentry
      rw [Journal.kept, hitem]
      split <;> exact ih

/-- Each line that is kept is made of the texts of the values of a log emission. -/
theorem Emitted.lines {deeds : List Deed} (h : Emitted deeds) :
    List.Forall₂ (fun x line => ∃ values, x.1.mapM (Term.eval x.2) = .ok values ∧
        line = String.join (values.map Value.text))
      ((emissions deeds).filterMap logged?)
      ((Journal.kept (deeds.filterMap entry?)).filterMap OutputItem.line?) := by
  have hkept := h.kept
  generalize emissions deeds = xs at hkept ⊢
  generalize Journal.kept (deeds.filterMap entry?) = items at hkept ⊢
  induction hkept with
  | nil => exact .nil
  | @cons x item xs items heval _ ih =>
    obtain ⟨e, view⟩ := x
    rw [List.filterMap_cons, List.filterMap_cons]
    cases e with
    | line terms =>
      obtain ⟨texts, htexts, rfl⟩ := except_map_eq_ok.mp heval
      have hmap : terms.mapM (Term.evalText view) =
          (terms.mapM (Term.eval view)).map (List.map Value.text) :=
        except_mapM_map (Term.eval view) Value.text terms
      obtain ⟨values, hvalues, rfl⟩ := except_map_eq_ok.mp (hmap.symm.trans htexts)
      exact .cons ⟨values, hvalues, rfl⟩ ih
    | _ =>
      rw [Emission.line?_of_eval heval nofun]
      exact ih

end Deed

namespace RunState

/-- What has been done since a state, with the entries of the journal that it makes. -/
def Tells (s t : RunState) : Prop :=
  ∃ deeds, Deed.Emitted deeds ∧ t.deeds = deeds.reverse ++ s.deeds ∧
    t.journal = s.journal ++ deeds.filterMap Deed.entry?

variable {s t u : RunState}

theorem tells_refl (s : RunState) : s.Tells s :=
  ⟨[], .nil, rfl, (List.append_nil _).symm⟩

theorem Tells.trans (hst : s.Tells t) (htu : t.Tells u) : s.Tells u := by
  obtain ⟨deeds, hemitted, hdeeds, hjournal⟩ := hst
  obtain ⟨later, hemitted', hdeeds', hjournal'⟩ := htu
  refine ⟨deeds ++ later, hemitted.append hemitted', ?_, ?_⟩
  · rw [hdeeds', hdeeds, List.reverse_append, List.append_assoc]
  · rw [hjournal', hjournal, List.filterMap_append, List.append_assoc]

theorem tells_of_deed {d : Deed} (hd : ∀ item, d ≠ .noted (.staged item))
    (hdeeds : t.deeds = d :: s.deeds) (hjournal : t.journal = s.journal ++ d.entry?.toList) :
    s.Tells t := by
  refine ⟨[d], .other hd .nil, hdeeds, ?_⟩
  rw [hjournal, List.filterMap_cons]
  cases d.entry? <;> rfl

theorem tells_quiet {d : Deed} (hd : d.entry? = none) (hdeeds : t.deeds = d :: s.deeds)
    (hjournal : t.journal = s.journal) : s.Tells t := by
  refine tells_of_deed ?_ hdeeds ?_
  · rintro item rfl
    cases hd
  · rw [hd, hjournal]
    exact (List.append_nil _).symm

theorem changes_tells : Changes Tells where
  refl := tells_refl
  trans := Tells.trans
  began _ _ := tells_quiet rfl rfl rfl
  raised _ _ := tells_quiet rfl rfl rfl
  handled s context e := by
    refine tells_quiet (d := if s.errors.aborting then .passed context e
      else .recorded context e (s.errors.ends e)) ?_ rfl rfl
    split <;> rfl
  asked _ _ := tells_quiet rfl rfl rfl
  bound _ _ := tells_quiet rfl rfl rfl
  attached _ _ := tells_refl _
  moved s path := tells_of_deed (d := .noted (.moved path)) nofun rfl rfl
  entered s e := tells_of_deed (d := .noted (.entered e)) nofun (by cases e <;> rfl)
    (by cases e <;> rfl)
  left s c failure := tells_of_deed (d := .noted (.left c failure)) nofun (by cases c <;> rfl)
    (by cases c <;> rfl)

end RunState

namespace Run

/-- An emission stages its own item, or it fails and stages nothing. -/
theorem emits_tells : Emits .all fun _ => Keeps RunState.Tells := by
  intro e _ s result t h
  have hbegan : s.Tells (s.log (.began (.emit e) s.toView)) := RunState.changes_tells.began _ _
  have hraised : ∀ {failure : ExecutionError}, ((raise failure : Run Unit).run
      (s.log (.began (.emit e) s.toView))) = some (result, t) → s.Tells t := by
    intro failure hraise
    cases hraise
    exact hbegan.trans (RunState.changes_tells.raised _ _)
  have hrun : (inView e.eval >>= Emission.stage).run (s.log (.began (.emit e) s.toView)) =
      some (result, t) := h
  rw [inView, bind_assoc, run_get_bind] at hrun
  cases heval : e.eval s.toView with
  | error failure =>
    have hfailed : e.eval (s.log (.began (.emit e) s.toView)).toView = .error failure := heval
    rw [hfailed] at hrun
    exact hraised hrun
  | ok item =>
    have hitem : e.eval (s.log (.began (.emit e) s.toView)).toView = .ok item := heval
    rw [hitem] at hrun
    have hstage : (Emission.stage item).run (s.log (.began (.emit e) s.toView)) =
        some (result, t) := hrun
    rw [Emission.run_stage] at hstage
    cases hstaged : (s.log (.began (.emit e) s.toView)).outputs.stage item with
    | error failure =>
      rw [hstaged] at hstage
      exact hraised hstage
    | ok o =>
      rw [hstaged] at hstage
      cases hstage
      exact ⟨[.began (.emit e) s.toView, .noted (.staged item)], .emission heval .nil, rfl, rfl⟩

end Run

/-- The deeds of a run make its journal, and what it has staged is what its emissions have made. -/
theorem Program.tells_of_run {looks : Nat} {p : Program} {s t : RunState}
    {result : Except ExecutionError Unit} (hrun : p.run? looks s = some (result, t)) :
    s.Tells t := by
  have hchanges := RunState.changes_tells
  have hclosed : ∀ u failure, RunState.Tells u (u.perform (.closed failure)) := fun u failure =>
    RunState.tells_of_deed (d := .noted (.closed failure)) nofun rfl rfl
  have heach : Run.Keeps RunState.Tells (Program.executeEach looks p.instructions) :=
    (Run.composes_keeps hchanges).executeEach Run.emits_tells looks (Instruction.withinAll_all _)
  rcases Program.run_cases hrun with
    ⟨u, hu, ⟨-, -, rfl⟩ | ⟨w, -, -, rfl⟩⟩ | ⟨u, fatal, hu, -, rfl⟩
  · exact (heach _ _ _ hu).trans (hclosed u none)
  · exact ((heach _ _ _ hu).trans (hclosed u none)).trans (hchanges.raised _ _)
  · exact (heach _ _ _ hu).trans (hclosed u (some fatal))

/-- Where no write fails and the output folder stays in its place, the log holds one text for each log
emission that is kept, in order: its values one after the other. These texts are its lines just if none
of them holds a line feed; each line feed makes one line more. -/
theorem log_of_run {looks : Nat} {p : Program} {s t : RunState} {dir : Location}
    {result : Except ExecutionError Unit} (hfresh : s.Fresh) (hdeeds : s.deeds = [])
    (hrun : p.Completes looks s result t) (hsteady : s.outputs.Steady t.journal)
    (hdir : t.outputs.place = some dir) :
    let emitted := (Deed.emissions t.deeds.reverse).filterMap Deed.logged?
    ∃ lines : List String,
      List.Forall₂ (fun x line => ∃ values, x.1.mapM (Term.eval x.2) = .ok values ∧
        line = String.join (values.map Value.text)) emitted lines ∧
      t.outputs.disk.text? (dir ++ ["log.txt"]) =
        (if lines = [] then s.outputs.disk.text? (dir ++ ["log.txt"])
          else some (LineLog.linesText lines)) ∧
      (LineLog.textLines (LineLog.linesText lines) = lines ↔ ∀ line ∈ lines, '\n' ∉ line.toList) ∧
      (LineLog.textLines (LineLog.linesText lines)).length =
        emitted.length + (lines.flatMap String.toList).count '\n' := by
  intro emitted
  obtain ⟨deeds, hemitted, htold, hjournal⟩ := Program.tells_of_run hrun.run
  have hreverse : t.deeds.reverse = deeds := by
    rw [htold, hdeeds, List.append_nil, List.reverse_reverse]
  have hentries : t.journal = deeds.filterMap Deed.entry? := by
    rw [hjournal, hfresh.journal, List.nil_append]
  have hlines := hemitted.lines
  rw [← hentries, ← hreverse] at hlines
  have hplace : ∀ k l, t.journal = k ++ l → (∃ item, .staged item ∈ k) →
      (s.outputs.replay k).place = some dir := by
    obtain ⟨place, hsteady⟩ := hsteady
    intro k l hsplit hstaged
    obtain ⟨item, hitem⟩ := hstaged
    have hall : .staged item ∈ t.journal := by
      rw [hsplit]
      exact List.mem_append_left l hitem
    rw [hsteady k l hsplit ⟨item, hitem⟩, ← hdir,
      ← hsteady t.journal [] (List.append_nil _).symm ⟨item, hall⟩,
      (Program.outputs_of_run hfresh hrun.run).2]
  obtain ⟨hsettles, hwrote, hplaced⟩ := Program.settles_of_run hfresh hrun hplace
  obtain ⟨_, hparts⟩ := hsettles.lines
  refine ⟨_, hlines, ?_, LineLog.textLines_eq_iff, ?_⟩
  · exact hparts.text_eq hwrote (fun w hw => (hplaced w hw).1)
      (fun w hw => (Option.some.inj (hplaced w hw).2).symm) rfl LineLog.renders_linesText
  · rw [LineLog.length_textLines, ← hlines.length_eq]

theorem log_of_keptAndDropped :
    ∃ t, keptAndDropped.Completes 0 singleStart (.ok ()) t ∧
      t.outputs.disk.text? ["log.txt"] = some "kept\n" ∧ LineLog.textLines "kept\n" = ["kept"] := by
  obtain ⟨t, hrun, hjournal, hemitted, hplace⟩ : ∃ t,
      keptAndDropped.run? 0 singleStart = some (.ok (), t) ∧
      t.journal = [.entered (.block { number := 1 }), .staged (.line "kept"), .left .block none,
        .entered (.block { number := 1 }), .staged (.line "dropped"),
        .left .block (some (.unknownVariable "missing")), .closed none] ∧
      (Deed.emissions t.deeds.reverse).filterMap Deed.logged? =
        [([.literal (.str "kept")], { block := some { number := 1 } })] ∧
      t.outputs.place = some [] := ⟨_, rfl, rfl, rfl, rfl⟩
  have hcompletes : keptAndDropped.Completes 0 singleStart (.ok ()) t := by
    refine ⟨hrun, ?_⟩
    rw [hjournal]
    exact ⟨nofun, nofun, fun _ => rfl, nofun, nofun, fun _ => rfl, fun _ => rfl, trivial⟩
  have hsteady : singleStart.outputs.Steady t.journal := by
    rw [hjournal]
    exact Outputs.steady_of_unmoved (j := []) (fun _ => List.not_mem_nil) fun path => by simp
  obtain ⟨lines, hlines, htext, hiff, -⟩ :=
    log_of_run ⟨⟨_, _, _, rfl⟩, rfl⟩ rfl hcompletes hsteady hplace
  rw [hemitted] at hlines
  obtain ⟨line, _, ⟨values, hvalues, rfl⟩, hnil, rfl⟩ := List.forall₂_cons_left_iff.mp hlines
  cases List.forall₂_nil_left_iff.mp hnil
  cases hvalues
  exact ⟨t, hcompletes, htext, hiff.mpr (by decide)⟩

def brokenLine : Program :=
  ⟨[fixedLine "a\nb"]⟩

/-- One emission of a text with a line feed makes two lines. -/
theorem two_lines_of_brokenLine :
    ∃ t, brokenLine.Completes 0 singleStart (.ok ()) t ∧ singleStart.outputs.Steady t.journal ∧
      (Deed.emissions t.deeds.reverse).filterMap Deed.logged? = [([.literal (.str "a\nb")], {})] ∧
      t.outputs.disk.text? ["log.txt"] = some "a\nb\n" ∧
      LineLog.textLines "a\nb\n" = ["a", "b"] := by
  obtain ⟨t, hrun, hjournal, hemitted, htext⟩ : ∃ t,
      brokenLine.run? 0 singleStart = some (.ok (), t) ∧
      t.journal = [.staged (.line "a\nb"), .closed none] ∧
      (Deed.emissions t.deeds.reverse).filterMap Deed.logged? = [([.literal (.str "a\nb")], {})] ∧
      t.outputs.disk.text? ["log.txt"] = some "a\nb\n" := ⟨_, rfl, rfl, rfl, rfl⟩
  refine ⟨t, ⟨hrun, ?_⟩, ?_, hemitted, htext, rfl⟩
  · rw [hjournal]
    exact ⟨nofun, fun _ => rfl, trivial⟩
  · rw [hjournal]
    exact Outputs.steady_of_unmoved (j := []) (fun _ => List.not_mem_nil) fun path => by simp

end ChainQuery
