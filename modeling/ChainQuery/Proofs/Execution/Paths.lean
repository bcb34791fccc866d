import ChainQuery.Proofs.Execution.Fragments
import ChainQuery.Proofs.Execution.Moves

/-!
# Every run is a path of moves

The steps of scans and filters, of instructions and of whole programs are paths of moves, and a failure
that reaches the top of a program is handled there.
-/

namespace ChainQuery

/-- A failure that is caught can be handled. -/
theorem Run.travels_catch {x : Run α} {k : Except ExecutionError α → Run Unit} {context : String}
    (hx : Run.Travels x) (hok : ∀ a, Run.Travels (k (.ok a)))
    (herror : ∀ e, k (.error e) = Run.report context e) : Run.Travels (Run.outcome x >>= k) := by
  intro s result t hs hrun
  rw [Run.run_bind, Run.run_outcome] at hrun
  rcases hcaught : x.run s with _ | ⟨e | a, u⟩
  · rw [hcaught] at hrun
    cases hrun
  · rw [hcaught] at hrun
    simp only [Option.map_some, herror] at hrun
    obtain ⟨f, hpath, hf⟩ := hx s _ _ hs hcaught
    obtain ⟨g, hpath', hg, -⟩ := Run.path_report hs hpath hf hrun
    exact ⟨g, hpath', hg⟩
  · rw [hcaught] at hrun
    obtain ⟨f, hpath, hf⟩ := hx s _ _ hs hcaught
    obtain rfl := Run.eq_going_of_failure? hf
    obtain ⟨g, hpath', hg⟩ := hok a u _ _ (hpath.aborting hs) hrun
    exact ⟨g, hpath.trans hpath', hg⟩

theorem Statement.travels_setFolder (path : String) :
    Run.Travels (Statement.setFolder path) := by
  intro s result t _ hrun
  rw [Statement.run_setFolder] at hrun
  rcases hmake : (s.outputs.disk.makeFolders path).2 with _ | e
  · rw [hmake] at hrun
    cases hrun
    exact ⟨.going, (Move.moved path s).path, rfl⟩
  · rw [hmake] at hrun
    cases hrun
    exact ⟨_, (Move.moved path s).path.step (.raised _ _), rfl⟩

theorem Emission.travels_stage (item : OutputItem) : Run.Travels (stage item) := by
  intro s result t hs hrun
  rw [Emission.run_stage] at hrun
  rcases hstage : s.outputs.stage item with e | o
  · rw [hstage] at hrun
    exact Run.travels_raise _ _ _ _ hs hrun
  · rw [hstage] at hrun
    cases hrun
    exact ⟨.going, (Move.staged hstage).path, rfl⟩

theorem travels_beginning (i : Instruction) : Run.Travels (Run.beginning i) := by
  intro s result t _ hrun
  cases hrun
  exact ⟨.going, (Move.began i s).path, rfl⟩

theorem hereditary_travels : Run.Hereditary fun _ => Run.Travels where
  pure := Run.travels_pure
  exhausted := Run.travels_exhausted
  raise := Run.travels_raise
  fail context e := (Run.settles_fail context e).travels
  look _ hf := Run.travels_bind Run.travels_get hf
  bind := Run.travels_bind
  catches := Run.travels_catch
  beginning := travels_beginning
  note := Run.travels_note
  bound bindings := Run.travels_modify (.bound bindings)
  attached chain := Run.travels_modify (.attached chain)
  staged := Emission.travels_stage
  moved := Statement.travels_setFolder
  visitBlock b hbody := (Scan.settles_visit hbody b).travels
  visit e he hbody := Run.travels_visiting hbody e he

theorem Program.settles_executeEach (looks : Nat) (is : List Instruction) :
    Run.Settles (Program.executeEach looks is) := by
  induction is with
  | nil => exact Run.settles_pure _
  | cons i is ih =>
    refine Run.settles_bind (Run.settles_guarded _ ?_) fun _ => ih
    exact hereditary_travels.bind (hereditary_travels.beginning i) fun _ =>
      hereditary_travels.execute looks i

/-- How the outputs are closed when the instructions of a program are over. -/
theorem Program.run_cases {looks : Nat} {p : Program} {s t : RunState}
    {result : Except ExecutionError Unit} (h : p.run? looks s = some (result, t)) :
    (∃ u, (Program.executeEach looks p.instructions).run s = some (.ok (), u) ∧
      ((u.outputs.endProgram.2 = none ∧ result = .ok () ∧ t = u.perform (.closed none)) ∨
      ∃ w, u.outputs.endProgram.2 = some w ∧ result = .error (.writer w) ∧
        t = (u.perform (.closed none)).log (.raised (.writer w)))) ∨
    ∃ u fatal, (Program.executeEach looks p.instructions).run s = some (.error fatal, u) ∧
      result = .error fatal ∧ t = u.perform (.closed (some fatal)) := by
  rw [Program.run?, run_closed] at h
  rcases hrun : (Program.executeEach looks p.instructions).run s with _ | ⟨fatal | _, u⟩
  · rw [hrun] at h
    cases h
  · rw [hrun] at h
    cases h
    exact .inr ⟨u, fatal, rfl, rfl, rfl⟩
  · refine .inl ⟨u, rfl, ?_⟩
    rw [hrun] at h
    cases hfailure : u.outputs.endProgram.2 with
    | none =>
      simp only [hfailure] at h
      cases h
      exact .inl ⟨rfl, rfl, rfl⟩
    | some w =>
      simp only [hfailure] at h
      cases h
      exact .inr ⟨w, rfl, rfl, rfl⟩

theorem Program.travels_run {looks : Nat} {p : Program} {s t : RunState}
    {result : Except ExecutionError Unit} (hs : s.errors.aborting = false)
    (h : p.run? looks s = some (result, t)) :
    ∃ f, Path .going s f t ∧ f.failure? = Run.failure? result := by
  rcases Program.run_cases h with ⟨u, hrun, ⟨-, rfl, rfl⟩ | ⟨w, -, rfl, rfl⟩⟩ | ⟨u, fatal, hrun, rfl, rfl⟩
  · obtain ⟨f, hpath, hf, -⟩ := Program.settles_executeEach looks _ s _ _ hs hrun
    obtain rfl := Run.eq_going_of_failure? hf
    exact ⟨.going, hpath.step (.closed u nofun), rfl⟩
  · obtain ⟨f, hpath, hf, -⟩ := Program.settles_executeEach looks _ s _ _ hs hrun
    obtain rfl := Run.eq_going_of_failure? hf
    exact ⟨_, (hpath.step (.closed u nofun)).step (.raised _ _), rfl⟩
  · obtain ⟨f, hpath, hf, hsettled⟩ := Program.settles_executeEach looks _ s _ _ hs hrun
    have hclosed := hpath.step (.closed u hsettled)
    rw [hf] at hclosed
    exact ⟨f, hclosed, hf⟩

end ChainQuery
