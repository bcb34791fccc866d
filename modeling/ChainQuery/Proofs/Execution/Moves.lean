import ChainQuery.Proofs.Execution.Laws

/-!
# The moves of a run

A run is a path of moves, each of which changes the state in one way. Between two moves the run goes
on, or a failure is on its way to the scope that handles it, or a failure that was handled ends the
run. The outputs follow the entries that the moves add to the journal.
-/

namespace ChainQuery

inductive Flight where
  | going
  /-- A failure is on its way to the scope that handles it. -/
  | flying (e : ExecutionError)
  /-- A failure was handled and ends the run. -/
  | ending (e : ExecutionError)

namespace Flight

def failure? : Flight → Option ExecutionError
  | going => none
  | flying e | ending e => some e

def isEnding : Flight → Bool
  | ending _ => true
  | _ => false

def handled (ends : Bool) (e : ExecutionError) : Flight :=
  if ends then ending e else going

end Flight

/-- The ways in which a run changes its state. -/
inductive Move : Flight → RunState → Flight → RunState → Prop where
  | began (i : Instruction) (s : RunState) : Move .going s .going (s.log (.began i s.toView))
  | asked (i : Inquiry) (s : RunState) : Move .going s .going (s.note i)
  | attached (chain : ChainSource) (s : RunState) :
      Move .going s .going { s with chain := some chain }
  | bound (bindings : List (String × Value)) (s : RunState) :
      Move .going s .going (s.setVariables bindings)
  | entered (e : Element) (s : RunState) : Move .going s .going (s.enter e)
  | staged {item : OutputItem} {s : RunState} {o : Outputs} : s.outputs.stage item = .ok o →
      Move .going s .going (s.perform (.staged item))
  | moved (path : String) (s : RunState) : Move .going s .going (s.perform (.moved path))
  | raised (e : ExecutionError) (s : RunState) : Move .going s (.flying e) (s.log (.raised e))
  | left (c : Cursor) (f : Flight) (s : RunState) : Move f s f (s.exit c f.failure?)
  | recorded {s : RunState} (context : String) (e : ExecutionError) : s.errors.aborting = false →
      Move (.flying e) s (.handled (s.errors.ends e) e) (s.handle context e)
  | passed {s : RunState} (context : String) (e : ExecutionError) : s.errors.aborting = true →
      Move (.ending e) s (.ending e) (s.handle context e)
  | closed {f : Flight} (s : RunState) : (∀ e, f ≠ .flying e) →
      Move f s f (s.perform (.closed f.failure?))

inductive Path : Flight → RunState → Flight → RunState → Prop where
  | refl (f : Flight) (s : RunState) : Path f s f s
  | step {f g h : Flight} {s t u : RunState} : Path f s g t → Move g t h u → Path f s h u

section Paths
variable {f g h : Flight} {s t u : RunState}

theorem Move.path (hmove : Move f s g t) : Path f s g t :=
  .step (.refl f s) hmove

theorem Path.trans (hst : Path f s g t) (htu : Path g t h u) : Path f s h u := by
  induction htu with
  | refl => exact hst
  | step _ hmove ih => exact .step (ih hst) hmove

theorem RunState.aborting_handle {s : RunState} (context : String) (e : ExecutionError)
    (hs : s.errors.aborting = false) : (s.handle context e).errors.aborting = s.errors.ends e := by
  show (s.errors.handle context e).2.aborting = _
  rw [ErrorRecord.handle, hs]
  cases s.errors.ends e <;> rfl

theorem ErrorRecord.handle_aborting {r : ErrorRecord} (context : String) (e : ExecutionError)
    (hr : r.aborting = true) : r.handle context e = (.error e, r) := by
  rw [ErrorRecord.handle, if_pos hr]

/-- The record of failures knows whether the run is ending. -/
theorem Move.aborting (hmove : Move f s g t) (hs : s.errors.aborting = f.isEnding) :
    t.errors.aborting = g.isEnding := by
  cases hmove with
  | entered e => cases e <;> exact hs
  | left c => cases c <;> exact hs
  | recorded context e hgoing =>
    rw [RunState.aborting_handle context e hgoing]
    cases s.errors.ends e <;> rfl
  | passed context e haborting =>
    show (s.errors.handle context e).2.aborting = true
    rw [ErrorRecord.handle_aborting context e haborting]
    exact haborting
  | _ => exact hs

theorem Path.aborting (hpath : Path f s g t) (hs : s.errors.aborting = f.isEnding) :
    t.errors.aborting = g.isEnding := by
  induction hpath with
  | refl => exact hs
  | step _ hmove ih => exact hmove.aborting (ih hs)

namespace RunState

/-- The journal has grown by some entries, and the outputs have followed them. -/
structure Replays (s : RunState) (j : Journal) (t : RunState) : Prop where
  journal : t.journal = s.journal ++ j
  outputs : t.outputs = s.outputs.replay j

theorem replays_nil (hjournal : t.journal = s.journal) (houtputs : t.outputs = s.outputs) :
    s.Replays [] t :=
  ⟨hjournal.trans (List.append_nil _).symm, houtputs⟩

theorem Replays.append {j k : Journal} (hj : s.Replays j t) (hk : t.Replays k u) :
    s.Replays (j ++ k) u where
  journal := by rw [hk.journal, hj.journal, List.append_assoc]
  outputs := by rw [hk.outputs, hj.outputs, Outputs.replay_append]

end RunState

/-- A move that touches the outputs is noted in the journal. -/
theorem Move.replays (hmove : Move f s g t) : ∃ j, s.Replays j t := by
  cases hmove with
  | entered e => exact ⟨[.entered e], by cases e <;> exact ⟨rfl, rfl⟩⟩
  | staged _ => exact ⟨[_], rfl, rfl⟩
  | moved path => exact ⟨[_], rfl, rfl⟩
  | left c => exact ⟨[.left c _], by cases c <;> exact ⟨rfl, rfl⟩⟩
  | closed => exact ⟨[_], rfl, rfl⟩
  | _ => exact ⟨[], RunState.replays_nil rfl rfl⟩

theorem Path.replays (hpath : Path f s g t) : ∃ j, s.Replays j t := by
  induction hpath with
  | refl => exact ⟨[], RunState.replays_nil rfl rfl⟩
  | step _ hmove ih =>
    obtain ⟨j, hj⟩ := ih
    obtain ⟨k, hk⟩ := hmove.replays
    exact ⟨j ++ k, hj.append hk⟩

end Paths

namespace Run

/-- A step that does not end the run yet is a path of moves, with its failure in flight at the end. -/
def Travels (x : Run α) : Prop :=
  ∀ s result t, s.errors.aborting = false → x.run s = some (result, t) →
    ∃ f, Path .going s f t ∧ f.failure? = failure? result

/-- The same for a step that handles all failures. -/
def Settles (x : Run α) : Prop :=
  ∀ s result t, s.errors.aborting = false → x.run s = some (result, t) →
    ∃ f, Path .going s f t ∧ f.failure? = failure? result ∧ ∀ e, f ≠ .flying e

theorem Settles.travels {x : Run α} (hx : Settles x) : Travels x := by
  intro s result t hs hrun
  obtain ⟨f, hpath, hf, -⟩ := hx s result t hs hrun
  exact ⟨f, hpath, hf⟩

theorem eq_going_of_failure? {f : Flight} (h : f.failure? = none) : f = .going := by
  cases f with
  | going => rfl
  | flying _ => cases h
  | ending _ => cases h

section Steps
variable {x : Run α} {k : α → Run β}

theorem travels_pure (a : α) : Travels (pure a) := by
  intro s result t _ hrun
  cases hrun
  exact ⟨.going, .refl _ _, rfl⟩

theorem travels_get : Travels (get : Run RunState) := by
  intro s result t _ hrun
  cases hrun
  exact ⟨.going, .refl _ _, rfl⟩

theorem travels_modify {g : RunState → RunState} (hg : ∀ s, Move .going s .going (g s)) :
    Travels (modify g) := by
  intro s result t _ hrun
  cases hrun
  exact ⟨.going, (hg s).path, rfl⟩

theorem travels_bind (hx : Travels x) (hk : ∀ a, Travels (k a)) : Travels (x >>= k) := by
  intro s result t hs hrun
  rw [run_bind] at hrun
  rcases hfirst : x.run s with _ | ⟨e | a, u⟩
  · rw [hfirst] at hrun
    cases hrun
  · rw [hfirst] at hrun
    cases hrun
    exact hx s _ _ hs hfirst
  · rw [hfirst] at hrun
    obtain ⟨f, hpath, hf⟩ := hx s _ _ hs hfirst
    obtain rfl := eq_going_of_failure? hf
    obtain ⟨g, hpath', hg⟩ := hk a u _ _ (hpath.aborting hs) hrun
    exact ⟨g, hpath.trans hpath', hg⟩

theorem travels_exhausted : Travels (exhausted : Run α) := by
  intro s result t _ hrun
  cases hrun

theorem travels_raise (e : ExecutionError) : Travels (raise e : Run α) := by
  intro s result t _ hrun
  cases hrun
  exact ⟨.flying e, (Move.raised e s).path, rfl⟩

theorem travels_note (i : Inquiry) : Travels (note i) := by
  intro s result t _ hrun
  cases hrun
  exact ⟨.going, (Move.asked i s).path, rfl⟩

/-- A failure that reaches the scope that handles it is over with that, or ends the run. -/
theorem path_report {context : String} {e : ExecutionError} {f : Flight} {s t u : RunState}
    {result : Except ExecutionError Unit} (hs : s.errors.aborting = false)
    (hpath : Path .going s f t) (hf : f.failure? = some e)
    (hrun : (report context e).run t = some (result, u)) :
    ∃ g, Path .going s g u ∧ g.failure? = failure? result ∧ ∀ e', g ≠ .flying e' := by
  have haborting := hpath.aborting hs
  cases hrun
  cases f with
  | going => cases hf
  | flying e' =>
    cases hf
    refine ⟨_, hpath.step (.recorded context e haborting), ?_, ?_⟩
    · rw [ErrorRecord.handle, haborting, Flight.handled]
      cases t.errors.ends e <;> rfl
    · intro e'
      rw [Flight.handled]
      cases t.errors.ends e <;> exact nofun
  | ending e' =>
    cases hf
    refine ⟨_, hpath.step (.passed context e haborting), ?_, nofun⟩
    rw [ErrorRecord.handle_aborting context e haborting]
    rfl

theorem settles_fail (context : String) (e : ExecutionError) : Settles (fail context e) := by
  intro s result t hs hrun
  exact path_report hs (Move.raised e s).path rfl hrun

theorem settles_guarded (context : String) {x : Run Unit} (hx : Travels x) :
    Settles (guarded context x) := by
  intro s result t hs hrun
  rw [guarded, run_bind, run_outcome] at hrun
  rcases hguarded : x.run s with _ | ⟨e | _, u⟩
  · rw [hguarded] at hrun
    cases hrun
  · rw [hguarded] at hrun
    obtain ⟨f, hpath, hf⟩ := hx s _ _ hs hguarded
    exact path_report hs hpath hf hrun
  · rw [hguarded] at hrun
    cases hrun
    obtain ⟨f, hpath, hf⟩ := hx s _ _ hs hguarded
    obtain rfl := eq_going_of_failure? hf
    exact ⟨.going, hpath, rfl, nofun⟩

theorem settles_pure (a : α) : Settles (pure a) := by
  intro s result t _ hrun
  cases hrun
  exact ⟨.going, .refl _ _, rfl, nofun⟩

theorem settles_bind (hx : Settles x) (hk : ∀ a, Settles (k a)) : Settles (x >>= k) := by
  intro s result t hs hrun
  rw [run_bind] at hrun
  rcases hfirst : x.run s with _ | ⟨e | a, u⟩
  · rw [hfirst] at hrun
    cases hrun
  · rw [hfirst] at hrun
    cases hrun
    exact hx s _ _ hs hfirst
  · rw [hfirst] at hrun
    obtain ⟨f, hpath, hf, -⟩ := hx s _ _ hs hfirst
    obtain rfl := eq_going_of_failure? hf
    obtain ⟨g, hpath', hg⟩ := hk a u _ _ (hpath.aborting hs) hrun
    exact ⟨g, hpath.trans hpath', hg⟩

end Steps

theorem path_exit (e : Element) {s t : RunState} {f : Flight}
    (hpath : Path .going (s.enter e) f t) : Path .going s f (t.exit e.cursor f.failure?) :=
  ((Move.entered e s).path.trans hpath).step (.left _ f t)

theorem travels_visiting {body : Run Unit} (hbody : Travels body) (e : Element)
    (he : e.cursor ≠ .block) : Travels (do resume (← visiting e body)) := by
  intro s result t hs hrun
  rw [run_bind, run_visiting] at hrun
  rcases hrun' : body.run (s.enter e) with _ | ⟨result', u⟩
  · rw [hrun'] at hrun
    cases hrun
  · rw [hrun'] at hrun
    cases hrun
    have hs' : (s.enter e).errors.aborting = false := by cases e <;> exact hs
    obtain ⟨f, hpath, hf⟩ := hbody _ _ _ hs' hrun'
    refine ⟨f, ?_, hf⟩
    rw [← hf]
    cases e with
    | block b => exact absurd rfl he
    | transaction t => exact path_exit (.transaction t) hpath
    | logEntry l => exact path_exit (.logEntry l) hpath

end Run

theorem Scan.settles_visit {body : Run Unit} (hbody : Run.Travels body) (b : Block) :
    Run.Settles (Scan.visit body b) := by
  intro s result t hs hrun
  rw [Scan.run_visit] at hrun
  rcases hrun' : body.run (s.enter (.block b)) with _ | ⟨e | _, u⟩
  · rw [hrun'] at hrun
    cases hrun
  · rw [hrun'] at hrun
    obtain ⟨f, hpath, hf⟩ := hbody (s.enter (.block b)) _ _ hs hrun'
    have hexit := Run.path_exit (.block b) hpath
    rw [hf] at hexit
    exact Run.path_report hs hexit hf hrun
  · rw [hrun'] at hrun
    obtain ⟨f, hpath, hf⟩ := hbody (s.enter (.block b)) _ _ hs hrun'
    obtain rfl := Run.eq_going_of_failure? hf
    have hexit : Path .going s .going (u.exit .block none) := Run.path_exit (.block b) hpath
    rcases hend : u.outputs.endBlock.2 with _ | e
    · simp only [hend] at hrun
      cases hrun
      exact ⟨.going, hexit, rfl, nofun⟩
    · simp only [hend] at hrun
      obtain ⟨g, hpath', hg⟩ := Run.settles_fail _ _ _ _ _ (hexit.aborting hs) hrun
      exact ⟨g, hexit.trans hpath', hg⟩

end ChainQuery
