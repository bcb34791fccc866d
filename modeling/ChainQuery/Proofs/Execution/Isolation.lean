import ChainQuery.Proofs.Execution.Arrivals
import ChainQuery.Proofs.Execution.Cuts
import ChainQuery.Proofs.Execution.Modes
import ChainQuery.Proofs.Execution.Paths
import ChainQuery.Proofs.Output.Refusals

/-!
# Runs in which different writes fail

No instruction looks at what was written, and a run that goes on after failures goes on after a write
that fails. Hence two runs that differ in the writes that fail have the same journal, and each output
that fails alike in both has the same contents in the end.
-/

namespace ChainQuery

/-- How a failure is handled depends on the settings and on whether the run is ending only. -/
theorem ErrorRecord.handle_alike {r r' : ErrorRecord} (hsettings : r'.abortOnError = r.abortOnError)
    (haborting : r'.aborting = r.aborting) (context : String) (e : ExecutionError) :
    (r'.handle context e).1 = (r.handle context e).1 ∧
      (r'.handle context e).2.aborting = (r.handle context e).2.aborting ∧
      (r.handle context e).2.abortOnError = r.abortOnError := by
  unfold handle ends
  rw [hsettings, haborting]
  cases r.aborting with
  | true => exact ⟨rfl, haborting, rfl⟩
  | false =>
    cases e.isFatal || r.abortOnError with
    | true => exact ⟨rfl, rfl, rfl⟩
    | false => exact ⟨rfl, rfl, rfl⟩

/-- A failure that does not end the run is over with its record. -/
theorem ErrorRecord.handle_of_not_ends {r : ErrorRecord} {e : ExecutionError} (context : String)
    (haborting : r.aborting = false) (hends : r.ends e = false) :
    (r.handle context e).1 = .ok () ∧ (r.handle context e).2.aborting = false := by
  unfold handle
  rw [haborting, hends]
  exact ⟨rfl, rfl⟩

/-- The same state with other outputs, in a run in which other failures were handled. -/
def RunState.differing (s : RunState) (o : Outputs) (r : ErrorRecord) (d : List Deed) : RunState :=
  { s with outputs := o, errors := r, deeds := d }

theorem Scan.run_ended_going (b : Block) (failure : Option WriterError) {s : RunState}
    (hlenient : s.errors.abortOnError = false) (hgoing : s.errors.aborting = false) :
    ∃ r d, (ended b (.ok ()) failure).run s = some (.ok (), s.differing s.outputs r d) ∧
      r.abortOnError = false ∧ r.aborting = false := by
  cases failure with
  | none => exact ⟨s.errors, s.deeds, rfl, hlenient, hgoing⟩
  | some w =>
    obtain ⟨hresult, hgoing'⟩ := ErrorRecord.handle_of_not_ends (e := .writer w)
      (context b.number) hgoing hlenient
    obtain ⟨-, -, hsettings⟩ :=
      ErrorRecord.handle_alike (r := s.errors) rfl rfl (context b.number) (.writer w)
    refine ⟨(s.errors.handle (context b.number) (.writer w)).2,
      ((s.log (.raised (.writer w))).handle (context b.number) (.writer w)).deeds, ?_,
      hsettings.trans hlenient, hgoing'⟩
    show some ((s.errors.handle (context b.number) (.writer w)).1, _) = _
    rw [hresult]
    rfl

/-- A state `s` of a run beside a state `s'` of another one, both of which go on after failures. Their
outputs have followed the same journal, from `o` and from `o'`. -/
structure RunState.Beside (o o' : Outputs) (s s' : RunState) : Prop where
  same : s' = s.differing s'.outputs s'.errors s'.deeds
  outputs : s.outputs = o.replay s.journal
  outputs' : s'.outputs = o'.replay s.journal
  lenient : s.errors.abortOnError = false
  lenient' : s'.errors.abortOnError = false
  aborting : s'.errors.aborting = s.errors.aborting

namespace RunState.Beside

variable {o o' : Outputs} {s s' : RunState} (h : s.Beside o o' s')
include h

theorem exists_eq : ∃ r d, s' = s.differing (o'.replay s.journal) r d ∧ r.abortOnError = false ∧
    r.aborting = s.errors.aborting := by
  refine ⟨s'.errors, s'.deeds, ?_, h.lenient', h.aborting⟩
  rw [← h.outputs']
  exact h.same

theorem perform (e : JournalEntry) : (s.perform e).Beside o o' (s'.perform e) := by
  obtain ⟨r, d, rfl, hlenient', haborting⟩ := h.exists_eq
  refine ⟨rfl, ?_, ?_, h.lenient, hlenient', haborting⟩
  · show (s.outputs.follow e).1 = o.replay (s.journal ++ [e])
    rw [h.outputs, Outputs.replay_concat]
  · exact (o'.replay_concat s.journal e).symm

theorem deeds (d d' : List Deed) :
    (s.differing s.outputs s.errors d).Beside o o' (s'.differing s'.outputs s'.errors d') := by
  obtain ⟨r, d₀, rfl, hlenient', haborting⟩ := h.exists_eq
  exact ⟨rfl, h.outputs, rfl, h.lenient, hlenient', haborting⟩

theorem enter (e : Element) : (s.enter e).Beside o o' (s'.enter e) := by
  have hperform := h.perform (.entered e)
  obtain ⟨r, d, rfl, -⟩ := h.exists_eq
  cases e <;> exact ⟨rfl, hperform.outputs, hperform.outputs', hperform.lenient, hperform.lenient',
    hperform.aborting⟩

theorem exit (c : Cursor) (failure : Option ExecutionError) :
    (s.exit c failure).Beside o o' (s'.exit c failure) := by
  have hperform := h.perform (.left c failure)
  obtain ⟨r, d, rfl, -⟩ := h.exists_eq
  cases c <;> exact ⟨rfl, hperform.outputs, hperform.outputs', hperform.lenient, hperform.lenient',
    hperform.aborting⟩

theorem report (context : String) (e : ExecutionError) :
    ∃ result t t', (Run.report context e).run s = some (result, t) ∧
      (Run.report context e).run s' = some (result, t') ∧ t.Beside o o' t' := by
  obtain ⟨r, d, rfl, hlenient', haborting⟩ := h.exists_eq
  obtain ⟨hresult, hended, hsettings⟩ :=
    ErrorRecord.handle_alike (hlenient'.trans h.lenient.symm) haborting context e
  obtain ⟨-, -, hsettings'⟩ := ErrorRecord.handle_alike rfl rfl context e (r := r)
  refine ⟨_, _, (s.differing (o'.replay s.journal) r d).handle context e, rfl, ?_, ?_⟩
  · show some ((r.handle context e).1, _) = some ((s.errors.handle context e).1, _)
    rw [hresult]
  · exact ⟨rfl, h.outputs, rfl, hsettings.trans h.lenient, hsettings'.trans hlenient', hended⟩

/-- At the end of a visit a failure of the body is handled alike, and one of the writers is over with its
record, in whichever of the runs it happens. -/
theorem ended {result : Except ExecutionError Unit} (hgoing : ∀ a, result = .ok a → s.errors.aborting = false)
    (b : Block) (failure failure' : Option WriterError) :
    ∃ result' t t', (Scan.ended b result failure).run s = some (result', t) ∧
      (Scan.ended b result failure').run s' = some (result', t') ∧ t.Beside o o' t' := by
  cases result with
  | error e => exact h.report _ e
  | ok a =>
    obtain ⟨r, d, hrun, hlenient, haborting⟩ := Scan.run_ended_going b failure h.lenient (hgoing a rfl)
    obtain ⟨r', d', hrun', hlenient', haborting'⟩ :=
      Scan.run_ended_going b failure' h.lenient' (h.aborting.trans (hgoing a rfl))
    refine ⟨_, _, _, hrun, hrun', ?_⟩
    obtain ⟨r, d, rfl, -⟩ := h.exists_eq
    exact ⟨rfl, h.outputs, rfl, hlenient, hlenient', haborting'.trans haborting.symm⟩

end RunState.Beside

namespace Run

theorem Travels.going {x : Run α} (hx : Travels x) {s t : RunState} {a : α}
    (hs : s.errors.aborting = false) (hrun : x.run s = some (.ok a, t)) :
    t.errors.aborting = false := by
  obtain ⟨f, hpath, hf⟩ := hx s _ _ hs hrun
  obtain rfl := eq_going_of_failure? hf
  exact hpath.aborting hs

/-- Along a journal a step ends in the same way in both runs. -/
structure Isolated (o o' : Outputs) (journal : Journal) (x : Run α) : Prop where
  travels : Travels x
  grows : Keeps RunState.Extends x
  follows : ∀ {s s' t : RunState} {result}, s.Beside o o' s' → s.errors.aborting = false →
    x.run s = some (result, t) → t.journal <+: journal →
      ∃ t', x.run s' = some (result, t') ∧ t.Beside o o' t'

section Rules
variable {o o' : Outputs} {journal : Journal}

theorem isolated_step {x : Run α} (htravels : Travels x) {result : RunState → Except ExecutionError α}
    {next : RunState → RunState} (hx : ∀ s, x.run s = some (result s, next s))
    (hkeeps : ∀ s, (next s).outputs = s.outputs ∧ (next s).errors = s.errors ∧
      (next s).journal = s.journal)
    (hother : ∀ (s : RunState) o r d, ∃ d',
      x.run (s.differing o r d) = some (result s, (next s).differing o r d')) :
    Isolated o o' journal x where
  travels := htravels
  grows := by
    intro s result' t hrun
    rw [hx] at hrun
    cases hrun
    exact ⟨[], (List.append_nil _).trans (hkeeps s).2.2.symm⟩
  follows := by
    intro s s' t result' h hgoing hrun _
    rw [hx] at hrun
    cases hrun
    obtain ⟨houtputs, herrors, hjournal⟩ := hkeeps s
    obtain ⟨r, d, rfl, hlenient', haborting⟩ := h.exists_eq
    obtain ⟨d', hrun'⟩ := hother s (o'.replay s.journal) r d
    refine ⟨_, hrun', rfl, ?_, ?_, ?_, hlenient', ?_⟩
    · rw [houtputs, hjournal]
      exact h.outputs
    · rw [hjournal]
      rfl
    · rw [herrors]
      exact h.lenient
    · rw [herrors]
      exact haborting

theorem isolated_exhausted : Isolated o o' journal (exhausted : Run α) where
  travels := travels_exhausted
  grows := keeps_exhausted
  follows := by
    intro s s' t result h hgoing hrun
    cases hrun

theorem isolated_pure (a : α) : Isolated o o' journal (pure a) :=
  isolated_step (travels_pure a) (fun _ => rfl) (fun _ => ⟨rfl, rfl, rfl⟩) fun _ _ _ _ => ⟨_, rfl⟩

theorem isolated_raise (e : ExecutionError) : Isolated o o' journal (raise e : Run α) :=
  isolated_step (travels_raise e) (fun _ => rfl) (fun _ => ⟨rfl, rfl, rfl⟩) fun _ _ _ _ => ⟨_, rfl⟩

theorem isolated_bind {x : Run α} {f : α → Run β} (hx : Isolated o o' journal x)
    (hf : ∀ a, Isolated o o' journal (f a)) : Isolated o o' journal (x >>= f) where
  travels := travels_bind hx.travels fun a => (hf a).travels
  grows := keeps_bind chains_extends hx.grows fun a => (hf a).grows
  follows := by
    intro s s' t result h hgoing hrun hjournal
    rw [run_bind] at hrun
    rcases hfirst : x.run s with _ | ⟨e | a, u⟩
    · rw [hfirst] at hrun
      cases hrun
    · rw [hfirst] at hrun
      cases hrun
      obtain ⟨u', hfirst', hu⟩ := hx.follows h hgoing hfirst hjournal
      exact ⟨u', by rw [run_bind, hfirst'], hu⟩
    · rw [hfirst] at hrun
      obtain ⟨u', hfirst', hu⟩ :=
        hx.follows h hgoing hfirst (((hf a).grows _ _ _ hrun).trans hjournal)
      obtain ⟨t', hrun', ht⟩ := (hf a).follows hu (hx.travels.going hgoing hfirst) hrun hjournal
      refine ⟨t', ?_, ht⟩
      rw [run_bind, hfirst']
      exact hrun'

theorem isolated_look {f : RunState → Run α} (hblind : ∀ (s : RunState) o r d, f (s.differing o r d) = f s)
    (hf : ∀ s, Isolated o o' journal (f s)) : Isolated o o' journal (get >>= f) where
  travels := travels_bind travels_get fun s => (hf s).travels
  grows := keeps_bind chains_extends (keeps_get chains_extends) fun s => (hf s).grows
  follows := by
    intro s s' t result h hgoing hrun hjournal
    obtain ⟨t', hrun', ht⟩ := (hf s).follows h hgoing hrun hjournal
    refine ⟨t', ?_, ht⟩
    rw [run_get_bind, h.same, hblind, ← h.same]
    exact hrun'

theorem isolated_inView (read : View → Except ExecutionError α) :
    Isolated o o' journal (inView read) := by
  refine isolated_look (fun _ _ _ _ => rfl) fun s => ?_
  cases read s.toView with
  | ok a => exact isolated_pure a
  | error e => exact isolated_raise e

theorem isolated_catches {x : Run α} {f : Except ExecutionError α → Run Unit} {context : String}
    (hx : Isolated o o' journal x) (hf : ∀ a, Isolated o o' journal (f (.ok a)))
    (herror : ∀ e, f (.error e) = report context e) : Isolated o o' journal (outcome x >>= f) where
  travels := travels_catch hx.travels (fun a => (hf a).travels) herror
  grows := by
    refine keeps_bind chains_extends (keeps_outcome hx.grows) fun result => ?_
    cases result with
    | ok a => exact (hf a).grows
    | error e =>
      rw [herror]
      exact keeps_report chains_extends context e
  follows := by
    intro s s' t result h hgoing hrun hjournal
    rw [run_outcome_bind] at hrun
    rcases hcaught : x.run s with _ | ⟨e | a, u⟩
    · rw [hcaught] at hrun
      cases hrun
    · rw [hcaught] at hrun
      dsimp only at hrun
      rw [herror] at hrun
      have hextends := keeps_report chains_extends context e _ _ _ hrun
      obtain ⟨u', hcaught', hu⟩ := hx.follows h hgoing hcaught (hextends.trans hjournal)
      obtain ⟨result', v, v', hreport, hreport', hv⟩ := hu.report context e
      cases hrun.symm.trans hreport
      refine ⟨v', ?_, hv⟩
      rw [run_outcome_bind, hcaught']
      dsimp only
      rw [herror, hreport']
    · rw [hcaught] at hrun
      obtain ⟨u', hcaught', hu⟩ :=
        hx.follows h hgoing hcaught (((hf a).grows _ _ _ hrun).trans hjournal)
      obtain ⟨t', hrun', ht⟩ := (hf a).follows hu (hx.travels.going hgoing hcaught) hrun hjournal
      refine ⟨t', ?_, ht⟩
      rw [run_outcome_bind, hcaught']
      exact hrun'

theorem isolated_fail (context : String) (e : ExecutionError) :
    Isolated o o' journal (fail context e) where
  travels := (settles_fail context e).travels
  grows := keeps_fail chains_extends context e
  follows := by
    intro s s' t result h _ hrun _
    have hraised : (s.log (.raised e)).Beside o o' (s'.log (.raised e)) := by
      obtain ⟨r, d, rfl, hlenient', haborting⟩ := h.exists_eq
      exact ⟨rfl, h.outputs, rfl, h.lenient, hlenient', haborting⟩
    obtain ⟨result', u, u', hreport, hreport', hu⟩ := hraised.report context e
    cases hrun.symm.trans hreport
    exact ⟨u', hreport', hu⟩

/-- Which items are refused depends on the columns of the tables only. -/
theorem isolated_stage (hheaders : o'.tables.headers = o.tables.headers) (item : OutputItem) :
    Isolated o o' journal (Emission.stage item) where
  travels := Emission.travels_stage item
  grows := Emission.keeps_stage ((laws_extends .block).leaves 0) item
  follows := by
    intro s s' t result h hgoing hrun hjournal
    have hsame := Outputs.headers_replay hheaders s.journal
    rw [← h.outputs, ← h.outputs'] at hsame
    rw [Emission.run_stage] at hrun
    rw [Emission.run_stage]
    rcases hstage : s.outputs.stage item with e | p
    · rw [hstage] at hrun
      rw [Outputs.stage_error_of_headers hsame hstage]
      exact (isolated_raise _).follows h hgoing hrun hjournal
    · rw [hstage] at hrun
      cases hrun
      rcases hstage' : s'.outputs.stage item with e | p'
      · rw [Outputs.stage_error_of_headers hsame.symm hstage'] at hstage
        cases hstage
      · exact ⟨_, rfl, h.perform _⟩

theorem isolated_setFolder (hmoved : ∀ k path, k ++ [.moved path] <+: journal →
      ((o'.replay k).disk.makeFolders path).2 = ((o.replay k).disk.makeFolders path).2)
    (path : String) : Isolated o o' journal (Statement.setFolder path) where
  travels := Statement.travels_setFolder path
  grows := Statement.keeps_setFolder ((laws_extends .block).leaves 0) path
  follows := by
    intro s s' t result h hgoing hrun hjournal
    have hperform := h.perform (.moved path)
    have hsame : s.journal ++ [.moved path] <+: t.journal →
        (s'.outputs.disk.makeFolders path).2 = (s.outputs.disk.makeFolders path).2 := by
      intro hextends
      rw [h.outputs, h.outputs']
      exact hmoved _ _ (hextends.trans hjournal)
    rw [Statement.run_setFolder] at hrun
    rw [Statement.run_setFolder]
    cases hmade : (s.outputs.disk.makeFolders path).2 with
    | none =>
      rw [hmade] at hrun
      cases hrun
      rw [hsame List.prefix_rfl, hmade]
      exact ⟨_, rfl, hperform⟩
    | some e =>
      rw [hmade] at hrun
      rw [hsame (keeps_raise chains_extends _ _ _ _ hrun), hmade]
      exact (isolated_raise _).follows hperform hgoing hrun hjournal

section Visits
variable {body : Run Unit} (hbody : Isolated o o' journal body)
include hbody

theorem isolated_visit (e : Element) (he : e.cursor ≠ .block) :
    Isolated o o' journal (do resume (← visiting e body)) where
  travels := travels_visiting hbody.travels e he
  grows := keeps_visiting hbody.grows e he fun _ _ _ h => RunState.extends_exit h
  follows := by
    intro s s' t result h hgoing hrun hjournal
    rw [run_resume_visiting e he] at hrun
    obtain ⟨⟨result, u⟩, hbodyRun, heq⟩ := Option.map_eq_some_iff.mp hrun
    cases heq
    have hentered : (s.enter e).errors.aborting = false := by
      cases e <;> exact hgoing
    have hextends : u.Extends (u.exit e.cursor (failure? result)) := by
      cases e <;> exact List.prefix_append _ _
    obtain ⟨u', hbodyRun', hu⟩ :=
      hbody.follows (h.enter e) hentered hbodyRun (hextends.trans hjournal)
    refine ⟨_, ?_, hu.exit e.cursor (failure? result)⟩
    rw [run_resume_visiting e he, hbodyRun']
    rfl

/-- A write that fails at the end of a block is recorded, and the run goes on. -/
theorem isolated_visitBlock (b : Block) : Isolated o o' journal (Scan.visit body b) where
  travels := (Scan.settles_visit hbody.travels b).travels
  grows := Scan.keeps_visit chains_extends hbody.grows b fun _ _ _ h => RunState.extends_exit h
  follows := by
    intro s s' t result h hgoing hrun hjournal
    rw [Scan.run_visit_ended] at hrun
    rw [Scan.run_visit_ended]
    rcases hbodyRun : body.run (s.enter (.block b)) with _ | ⟨bodyResult, u⟩
    · rw [hbodyRun] at hrun
      cases hrun
    · rw [hbodyRun] at hrun
      have hextends : u.Extends t := (List.prefix_append _ _).trans
        (Scan.keeps_ended chains_extends b _ _ _ _ _ hrun)
      obtain ⟨u', hbodyRun', hu⟩ :=
        hbody.follows (h.enter (.block b)) hgoing hbodyRun (hextends.trans hjournal)
      have hexit : ∀ a, bodyResult = .ok a →
          (u.exit .block (failure? bodyResult)).errors.aborting = false := by
        rintro a rfl
        exact (hbody.travels.going (s := s.enter (.block b)) hgoing hbodyRun :)
      obtain ⟨result', v, v', hended, hended', hv⟩ := (hu.exit .block (failure? bodyResult)).ended hexit b
        (u.outputs.follow (.left .block (failure? bodyResult))).2
        (u'.outputs.follow (.left .block (failure? bodyResult))).2
      cases hrun.symm.trans hended
      rw [hbodyRun']
      exact ⟨v', hended', hv⟩

end Visits

/-- Every instruction is isolated, if in both runs the tables have the same columns at the start and
the same folders are made. -/
theorem inherits_isolated (hheaders : o'.tables.headers = o.tables.headers)
    (hmoved : ∀ k path, k ++ [.moved path] <+: journal →
      ((o'.replay k).disk.makeFolders path).2 = ((o.replay k).disk.makeFolders path).2) :
    Inherits .all fun _ => Isolated o o' journal where
  pure := isolated_pure
  raise := isolated_raise
  fail := isolated_fail
  view _ := isolated_inView _
  look hblind hf := isolated_look (fun s o r d => hblind s s.transaction o r s.journal d) hf
  bind := isolated_bind
  catches := isolated_catches
  beginning i := isolated_step (travels_beginning i) (fun _ => rfl) (fun _ => ⟨rfl, rfl, rfl⟩)
    fun _ _ _ _ => ⟨_, rfl⟩
  note i := isolated_step (travels_note i) (fun _ => rfl) (fun _ => ⟨rfl, rfl, rfl⟩)
    fun _ _ _ _ => ⟨_, rfl⟩
  bound bindings := isolated_step (hereditary_travels.bound bindings) (fun _ => rfl)
    (fun _ => ⟨rfl, rfl, rfl⟩) fun _ _ _ _ => ⟨_, rfl⟩
  attached chain := isolated_step (hereditary_travels.attached chain) (fun _ => rfl)
    (fun _ => ⟨rfl, rfl, rfl⟩) fun _ _ _ _ => ⟨_, rfl⟩
  staged := isolated_stage hheaders
  moved := isolated_setFolder hmoved
  exhausted _ _ := isolated_exhausted
  visitBlock b _ hbody := isolated_visitBlock hbody b
  visitTransaction t _ hbody := isolated_visit hbody (.transaction t) t.cursor_ne_block
  candidates _ := isolated_inView _
  visitLogEntry l _ hbody := isolated_visit hbody (.logEntry l) l.cursor_ne_block

end Rules
end Run

/-- What the closing of the outputs leaves undone does not change the journal, and throws failures of
the writers only. -/
theorem Program.run_ended_ok (failure : Option WriterError) (s : RunState) :
    ∃ result d, (ended (.ok ()) failure).run s = some (result, s.differing s.outputs s.errors d) ∧
      ∀ e, result = .error e → ∃ w, e = .writer w := by
  cases failure with
  | none => exact ⟨_, _, rfl, nofun⟩
  | some w =>
    refine ⟨_, _, rfl, fun e he => ?_⟩
    cases he
    exact ⟨w, rfl⟩

/-- A run of a program beside another one: it comes to an end, and a failure that is not one of the
writers ends both. -/
theorem Program.beside_run {looks : Nat} {p : Program} {o o' : Outputs} {s s' t : RunState}
    {result : Except ExecutionError Unit} (h : s.Beside o o' s') (hgoing : s.errors.aborting = false)
    (hrun : p.run? looks s = some (result, t)) (hheaders : o'.tables.headers = o.tables.headers)
    (hmoved : ∀ k path, k ++ [.moved path] <+: t.journal →
      ((o'.replay k).disk.makeFolders path).2 = ((o.replay k).disk.makeFolders path).2) :
    ∃ result' t', p.run? looks s' = some (result', t') ∧ t.Beside o o' t' ∧
      ∀ e, (∀ w, e ≠ .writer w) → (result' = .error e ↔ result = .error e) := by
  have heach := (Run.inherits_isolated hheaders hmoved).executeEach looks
    (Instruction.withinAll_all p.instructions)
  rw [run?, run_execute_ended] at hrun
  rw [run?, run_execute_ended]
  rcases hinstructions : (executeEach looks p.instructions).run s with _ | ⟨ended, u⟩
  · rw [hinstructions] at hrun
    cases hrun
  · rw [hinstructions] at hrun
    dsimp only at hrun
    cases ended with
    | error fatal =>
      cases hrun
      obtain ⟨u', hinstructions', hu⟩ := heach.follows h hgoing hinstructions (List.prefix_append _ _)
      rw [hinstructions']
      exact ⟨_, _, rfl, hu.perform _, fun _ _ => .rfl⟩
    | ok _ =>
      -- the closing may fail in one of the runs only, and leaves nothing else to do
      obtain ⟨result₁, d, hended, hfirst⟩ := run_ended_ok (u.outputs.follow (.closed none)).2
        (u.perform (.closed none))
      cases hrun.symm.trans hended
      obtain ⟨u', hinstructions', hu⟩ := heach.follows h hgoing hinstructions (List.prefix_append _ _)
      obtain ⟨result', d', hended', hsecond⟩ := run_ended_ok (u'.outputs.follow (.closed none)).2
        (u'.perform (.closed none))
      rw [hinstructions']
      refine ⟨_, _, hended', (hu.perform (.closed none)).deeds d d', fun e he => ?_⟩
      refine iff_of_false (fun hresult' => ?_) fun hresult => ?_
      · obtain ⟨w, rfl⟩ := hsecond e hresult'
        exact he w rfl
      · obtain ⟨w, rfl⟩ := hfirst e hresult
        exact he w rfl

/-- Of two runs that go on after failures, and that differ in the writes that fail, one comes to an end
if the other one does. They leave the same journal, so the same blocks are visited; they post the same
requests and give up the same ones; and a file whose writes fail alike has the same text in both. The
output folder must stay where it is once a file is written. -/
theorem refused_writes_isolated (looks : Nat) (p : Program) (s t : RunState) (q : Disk.Refusal)
    (result : Except ExecutionError Unit) (hfresh : s.Fresh)
    (hlenient : s.errors.abortOnError = false) (hgoing : s.errors.aborting = false)
    (hrun : p.run? looks s = some (result, t)) (hkeeps : s.outputs.KeepsFolder t.journal)
    (hkeeps' : (s.outputs.refusing q).KeepsFolder t.journal) :
    ∃ result' t', p.run? looks (s.withOutputs (s.outputs.refusing q)) = some (result', t') ∧
      t' = t.differing t'.outputs t'.errors t'.deeds ∧ t'.journal = t.journal ∧
      (∀ e, (∀ w, e ≠ .writer w) → (result' = .error e ↔ result = .error e)) ∧
      t'.outputs.wire = t.outputs.wire ∧ t'.outputs.deliveries = t.outputs.deliveries ∧
      ∀ loc, q loc = s.outputs.disk.refuses loc →
        t'.outputs.disk.text? loc = t.outputs.disk.text? loc := by
  obtain ⟨haccepts, -⟩ := Program.outputs_of_run hfresh hrun
  obtain ⟨config, disk, wire, hstart⟩ := hfresh.outputs
  have hbeside : s.Beside s.outputs (s.outputs.refusing q) (s.withOutputs (s.outputs.refusing q)) := by
    refine ⟨rfl, ?_, ?_, hlenient, hlenient, rfl⟩
    · rw [hfresh.journal]
      rfl
    · rw [hfresh.journal]
      rfl
  rw [hstart] at haccepts hkeeps hkeeps'
  obtain ⟨result', t', hrun', ht, hresult⟩ := Program.beside_run hbeside hgoing hrun
    (Outputs.headers_refusing _ q) fun k path hk => by
      rw [hstart]
      exact (Outputs.Beside.moved haccepts hkeeps hkeeps' hk
        (Outputs.beside_replay haccepts hkeeps hkeeps' ((List.prefix_append _ _).trans hk))).1
  have houtputs : Outputs.Beside disk q t.outputs t'.outputs := by
    rw [ht.outputs, ht.outputs', hstart]
    exact Outputs.beside_replay haccepts hkeeps hkeeps' List.prefix_rfl
  refine ⟨result', t', hrun', ht.same, ?_, hresult, houtputs.wire, houtputs.deliveries, ?_⟩
  · rw [ht.same]
    rfl
  · intro loc hloc
    rw [hstart] at hloc
    unfold Disk.text?
    rw [houtputs.disk.node hloc]

def refusedLog : Disk.Refusal :=
  fun loc _ => loc == ["a", "log.txt"]

def singleStartRefused : RunState :=
  (singleStartIn .block).withOutputs ((singleStartIn .block).outputs.refusing refusedLog)

theorem rowsAndLine_ends_block : ((rowsAndLine.run? 0 (singleStartIn .block)).map fun ended =>
    (ended.2.journal, ended.2.outputs.disk.text? ["a", "t.csv"],
      ended.2.outputs.disk.text? ["a", "log.txt"])) =
        some (.moved "a" :: rowsAndLineJournal, some "x\r\none\r\nthree\r\n", some "end\n") := by
  decide +kernel

theorem rowsAndLine_ends_refused : ((rowsAndLine.run? 0 singleStartRefused).map fun ended =>
    ended.2.outputs.disk.text? ["a", "log.txt"]) = some none := by
  decide +kernel

theorem refused_writes_isolated_rowsAndLine :
    ∃ result t', rowsAndLine.run? 0 singleStartRefused = some (result, t') ∧
      t'.journal = .moved "a" :: rowsAndLineJournal ∧
      t'.outputs.disk.text? ["a", "t.csv"] = some "x\r\none\r\nthree\r\n" ∧
      t'.outputs.disk.text? ["a", "log.txt"] = none := by
  obtain ⟨⟨result, t⟩, hrun, heq⟩ := Option.map_eq_some_iff.mp rowsAndLine_ends_block
  obtain ⟨hjournal, htexts⟩ := Prod.mk.inj heq
  obtain ⟨htable, -⟩ := Prod.mk.inj htexts
  have hkeeps : ∀ o : Outputs, o.KeepsFolder t.journal := by
    intro o
    rw [hjournal]
    refine Outputs.keepsFolder_of_unmoved (j := [.moved "a"]) rfl fun path => ?_
    simp
  obtain ⟨result', t', hrun', -, hsame, -, -, -, htext⟩ :=
    refused_writes_isolated 0 rowsAndLine (singleStartIn .block) t refusedLog result
      ⟨⟨_, _, _, rfl⟩, rfl⟩ rfl rfl hrun (hkeeps _) (hkeeps _)
  have hlog := rowsAndLine_ends_refused
  rw [show rowsAndLine.run? 0 singleStartRefused = some (result', t') from hrun'] at hlog
  refine ⟨result', t', hrun', hsame.trans hjournal, ?_, Option.some.inj hlog⟩
  have halike : refusedLog ["a", "t.csv"] =
      (singleStartIn .block).outputs.disk.refuses ["a", "t.csv"] := by
    funext n
    rfl
  rw [htext _ halike]
  exact htable

end ChainQuery
