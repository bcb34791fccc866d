import ChainQuery.Proofs.Execution.Fragments
import ChainQuery.Proofs.Execution.Moves

/-!
# Runs that abort

A run that aborts on every failure goes the same way as one that does not, up to the first failure
that is handled. From there on it only leaves the elements that it is in.
-/

namespace ChainQuery

namespace Journal

/-- After a part of the first journal the second one has only visits that end with a failure. -/
def Cuts (whole cut : Journal) : Prop :=
  ∃ j k, j <+: whole ∧ cut = j ++ k ∧ ∀ e ∈ k, ∃ c f, e = .left c (some f)

theorem Cuts.refl (j : Journal) : j.Cuts j :=
  ⟨j, [], List.prefix_rfl, (List.append_nil j).symm, nofun⟩

theorem Cuts.extend {j k cut : Journal} (h : j.Cuts cut) (hjk : j <+: k) : k.Cuts cut := by
  obtain ⟨before, after, hbefore, hcut, hafter⟩ := h
  exact ⟨before, after, hbefore.trans hjk, hcut, hafter⟩

theorem Cuts.left {whole cut : Journal} (h : whole.Cuts cut) (c : Cursor) (f : ExecutionError) :
    whole.Cuts (cut ++ [.left c (some f)]) := by
  obtain ⟨before, after, hbefore, rfl, hafter⟩ := h
  refine ⟨before, after ++ [.left c (some f)], hbefore, List.append_assoc .., fun e he => ?_⟩
  rcases List.mem_append.mp he with he | he
  · exact hafter e he
  · exact ⟨c, f, List.mem_singleton.mp he⟩

end Journal

namespace ErrorRecord

def abortive (r : ErrorRecord) : ErrorRecord :=
  { r with abortOnError := true }

variable {r : ErrorRecord} {e : ExecutionError}

theorem ends_abortive (r : ErrorRecord) (e : ExecutionError) : r.abortive.ends e = true :=
  Bool.or_true _

theorem handle_of_ends (context : String) (haborting : r.aborting = false) (hends : r.ends e = true) :
    (r.handle context e).1 = .error e ∧ (r.handle context e).2.aborting = true := by
  unfold handle
  rw [haborting, hends]
  exact ⟨rfl, rfl⟩

theorem handle_abortive (context : String) (h : r.aborting = true ∨ r.ends e = true) :
    r.abortive.handle context e = ((r.handle context e).1, (r.handle context e).2.abortive) := by
  cases haborting : r.aborting with
  | true =>
    rw [handle_aborting context e haborting]
    exact handle_aborting context e haborting
  | false =>
    have hends : r.ends e = true := h.resolve_left (by rw [haborting]; exact Bool.false_ne_true)
    have habortive : r.abortive.aborting = false := haborting
    unfold handle
    rw [habortive, ends_abortive, haborting, hends]
    rfl

end ErrorRecord

def RunState.abortive (s : RunState) : RunState :=
  { s with errors := s.errors.abortive }

theorem RunState.handle_abortive {s : RunState} {e : ExecutionError} (context : String)
    (h : s.errors.aborting = true ∨ s.errors.ends e = true) :
    s.abortive.handle context e = (s.handle context e).abortive := by
  unfold handle
  rw [show s.abortive.errors = s.errors.abortive from rfl, ErrorRecord.handle_abortive context h,
    ErrorRecord.ends_abortive, show s.errors.abortive.aborting = s.errors.aborting from rfl]
  cases haborting : s.errors.aborting with
  | true => rfl
  | false =>
    rw [h.resolve_left (by rw [haborting]; exact Bool.false_ne_true)]
    rfl

namespace Run

/-- A step fails and ends the run, with the journal of a state cut short. -/
def Breaks (x : Run α) (s t : RunState) : Prop :=
  ∃ e u, x.run s = some (.error e, u) ∧ u.errors.aborting = true ∧ t.journal.Cuts u.journal

/-- In a run that aborts, a step ends in the same way, or breaks before that. -/
def EndsOrBreaks (x : Run α) (s : RunState) (result : Except ExecutionError α) (t : RunState) : Prop :=
  x.run s = some (result, t.abortive) ∨ Breaks x s t

structure Abortable (x : Run α) : Prop where
  grows : Keeps RunState.Extends x
  aborts : ∀ s result t, x.run s = some (result, t) → EndsOrBreaks x s.abortive result t

section Rules

theorem Breaks.of_run_eq {x y : Run α} {s s' t : RunState} (h : x.run s = y.run s')
    (hy : Breaks y s' t) : Breaks x s t := by
  obtain ⟨e, u, hrun, haborting, hcuts⟩ := hy
  exact ⟨e, u, h.trans hrun, haborting, hcuts⟩

theorem EndsOrBreaks.of_run_eq {x y : Run α} {s s' t : RunState} {result : Except ExecutionError α}
    (h : x.run s = y.run s') (hy : EndsOrBreaks y s' result t) : EndsOrBreaks x s result t :=
  hy.imp h.trans fun hbreaks => hbreaks.of_run_eq h

theorem abortable_step {x : Run α} {result : RunState → Except ExecutionError α}
    {next : RunState → RunState} (hrun : ∀ s, x.run s = some (result s, next s))
    (hresult : ∀ s : RunState, result s.abortive = result s)
    (hnext : ∀ s : RunState, next s.abortive = (next s).abortive)
    (hjournal : ∀ s, (next s).journal = s.journal) : Abortable x where
  grows := by
    intro s result' t h
    rw [hrun] at h
    cases h
    exact ⟨[], (List.append_nil _).trans (hjournal s).symm⟩
  aborts := by
    intro s result' t h
    rw [hrun] at h
    cases h
    left
    rw [hrun, hresult, hnext]

theorem abortable_exhausted : Abortable (exhausted : Run α) where
  grows := keeps_exhausted
  aborts := by
    intro s result t h
    cases h

theorem abortable_pure (a : α) : Abortable (pure a) :=
  abortable_step (fun _ => rfl) (fun _ => rfl) (fun _ => rfl) fun _ => rfl

theorem abortable_raise (e : ExecutionError) : Abortable (raise e : Run α) :=
  abortable_step (fun _ => rfl) (fun _ => rfl) (fun _ => rfl) fun _ => rfl

theorem breaks_report (context : String) (e : ExecutionError) {s t : RunState}
    (haborting : s.errors.aborting = true) (hcuts : t.journal.Cuts s.journal) :
    Breaks (report context e) s t := by
  have hhandle := ErrorRecord.handle_aborting context e haborting
  refine ⟨e, s.handle context e, ?_, ?_, hcuts⟩
  · show some ((s.errors.handle context e).1, s.handle context e) = _
    rw [hhandle]
  · show (s.errors.handle context e).2.aborting = true
    rw [hhandle]
    exact haborting

theorem abortable_report (context : String) (e : ExecutionError) :
    Abortable (report context e) where
  grows := keeps_report chains_extends context e
  aborts := by
    intro s result t h
    cases h
    by_cases hends : s.errors.aborting = true ∨ s.errors.ends e = true
    · left
      show some ((s.errors.abortive.handle context e).1, s.abortive.handle context e) = _
      rw [ErrorRecord.handle_abortive context hends, RunState.handle_abortive context hends]
    · right
      have haborting : s.errors.abortive.aborting = false :=
        Bool.eq_false_iff.mpr fun h => hends (.inl h)
      obtain ⟨hfails, hended⟩ :=
        ErrorRecord.handle_of_ends context haborting (s.errors.ends_abortive e)
      refine ⟨e, s.abortive.handle context e, ?_, hended, .refl _⟩
      show some ((s.errors.abortive.handle context e).1, s.abortive.handle context e) = _
      rw [hfails]

theorem abortable_bind {x : Run α} {f : α → Run β} (hx : Abortable x) (hf : ∀ a, Abortable (f a)) :
    Abortable (x >>= f) where
  grows := keeps_bind chains_extends hx.grows fun a => (hf a).grows
  aborts := by
    intro s result t h
    have hbreaks : ∀ {u : RunState}, u.Extends t → Breaks x s.abortive u →
        Breaks (x >>= f) s.abortive t := by
      rintro u hut ⟨e, v, hrun, haborting, hcuts⟩
      exact ⟨e, v, by rw [run_bind, hrun], haborting, hcuts.extend hut⟩
    rw [run_bind] at h
    rcases hrun : x.run s with _ | ⟨e | a, u⟩
    · rw [hrun] at h
      cases h
    · rw [hrun] at h
      cases h
      rcases hx.aborts s _ _ hrun with hsame | hbroken
      · exact .inl (by rw [run_bind, hsame])
      · exact .inr (hbreaks List.prefix_rfl hbroken)
    · rw [hrun] at h
      rcases hx.aborts s _ _ hrun with hsame | hbroken
      · exact ((hf a).aborts u _ _ h).of_run_eq (by rw [run_bind, hsame])
      · exact .inr (hbreaks ((hf a).grows _ _ _ h) hbroken)

/-- What follows must not depend on the errors of the state. -/
theorem abortable_look {f : RunState → Run α} (hblind : ∀ s : RunState, f s.abortive = f s)
    (hf : ∀ s, Abortable (f s)) : Abortable (get >>= f) where
  grows := keeps_bind chains_extends (keeps_get chains_extends) fun s => (hf s).grows
  aborts := by
    intro s result t h
    have hsame := (hf s).aborts s result t h
    rw [← hblind s] at hsame
    exact hsame

theorem abortable_modify {g : RunState → RunState}
    (hg : ∀ s : RunState, g s.abortive = (g s).abortive) (hjournal : ∀ s, (g s).journal = s.journal) :
    Abortable (modify g) :=
  abortable_step (fun _ => rfl) (fun _ => rfl) hg hjournal

theorem run_outcome_bind (x : Run α) (f : Except ExecutionError α → Run β) (s : RunState) :
    (outcome x >>= f).run s = match x.run s with
      | none => none
      | some (result, t) => (f result).run t := by
  rw [run_bind, run_outcome]
  rcases x.run s with _ | ⟨result, t⟩
  · rfl
  · rfl

/-- A failure that ends the run passes through where it is handled. -/
theorem abortable_catches {x : Run α} {f : Except ExecutionError α → Run Unit} {context : String}
    (hx : Abortable x) (hf : ∀ a, Abortable (f (.ok a)))
    (herror : ∀ e, f (.error e) = report context e) : Abortable (outcome x >>= f) := by
  have hhandled : ∀ result, Abortable (f result) := by
    intro result
    cases result with
    | ok a => exact hf a
    | error e =>
      rw [herror]
      exact abortable_report context e
  refine ⟨keeps_bind chains_extends (keeps_outcome hx.grows) fun result => (hhandled result).grows, ?_⟩
  intro s result t h
  rw [run_outcome_bind] at h
  rcases hrun : x.run s with _ | ⟨result', u⟩
  · rw [hrun] at h
    cases h
  · rw [hrun] at h
    rcases hx.aborts s _ _ hrun with hsame | ⟨e, v, hbroken, haborting, hcuts⟩
    · exact ((hhandled result').aborts u _ _ h).of_run_eq (by rw [run_outcome_bind, hsame])
    · have hreport : (outcome x >>= f).run s.abortive = (report context e).run v := by
        rw [run_outcome_bind, hbroken, ← herror]
      refine .inr (Breaks.of_run_eq hreport (breaks_report context e haborting ?_))
      exact hcuts.extend ((hhandled result').grows _ _ _ h)

theorem abortable_fail (context : String) (e : ExecutionError) : Abortable (fail context e) :=
  abortable_bind (abortable_step (fun _ => rfl) (fun _ => rfl) (fun _ => rfl) fun _ => rfl) fun _ =>
    abortable_report context e

theorem abortable_ended (b : Block) (result : Except ExecutionError Unit)
    (failure : Option WriterError) : Abortable (Scan.ended b result failure) :=
  Scan.ended_of (P := Abortable) (abortable_pure _) abortable_report abortable_fail b result failure

theorem abortable_staged (item : OutputItem) : Abortable (Emission.stage item) where
  grows := Emission.keeps_stage ((laws_extends .block).leaves 0) item
  aborts := by
    intro s result t h
    have hsecond := Emission.run_stage item s.abortive
    have houtputs : s.abortive.outputs = s.outputs := rfl
    rw [houtputs] at hsecond
    rw [Emission.run_stage] at h
    cases hstage : s.outputs.stage item with
    | ok o =>
      rw [hstage] at h hsecond
      cases h
      exact .inl hsecond
    | error e =>
      rw [hstage] at h hsecond
      exact ((abortable_raise _).aborts s _ _ h).of_run_eq hsecond

theorem abortable_moved (path : String) : Abortable (Statement.setFolder path) where
  grows := Statement.keeps_setFolder ((laws_extends .block).leaves 0) path
  aborts := by
    intro s result t h
    have hsecond := Statement.run_setFolder path s.abortive
    have houtputs : s.abortive.outputs = s.outputs := rfl
    rw [houtputs] at hsecond
    rw [Statement.run_setFolder] at h
    cases hmake : (s.outputs.disk.makeFolders path).2 with
    | none =>
      rw [hmake] at h hsecond
      cases h
      exact .inl hsecond
    | some e =>
      rw [hmake] at h hsecond
      exact ((abortable_raise _).aborts _ _ _ h).of_run_eq hsecond

theorem abortive_enter (s : RunState) (e : Element) : s.abortive.enter e = (s.enter e).abortive := by
  cases e <;> rfl

theorem abortive_exit (s : RunState) (c : Cursor) (failure : Option ExecutionError) :
    s.abortive.exit c failure = (s.exit c failure).abortive := by
  cases c <;> rfl

theorem cuts_exit {t u : RunState} (hcuts : t.journal.Cuts u.journal) (c : Cursor)
    (e : ExecutionError) (failure : Option ExecutionError) :
    (t.exit c failure).journal.Cuts (u.exit c (some e)).journal := by
  have hexit : ∀ (v : RunState) failure,
      (v.exit c failure).journal = v.journal ++ [.left c failure] := by
    intro v failure
    cases c <;> rfl
  rw [hexit, hexit]
  exact (hcuts.left c e).extend (List.prefix_append _ _)

theorem aborting_exit (t : RunState) (c : Cursor) (failure : Option ExecutionError) :
    (t.exit c failure).errors.aborting = t.errors.aborting := by
  cases c <;> rfl

section Visits
variable {body : Run Unit} (hbody : Abortable body)
include hbody

theorem abortable_visitBlock (b : Block) : Abortable (Scan.visit body b) where
  grows := Scan.keeps_visit chains_extends hbody.grows b fun _ _ _ h => RunState.extends_exit h
  aborts := by
    intro s result t h
    rw [Scan.run_visit_ended] at h
    rcases hrun : body.run (s.enter (.block b)) with _ | ⟨result', u⟩
    · rw [hrun] at h
      cases h
    · rw [hrun] at h
      rcases hbody.aborts _ _ _ hrun with hsame | ⟨e, v, hbroken, haborting, hcuts⟩
      · have hvisit : (Scan.visit body b).run s.abortive =
            (Scan.ended b result' (u.outputs.follow (.left .block (failure? result'))).2).run
              (u.exit .block (failure? result')).abortive := by
          rw [Scan.run_visit_ended, abortive_enter, hsame]
          rfl
        exact ((abortable_ended b result' _).aborts _ _ _ h).of_run_eq hvisit
      · have hvisit : (Scan.visit body b).run s.abortive =
            (report (Scan.context b.number) e).run (v.exit .block (some e)) := by
          rw [Scan.run_visit_ended, abortive_enter, hbroken]
          rfl
        refine .inr (Breaks.of_run_eq hvisit (breaks_report _ e haborting ?_))
        exact (cuts_exit hcuts .block e _).extend (Scan.keeps_ended chains_extends b _ _ _ _ _ h)

theorem abortable_visit (e : Element) (he : e.cursor ≠ .block) :
    Abortable (do resume (← visiting e body)) where
  grows := keeps_visiting hbody.grows e he fun _ _ _ h => RunState.extends_exit h
  aborts := by
    intro s result t h
    rw [run_resume_visiting e he] at h
    obtain ⟨⟨result', u⟩, hrun, heq⟩ := Option.map_eq_some_iff.mp h
    cases heq
    rcases hbody.aborts _ _ _ hrun with hsame | ⟨f, v, hbroken, haborting, hcuts⟩
    · left
      rw [run_resume_visiting e he, abortive_enter, hsame, Option.map_some, abortive_exit]
    · right
      refine ⟨f, v.exit e.cursor (some f), ?_, (aborting_exit v _ _).trans haborting,
        cuts_exit hcuts _ f _⟩
      rw [run_resume_visiting e he, abortive_enter, hbroken]
      rfl

end Visits

theorem hereditary_abortable : Hereditary fun _ => Abortable where
  pure := abortable_pure
  exhausted := abortable_exhausted
  raise := abortable_raise
  fail := abortable_fail
  look hblind hf := abortable_look (fun s => hblind s s.outputs s.errors.abortive) hf
  bind := abortable_bind
  catches := abortable_catches
  beginning _ := abortable_look (fun _ => rfl) fun _ => abortable_modify (fun _ => rfl) fun _ => rfl
  note _ := abortable_step (fun _ => rfl) (fun _ => rfl) (fun _ => rfl) fun _ => rfl
  bound _ := abortable_modify (fun _ => rfl) fun _ => rfl
  attached _ := abortable_modify (fun _ => rfl) fun _ => rfl
  staged := abortable_staged
  moved := abortable_moved
  visitBlock b hbody := abortable_visitBlock hbody b
  visit e he hbody := abortable_visit hbody e he

end Rules
end Run

/-- Once the outputs are closed, nothing is handled any more. -/
theorem Program.run_ended_abortive {ended? result : Except ExecutionError Unit}
    {failure : Option WriterError} {s t : RunState}
    (h : (ended ended? failure).run s = some (result, t)) :
    t.journal = s.journal ∧ (ended ended? failure).run s.abortive = some (result, t.abortive) := by
  cases ended? with
  | error fatal =>
    cases h
    exact ⟨rfl, rfl⟩
  | ok _ =>
    cases failure with
    | none =>
      cases h
      exact ⟨rfl, rfl⟩
    | some w =>
      cases h
      exact ⟨rfl, rfl⟩

/-- A program that comes to an end does so in a run that aborts: in the same way, or with a failure
after a part of the journal. -/
theorem Program.run_abortive {looks : Nat} {p : Program} {s t : RunState}
    {result : Except ExecutionError Unit} (h : p.run? looks s = some (result, t)) :
    p.run? looks s.abortive = some (result, t.abortive) ∨
      ∃ e u j, p.run? looks s.abortive = some (.error e, u) ∧ t.journal.Cuts j ∧
        u.journal = j ++ [.closed (some e)] := by
  have heach := Run.hereditary_abortable.executeEach looks p.instructions
  rw [Program.run?, run_execute_ended] at h
  rw [Program.run?, run_execute_ended]
  rcases hrun : (executeEach looks p.instructions).run s with _ | ⟨result', u⟩
  · rw [hrun] at h
    cases h
  · rw [hrun] at h
    obtain ⟨hjournal, hended⟩ := run_ended_abortive h
    rcases heach.aborts s _ _ hrun with hsame | ⟨e, v, hbroken, -, hcuts⟩
    · left
      rw [hsame]
      exact hended
    · right
      rw [hbroken]
      refine ⟨e, _, v.journal, rfl, ?_, rfl⟩
      rw [hjournal]
      exact hcuts.extend (List.prefix_append _ _)

end ChainQuery
