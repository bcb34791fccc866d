import ChainQuery.Proofs.Execution.Fragments
import ChainQuery.Proofs.Execution.Laws

/-!
# Two runs with different outputs

No step of a run looks at the outputs, except for the failures that they return. Hence two runs that
start with different outputs go the same way as long as their outputs fail alike. Where the outputs of
the second run fail by themselves, its journal is lost: it goes on with other entries. Where the outputs
fail alike at every entry of the journal, the second run mirrors the first one to its end.
-/

namespace ChainQuery

def RunState.withOutputs (s : RunState) (o : Outputs) : RunState :=
  { s with outputs := o }

/-- A relation between the outputs of two runs with the same journal. Each entry keeps it, with the
same failure, unless a decision loses the journal of the second run. What is asked may depend on where
the first run leads to. -/
structure Tandem (R : Journal → Outputs → Outputs → Prop) (leads : RunState → Prop)
    (lost : Journal → Prop) : Prop where
  same : ∀ {s t : RunState}, t.outputs = s.outputs → t.journal = s.journal → leads t → leads s
  before : ∀ {s : RunState} {e}, leads (s.perform e) → leads s
  follow : ∀ {s : RunState} {e o}, leads (s.perform e) → R s.journal s.outputs o →
    (o.follow e).2 = (s.outputs.follow e).2 ∧
        R (s.journal ++ [e]) (s.outputs.follow e).1 (o.follow e).1 ∨
      e.decision?.isSome = true ∧ lost (s.journal ++ [e])
  refuse : ∀ {s : RunState} {item e o}, leads s → R s.journal s.outputs o →
    s.outputs.stage item = .error e → o.stage item = .error e
  makeFolders : ∀ {s : RunState} {path o}, leads (s.perform (.moved path)) →
    R s.journal s.outputs o →
    (o.disk.makeFolders path).2 = (s.outputs.disk.makeFolders path).2

theorem Tandem.quiet {R : Journal → Outputs → Outputs → Prop} {leads : RunState → Prop}
    {lost : Journal → Prop} (hR : Tandem R leads lost) {s : RunState} {e : JournalEntry} {o : Outputs}
    (hleads : leads (s.perform e)) (ho : R s.journal s.outputs o) (he : e.decision? = none) :
    (o.follow e).2 = (s.outputs.follow e).2 ∧
      R (s.journal ++ [e]) (s.outputs.follow e).1 (o.follow e).1 := by
  rcases hR.follow hleads ho with hsame | ⟨hdecides, -⟩
  · exact hsame
  · rw [he] at hdecides
    cases hdecides

namespace Run

/-- Whatever comes of a step, its journal begins with a lost one. -/
def Strays (lost : Journal → Prop) (x : Run α) (s : RunState) : Prop :=
  ∃ j, lost j ∧ ∀ result t, x.run s = some (result, t) → j <+: t.journal

/-- A step ends with a result in a state `t`, except for the outputs, which are related to those of
`t`. Or else it strays. -/
def EndsLike (R : Journal → Outputs → Outputs → Prop) (lost : Journal → Prop) (x : Run α)
    (s : RunState) (result : Except ExecutionError α) (t : RunState) : Prop :=
  (∃ o, R t.journal t.outputs o ∧ x.run s = some (result, t.withOutputs o)) ∨ Strays lost x s

/-- A step goes the same way from a state with other outputs, or strays from there. -/
structure InTandem (R : Journal → Outputs → Outputs → Prop) (leads : RunState → Prop)
    (lost : Journal → Prop) (x : Run α) : Prop where
  grows : Keeps RunState.Extends x
  follows : ∀ s result t, x.run s = some (result, t) → leads t →
    leads s ∧ ∀ o, R s.journal s.outputs o → EndsLike R lost x (s.withOutputs o) result t

section Rules
variable {R : Journal → Outputs → Outputs → Prop} {leads : RunState → Prop}
variable {lost : Journal → Prop}

theorem EndsLike.of_run_eq {x y : Run α} {s u t : RunState} {result : Except ExecutionError α}
    (h : x.run s = y.run u) (hy : EndsLike R lost y u result t) : EndsLike R lost x s result t := by
  rcases hy with ⟨o, ho, hrun⟩ | ⟨j, hlost, hstrays⟩
  · exact .inl ⟨o, ho, h.trans hrun⟩
  · exact .inr ⟨j, hlost, fun result' t' h' => hstrays result' t' (h.symm.trans h')⟩

theorem strays_bind {x : Run α} {f : α → Run β} {s : RunState} (hx : Strays lost x s)
    (hf : ∀ a, Keeps RunState.Extends (f a)) : Strays lost (x >>= f) s := by
  obtain ⟨j, hlost, hstrays⟩ := hx
  refine ⟨j, hlost, fun result t h => ?_⟩
  rw [run_bind] at h
  rcases hrun : x.run s with _ | ⟨e | a, u⟩
  · rw [hrun] at h
    cases h
  · rw [hrun] at h
    cases h
    exact hstrays _ _ hrun
  · rw [hrun] at h
    exact (hstrays _ _ hrun).trans (hf a u _ _ h)

theorem strays_outcome {x : Run α} {s : RunState} (hx : Strays lost x s) :
    Strays lost (outcome x) s := by
  obtain ⟨j, hlost, hstrays⟩ := hx
  refine ⟨j, hlost, fun result t h => ?_⟩
  rw [run_outcome] at h
  obtain ⟨⟨result', t'⟩, hrun, heq⟩ := Option.map_eq_some_iff.mp h
  cases heq
  exact hstrays _ _ hrun

theorem tandem_exhausted : InTandem R leads lost (exhausted : Run α) where
  grows := keeps_exhausted
  follows := by
    intro s result t h
    cases h

theorem tandem_bind {x : Run α} {f : α → Run β} (hx : InTandem R leads lost x)
    (hf : ∀ a, InTandem R leads lost (f a)) : InTandem R leads lost (x >>= f) where
  grows := keeps_bind chains_extends hx.grows fun a => (hf a).grows
  follows := by
    intro s result t h hleads
    rw [run_bind] at h
    rcases hrun : x.run s with _ | ⟨e | a, u⟩
    · rw [hrun] at h
      cases h
    · rw [hrun] at h
      cases h
      obtain ⟨hs, hsecond⟩ := hx.follows s _ _ hrun hleads
      refine ⟨hs, fun o ho => ?_⟩
      rcases hsecond o ho with ⟨o', ho', hrun'⟩ | hstrays
      · exact .inl ⟨o', ho', by rw [run_bind, hrun']⟩
      · exact .inr (strays_bind hstrays fun a => (hf a).grows)
    · rw [hrun] at h
      obtain ⟨hu, hrest⟩ := (hf a).follows u _ _ h hleads
      obtain ⟨hs, hsecond⟩ := hx.follows s _ _ hrun hu
      refine ⟨hs, fun o ho => ?_⟩
      rcases hsecond o ho with ⟨o', ho', hrun'⟩ | hstrays
      · exact (hrest o' ho').of_run_eq (by rw [run_bind, hrun'])
      · exact .inr (strays_bind hstrays fun a => (hf a).grows)

theorem tandem_get_bind {f : RunState → Run α} (hblind : ∀ s o, f (s.withOutputs o) = f s)
    (hf : ∀ s, InTandem R leads lost (f s)) : InTandem R leads lost (get >>= f) where
  grows := keeps_bind chains_extends (keeps_get chains_extends) fun s => (hf s).grows
  follows := by
    intro s result t h hleads
    obtain ⟨hs, hsecond⟩ := (hf s).follows s result t h hleads
    refine ⟨hs, fun o ho => ?_⟩
    have hsame := hsecond o ho
    rw [← hblind s o] at hsame
    exact hsame

theorem tandem_outcome {x : Run α} (hx : InTandem R leads lost x) :
    InTandem R leads lost (outcome x) where
  grows := keeps_outcome hx.grows
  follows := by
    intro s result t h hleads
    rw [run_outcome] at h
    obtain ⟨⟨result', t'⟩, hrun, heq⟩ := Option.map_eq_some_iff.mp h
    cases heq
    obtain ⟨hs, hsecond⟩ := hx.follows s _ _ hrun hleads
    refine ⟨hs, fun o ho => ?_⟩
    rcases hsecond o ho with ⟨o', ho', hrun'⟩ | hstrays
    · exact .inl ⟨o', ho', by rw [run_outcome, hrun']; rfl⟩
    · exact .inr (strays_outcome hstrays)

variable (hR : Tandem R leads lost)
include hR

theorem tandem_step {x : Run α} {result : RunState → Except ExecutionError α}
    {next : RunState → RunState} (hrun : ∀ s, x.run s = some (result s, next s))
    (hresult : ∀ s o, result (s.withOutputs o) = result s)
    (hnext : ∀ s o, next (s.withOutputs o) = (next s).withOutputs o)
    (hsame : ∀ s, (next s).outputs = s.outputs ∧ (next s).journal = s.journal) :
    InTandem R leads lost x where
  grows := by
    intro s result' t h
    rw [hrun] at h
    cases h
    exact ⟨[], (List.append_nil _).trans (hsame s).2.symm⟩
  follows := by
    intro s result' t h hleads
    rw [hrun] at h
    cases h
    refine ⟨hR.same (hsame s).1 (hsame s).2 hleads, fun o ho => .inl ⟨o, ?_, ?_⟩⟩
    · rw [(hsame s).1, (hsame s).2]
      exact ho
    · rw [hrun, hresult, hnext]

theorem tandem_pure (a : α) : InTandem R leads lost (pure a) :=
  tandem_step hR (fun _ => rfl) (fun _ _ => rfl) (fun _ _ => rfl) fun _ => ⟨rfl, rfl⟩

theorem tandem_raise (e : ExecutionError) : InTandem R leads lost (raise e : Run α) :=
  tandem_step hR (fun _ => rfl) (fun _ _ => rfl) (fun _ _ => rfl) fun _ => ⟨rfl, rfl⟩

theorem tandem_report (context : String) (e : ExecutionError) :
    InTandem R leads lost (report context e) :=
  tandem_step hR (fun _ => rfl) (fun _ _ => rfl) (fun _ _ => rfl) fun _ => ⟨rfl, rfl⟩

theorem tandem_doing (d : Deed) : InTandem R leads lost (doing d) :=
  tandem_step hR (fun _ => rfl) (fun _ _ => rfl) (fun _ _ => rfl) fun _ => ⟨rfl, rfl⟩

theorem tandem_fail (context : String) (e : ExecutionError) : InTandem R leads lost (fail context e) :=
  tandem_bind (tandem_doing hR _) fun _ => tandem_report hR context e

theorem tandem_catches {x : Run α} {f : Except ExecutionError α → Run Unit} {context : String}
    (hx : InTandem R leads lost x) (hf : ∀ a, InTandem R leads lost (f (.ok a)))
    (herror : ∀ e, f (.error e) = report context e) : InTandem R leads lost (outcome x >>= f) := by
  refine tandem_bind (tandem_outcome hx) fun result => ?_
  cases result with
  | ok a => exact hf a
  | error e =>
    rw [herror]
    exact tandem_report hR context e

theorem tandem_modify {g : RunState → RunState}
    (hg : ∀ s o, g (s.withOutputs o) = (g s).withOutputs o)
    (hsame : ∀ s, (g s).outputs = s.outputs ∧ (g s).journal = s.journal) :
    InTandem R leads lost (modify g) :=
  tandem_step hR (fun _ => rfl) (fun _ _ => rfl) hg hsame

theorem tandem_note (i : Inquiry) : InTandem R leads lost (note i) :=
  tandem_step hR (fun _ => rfl) (fun _ _ => rfl) (fun _ _ => rfl) fun _ => ⟨rfl, rfl⟩

end Rules
end Run
section Execution
variable {R : Journal → Outputs → Outputs → Prop} {leads : RunState → Prop}
variable {lost : Journal → Prop} (hR : Tandem R leads lost)
include hR

omit hR in
theorem RunState.withOutputs_exit (t : RunState) (o : Outputs) (e : Element)
    (failure : Option ExecutionError) :
    (t.withOutputs o).exit e.cursor failure =
      (t.exit e.cursor failure).withOutputs (o.follow (.left e.cursor failure)).1 := by
  cases e <;> rfl

theorem Scan.tandem_ended (b : Block) (result : Except ExecutionError Unit)
    (failure : Option WriterError) : Run.InTandem R leads lost (ended b result failure) :=
  ended_of (P := Run.InTandem R leads lost) (Run.tandem_pure hR _) (Run.tandem_report hR)
    (Run.tandem_fail hR) b result failure

/-- The visit of an element up to its end, which the outputs of both runs follow. -/
theorem Run.InTandem.visit {body : Run Unit} (hbody : Run.InTandem R leads lost body) {e : Element}
    {s t : RunState} {result : Except ExecutionError Unit}
    (hrun : body.run (s.enter e) = some (result, t))
    (hleads : leads (t.exit e.cursor (Run.failure? result))) :
    leads s ∧ ∀ o, R s.journal s.outputs o →
      (∃ o', body.run ((s.withOutputs o).enter e) = some (result, t.withOutputs o') ∧
        ((o'.follow (.left e.cursor (Run.failure? result))).2 =
            (t.outputs.follow (.left e.cursor (Run.failure? result))).2 ∧
          R (t.exit e.cursor (Run.failure? result)).journal
            (t.outputs.follow (.left e.cursor (Run.failure? result))).1
            (o'.follow (.left e.cursor (Run.failure? result))).1 ∨
          e.cursor = .block ∧ lost (t.exit e.cursor (Run.failure? result)).journal)) ∨
      Run.Strays lost body ((s.withOutputs o).enter e) := by
  -- the start and the end of a visit are entries of the journal, up to the cursors
  have hend : leads (t.perform (.left e.cursor (Run.failure? result))) := by
    refine hR.same ?_ ?_ hleads
    · rfl
    · cases e <;> rfl
  obtain ⟨henter, hsecond⟩ := hbody.follows _ _ _ hrun (hR.before hend)
  have hstart : leads (s.perform (.entered e)) := by
    refine hR.same ?_ ?_ henter
    · cases e <;> rfl
    · cases e <;> rfl
  refine ⟨hR.before hstart, fun o ho => ?_⟩
  have hentered : R (s.enter e).journal (s.enter e).outputs o := by
    have hsame := (hR.quiet hstart ho rfl).2
    cases e <;> exact hsame
  have hwith : (s.enter e).withOutputs o = (s.withOutputs o).enter e := by
    cases e <;> rfl
  have hexit : (t.exit e.cursor (Run.failure? result)).journal =
      t.journal ++ [.left e.cursor (Run.failure? result)] := by
    cases e <;> rfl
  rcases hsecond o hentered with ⟨o', ho', hrun'⟩ | hstrays
  · rw [hwith] at hrun'
    refine .inl ⟨o', hrun', ?_⟩
    rw [hexit]
    refine (hR.follow hend ho').imp_right fun hlost => ⟨?_, hlost.2⟩
    cases e with
    | block b => rfl
    | transaction x => exact nomatch hlost.1
    | logEntry l => exact nomatch hlost.1
  · rw [hwith] at hstrays
    exact .inr hstrays

omit hR in
/-- The journal of a visit begins with the one at the end of its element. -/
theorem Scan.strays_visit {body : Run Unit} {b : Block} {s : RunState} {j : Journal} (hlost : lost j)
    (hbody : ∀ result t, body.run (s.enter (.block b)) = some (result, t) →
      j <+: (t.exit .block (Run.failure? result)).journal) :
    Run.Strays lost (visit body b) s := by
  refine ⟨j, hlost, fun result t h => ?_⟩
  rw [Scan.run_visit_ended] at h
  rcases hrun : body.run (s.enter (.block b)) with _ | ⟨ended?, u⟩
  · rw [hrun] at h
    cases h
  · rw [hrun] at h
    exact (hbody _ _ hrun).trans (Scan.keeps_ended chains_extends b _ _ _ _ _ h)

section Visits
variable {body : Run Unit} (hbody : Run.InTandem R leads lost body)
include hbody

theorem Scan.tandem_visit (b : Block) : Run.InTandem R leads lost (visit body b) where
  grows := Scan.keeps_visit chains_extends hbody.grows b fun _ _ _ h => RunState.extends_exit h
  follows := by
    intro s result t h hleads
    rw [Scan.run_visit_ended] at h
    rcases hrun : body.run (s.enter (.block b)) with _ | ⟨ended?, u⟩
    · rw [hrun] at h
      cases h
    · rw [hrun] at h
      obtain ⟨hu, hrest⟩ := (Scan.tandem_ended hR b ended? _).follows _ _ _ h hleads
      obtain ⟨hs, hsecond⟩ := hbody.visit hR hrun hu
      refine ⟨hs, fun o ho => ?_⟩
      rcases hsecond o ho with ⟨o', hrun', ⟨hfailure, ho'⟩ | ⟨-, hlost⟩⟩ | ⟨j, hlost, hstrays⟩
      · -- both runs go on alike from the end of the visit
        have hvisit : (visit body b).run (s.withOutputs o) =
            (ended b ended? (u.outputs.follow (.left .block (Run.failure? ended?))).2).run
              ((u.exit .block (Run.failure? ended?)).withOutputs
                (o'.follow (.left .block (Run.failure? ended?))).1) := by
          have hfailure' : (o'.follow (.left .block (Run.failure? ended?))).2 =
              (u.outputs.follow (.left .block (Run.failure? ended?))).2 := hfailure
          rw [Scan.run_visit_ended, hrun', ← hfailure']
          rfl
        exact (hrest _ ho').of_run_eq hvisit
      · refine .inr (Scan.strays_visit hlost fun result' t' h' => ?_)
        cases hrun'.symm.trans h'
        exact List.prefix_rfl
      · refine .inr (Scan.strays_visit hlost fun result' t' h' => ?_)
        exact (hstrays _ _ h').trans (List.prefix_append _ _)

theorem Run.tandem_visiting (e : Element) (he : e.cursor ≠ .block) :
    Run.InTandem R leads lost (do Run.resume (← Run.visiting e body)) where
  grows := Run.keeps_visiting hbody.grows e he fun _ _ _ h => RunState.extends_exit h
  follows := by
    intro s result t h hleads
    rw [Run.run_resume_visiting e he] at h
    obtain ⟨⟨result', u⟩, hrun, heq⟩ := Option.map_eq_some_iff.mp h
    cases heq
    obtain ⟨hs, hsecond⟩ := hbody.visit hR hrun hleads
    refine ⟨hs, fun o ho => ?_⟩
    rcases hsecond o ho with ⟨o', hrun', ⟨-, ho'⟩ | ⟨hblock, -⟩⟩ | ⟨j, hlost, hstrays⟩
    · refine .inl ⟨_, ho', ?_⟩
      rw [Run.run_resume_visiting e he, hrun', Option.map_some, RunState.withOutputs_exit]
    · exact absurd hblock he
    · refine .inr ⟨j, hlost, fun result' t' h' => ?_⟩
      rw [Run.run_resume_visiting e he] at h'
      obtain ⟨⟨result'', u'⟩, hrun', heq⟩ := Option.map_eq_some_iff.mp h'
      cases heq
      refine (hstrays _ _ hrun').trans ?_
      cases e <;> exact List.prefix_append _ _

end Visits

theorem Emission.tandem_stage (item : OutputItem) : Run.InTandem R leads lost (stage item) where
  grows := Emission.keeps_stage ((laws_extends .block).leaves 0) item
  follows := by
    intro s result t h hleads
    rw [run_stage] at h
    cases hstage : s.outputs.stage item with
    | error e =>
      rw [hstage] at h
      obtain ⟨hs, hsecond⟩ := (Run.tandem_raise hR _).follows _ _ _ h hleads
      refine ⟨hs, fun o ho => ?_⟩
      have hrefused : (stage item).run (s.withOutputs o) =
          (Run.raise (.writer e) : Run Unit).run (s.withOutputs o) := by
        rw [run_stage, show (s.withOutputs o).outputs.stage item = .error e from hR.refuse hs ho hstage]
      exact (hsecond o ho).of_run_eq hrefused
    | ok u =>
      rw [hstage] at h
      cases h
      refine ⟨hR.before hleads, fun o ho => ?_⟩
      obtain ⟨hfailure, hnext⟩ := hR.quiet hleads ho rfl
      refine .inl ⟨_, hnext, ?_⟩
      rw [run_stage, show (s.withOutputs o).outputs.stage item = o.stage item from rfl]
      rw [Outputs.follow, Outputs.follow, hstage] at hfailure
      cases hsecond : o.stage item with
      | error e =>
        rw [hsecond] at hfailure
        cases hfailure
      | ok o' => rfl

theorem Statement.tandem_setFolder (path : String) :
    Run.InTandem R leads lost (setFolder path) where
  grows := Statement.keeps_setFolder ((laws_extends .block).leaves 0) path
  follows := by
    intro s result t h hleads
    rw [run_setFolder] at h
    cases hmake : (s.outputs.disk.makeFolders path).2 with
    | none =>
      rw [hmake] at h
      cases h
      refine ⟨hR.before hleads, fun o ho => .inl ⟨_, (hR.quiet hleads ho rfl).2, ?_⟩⟩
      have hsecond : ((s.withOutputs o).outputs.disk.makeFolders path).2 = none :=
        (hR.makeFolders hleads ho).trans hmake
      rw [run_setFolder, hsecond]
      rfl
    | some e =>
      rw [hmake] at h
      obtain ⟨hmoved, hraised⟩ := (Run.tandem_raise hR _).follows _ _ _ h hleads
      refine ⟨hR.before hmoved, fun o ho => ?_⟩
      have hsecond : ((s.withOutputs o).outputs.disk.makeFolders path).2 = some e :=
        (hR.makeFolders hmoved ho).trans hmake
      have hfailed : (setFolder path).run (s.withOutputs o) =
          (Run.raise (.writer (.io e)) : Run Unit).run
            ((s.perform (.moved path)).withOutputs (o.follow (.moved path)).1) := by
        rw [run_setFolder, hsecond]
        rfl
      exact (hraised _ (hR.quiet hmoved ho rfl).2).of_run_eq hfailed

theorem Tandem.hereditary : Run.Hereditary fun _ => Run.InTandem R leads lost where
  pure := Run.tandem_pure hR
  exhausted := Run.tandem_exhausted
  raise := Run.tandem_raise hR
  fail := Run.tandem_fail hR
  look hblind hf := Run.tandem_get_bind (fun s o => hblind s o s.errors) hf
  bind := Run.tandem_bind
  catches hx hf herror := Run.tandem_catches hR hx hf herror
  beginning _ := Run.tandem_get_bind (fun _ _ => rfl) fun _ => Run.tandem_doing hR _
  note := Run.tandem_note hR
  bound _ := Run.tandem_modify hR (fun _ _ => rfl) fun _ => ⟨rfl, rfl⟩
  attached _ := Run.tandem_modify hR (fun _ _ => rfl) fun _ => ⟨rfl, rfl⟩
  staged := Emission.tandem_stage hR
  moved := Statement.tandem_setFolder hR
  visitBlock b hbody := Scan.tandem_visit hR hbody b
  visit e he hbody := Run.tandem_visiting hR hbody e he

theorem Program.tandem_ended (result : Except ExecutionError Unit) (failure : Option WriterError) :
    Run.InTandem R leads lost (ended result failure) := by
  cases result with
  | error fatal =>
    exact Run.tandem_step hR (fun _ => rfl) (fun _ _ => rfl) (fun _ _ => rfl) fun _ => ⟨rfl, rfl⟩
  | ok _ =>
    cases failure with
    | none => exact Run.tandem_pure hR _
    | some e => exact Run.tandem_raise hR _

/-- A program goes the same way from states whose outputs are related. -/
theorem Program.tandem_execute (looks : Nat) (p : Program) :
    Run.InTandem R leads lost (p.execute looks) where
  grows := by
    intro s result t h
    obtain ⟨u, failure, hu, hquiet⟩ :=
      p.state_of_run (laws_extends .block) looks (Nat.le_refl _) h
    show s.journal <+: t.journal
    rw [hquiet.journal]
    exact List.IsPrefix.trans hu (List.prefix_append _ _)
  follows := by
    have heach := hR.hereditary.executeEach looks p.instructions
    -- the journal of a program begins with the one at its closing
    have hstrays : ∀ (s : RunState) (j : Journal), lost j →
        (∀ result t, (executeEach looks p.instructions).run s = some (result, t) →
          j <+: (t.perform (.closed (Run.failure? result))).journal) →
        Run.Strays lost (p.execute looks) s := by
      intro s j hlost hbegins
      refine ⟨j, hlost, fun result t h => ?_⟩
      rw [run_execute_ended] at h
      rcases hrun : (executeEach looks p.instructions).run s with _ | ⟨ended?, u⟩
      · rw [hrun] at h
        cases h
      · rw [hrun] at h
        exact (hbegins _ _ hrun).trans ((Program.tandem_ended hR _ _).grows _ _ _ h)
    intro s result t h hleads
    rw [run_execute_ended] at h
    rcases hrun : (executeEach looks p.instructions).run s with _ | ⟨ended?, u⟩
    · rw [hrun] at h
      cases h
    · rw [hrun] at h
      obtain ⟨hclosed, hrest⟩ := (Program.tandem_ended hR ended? _).follows _ _ _ h hleads
      obtain ⟨hs, hsecond⟩ := heach.follows _ _ _ hrun (hR.before hclosed)
      refine ⟨hs, fun o ho => ?_⟩
      rcases hsecond o ho with ⟨o', ho', hrun'⟩ | ⟨j, hlost, hbegins⟩
      · rcases hR.follow hclosed ho' with ⟨hfailure, hnext⟩ | ⟨-, hlost⟩
        · have hexecute : (p.execute looks).run (s.withOutputs o) =
              (ended ended? (u.outputs.follow (.closed (Run.failure? ended?))).2).run
                ((u.perform (.closed (Run.failure? ended?))).withOutputs
                  (o'.follow (.closed (Run.failure? ended?))).1) := by
            rw [run_execute_ended, hrun', ← hfailure]
            rfl
          exact (hrest _ hnext).of_run_eq hexecute
        · refine .inr (hstrays _ _ hlost fun result' t' h' => ?_)
          cases hrun'.symm.trans h'
          exact List.prefix_rfl
      · refine .inr (hstrays _ _ hlost fun result' t' h' => ?_)
        exact (hbegins _ _ h').trans (List.prefix_append _ _)

end Execution

section Mirrors

/-- A relation between the outputs of two runs that each entry of the journal keeps, with the same
failure. It may depend on where the first run leads to. -/
structure Mirror (R : Outputs → Outputs → Prop) (leads : RunState → Prop) : Prop where
  same : ∀ {s t : RunState}, t.outputs = s.outputs → t.journal = s.journal → leads t → leads s
  before : ∀ {s : RunState} {e}, leads (s.perform e) → leads s
  follow : ∀ {s : RunState} {e o}, leads (s.perform e) → R s.outputs o →
    (o.follow e).2 = (s.outputs.follow e).2 ∧ R (s.outputs.follow e).1 (o.follow e).1
  refuse : ∀ {s : RunState} {item e o}, leads s → R s.outputs o →
    s.outputs.stage item = .error e → o.stage item = .error e
  makeFolders : ∀ {s : RunState} {path o}, leads (s.perform (.moved path)) → R s.outputs o →
    (o.disk.makeFolders path).2 = (s.outputs.disk.makeFolders path).2

/-- A step goes the same way from a state with other outputs. -/
def Run.Mirrored (R : Outputs → Outputs → Prop) (leads : RunState → Prop) (x : Run α) : Prop :=
  ∀ s result t, x.run s = some (result, t) → leads t → leads s ∧ ∀ o, R s.outputs o →
    ∃ o', R t.outputs o' ∧ x.run (s.withOutputs o) = some (result, t.withOutputs o')

variable {R : Outputs → Outputs → Prop} {leads : RunState → Prop}

theorem Mirror.tandem (hR : Mirror R leads) : Tandem (fun _ => R) leads fun _ => False where
  same := hR.same
  before := hR.before
  follow hleads ho := .inl (hR.follow hleads ho)
  refuse := hR.refuse
  makeFolders := hR.makeFolders

theorem Program.mirrored_execute (hR : Mirror R leads) (looks : Nat) (p : Program) :
    Run.Mirrored R leads (p.execute looks) := by
  intro s result t h hleads
  obtain ⟨hs, hsecond⟩ := (p.tandem_execute hR.tandem looks).follows s result t h hleads
  exact ⟨hs, fun o ho => (hsecond o ho).resolve_right fun ⟨_, hlost, _⟩ => hlost⟩

end Mirrors
end ChainQuery
