import ChainQuery.Proofs.Execution.Fragments
import ChainQuery.Proofs.Execution.Laws

/-!
# Relations that every change keeps

A run changes its state in few ways. A relation between states that each of them keeps is kept by every
instruction, in every state.
-/

namespace ChainQuery

/-- A relation that every change keeps, those that stage an item apart. -/
structure RunState.Changes (R : RunState → RunState → Prop) : Prop where
  refl : ∀ s, R s s
  trans : ∀ {s t u}, R s t → R t u → R s u
  began : ∀ s i, R s (s.log (.began i s.toView))
  raised : ∀ s e, R s (s.log (.raised e))
  handled : ∀ s context e, R s (s.handle context e)
  asked : ∀ s i, R s (s.note i)
  bound : ∀ s bindings, R s (s.setVariables bindings)
  attached : ∀ (s : RunState) chain, R s { s with chain := some chain }
  moved : ∀ s path, R s (s.perform (.moved path))
  entered : ∀ s e, R s (s.enter e)
  left : ∀ s c failure, R s (s.exit c failure)

namespace Run

variable {R : RunState → RunState → Prop}

theorem keeps_of_run {x : Run α} {result : RunState → Except ExecutionError α}
    {next : RunState → RunState} (hrun : ∀ s, x.run s = some (result s, next s))
    (hnext : ∀ s, R s (next s)) : Keeps R x := by
  intro s result' t h
  rw [hrun] at h
  cases h
  exact hnext s

end Run

namespace RunState.Changes
open Run
variable {R : RunState → RunState → Prop} (hR : Changes R)
include hR

theorem keeps_pure (a : α) : Keeps R (pure a) :=
  keeps_of_run (fun _ => rfl) hR.refl

theorem keeps_raise (e : ExecutionError) : Keeps R (raise e : Run α) :=
  keeps_of_run (fun _ => rfl) fun s => hR.raised s e

theorem keeps_report (context : String) (e : ExecutionError) : Keeps R (report context e) :=
  keeps_of_run (fun _ => rfl) fun s => hR.handled s context e

theorem keeps_fail (context : String) (e : ExecutionError) : Keeps R (Run.fail context e) :=
  keeps_of_run (fun _ => rfl) fun s => hR.trans (hR.raised s e) (hR.handled _ context e)

theorem keeps_inView (read : View → Except ExecutionError α) : Keeps R (inView read) := by
  intro s result t h
  rw [inView, run_get_bind] at h
  cases hread : read s.toView with
  | ok a =>
    rw [hread] at h
    exact hR.keeps_pure a _ _ _ h
  | error e =>
    rw [hread] at h
    exact hR.keeps_raise e _ _ _ h

theorem keeps_visit (e : Element) (he : e.cursor ≠ .block) {body : Run Unit} (hbody : Keeps R body) :
    Keeps R (do resume (← visiting e body)) :=
  keeps_visiting hbody e he fun s t _ hst =>
    hR.trans (hR.entered s e) (hR.trans hst (hR.left t _ _))

theorem keeps_catches {x : Run α} {f : Except ExecutionError α → Run Unit} {context : String}
    (hx : Keeps R x) (hok : ∀ a, Keeps R (f (.ok a)))
    (herror : ∀ e, f (.error e) = report context e) : Keeps R (outcome x >>= f) :=
  Keeps.bind (keeps_outcome hx) hR.trans fun result => by
    cases result with
    | ok a => exact hok a
    | error e =>
      rw [herror]
      exact hR.keeps_report context e

theorem keeps_setFolder (path : String) : Keeps R (Statement.setFolder path) := by
  intro s result t h
  rw [Statement.run_setFolder] at h
  cases hmake : (s.outputs.disk.makeFolders path).2 with
  | none =>
    rw [hmake] at h
    cases h
    exact hR.moved s path
  | some e =>
    rw [hmake] at h
    exact hR.trans (hR.moved s path) (hR.keeps_raise _ _ _ _ h)

theorem keeps_scanVisit (b : Block) {body : Run Unit} (hbody : Keeps R body) :
    Keeps R (Scan.visit body b) := by
  have hended := Scan.ended_of (P := Keeps R) (hR.keeps_pure ()) hR.keeps_report hR.keeps_fail
  intro s result t h
  rw [Scan.run_visit_ended] at h
  rcases hrun : body.run (s.enter (.block b)) with _ | ⟨result', u⟩
  · rw [hrun] at h
    cases h
  · rw [hrun] at h
    have hu := hR.trans (hR.entered s (.block b)) (hbody _ _ _ hrun)
    exact hR.trans (hR.trans hu (hR.left u .block _)) (hended _ _ _ _ _ _ h)

end RunState.Changes

namespace Run
variable {R : RunState → RunState → Prop}

theorem composes_keeps (hR : RunState.Changes R) : Composes .all fun _ => Keeps R where
  pure := hR.keeps_pure
  raise := hR.keeps_raise
  fail := hR.keeps_fail
  view _ := hR.keeps_inView _
  look _ hf s result t h := hf s s result t h
  bind hx hf := Keeps.bind hx hR.trans hf
  catches := hR.keeps_catches
  beginning i := keeps_of_run (fun _ => rfl) fun s => hR.began s i
  note i := keeps_of_run (fun _ => rfl) fun s => hR.asked s i
  bound bindings := keeps_of_run (fun _ => rfl) fun s => hR.bound s bindings
  attached chain := keeps_of_run (fun _ => rfl) fun s => hR.attached s chain
  moved := hR.keeps_setFolder
  exhausted _ _ := keeps_exhausted
  visitBlock b _ hbody := hR.keeps_scanVisit b hbody
  visitTransaction t _ hbody := hR.keeps_visit (.transaction t) t.cursor_ne_block hbody
  candidates _ := hR.keeps_inView _
  visitLogEntry l _ hbody := hR.keeps_visit (.logEntry l) l.cursor_ne_block hbody

theorem inherits_keeps (hR : RunState.Changes R)
    (hstaged : ∀ s item, R s (s.perform (.staged item))) : Inherits .all fun _ => Keeps R where
  toComposes := composes_keeps hR
  staged := by
    intro item s result t h
    rw [Emission.run_stage] at h
    cases hstage : s.outputs.stage item with
    | error e =>
      rw [hstage] at h
      cases h
      exact hR.raised s _
    | ok o =>
      rw [hstage] at h
      cases h
      exact hstaged s item

end Run
end ChainQuery
