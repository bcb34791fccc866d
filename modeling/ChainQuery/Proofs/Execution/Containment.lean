import ChainQuery.Proofs.Execution.Moves

/-!
# Contained failures

Each element of a scan or of a filter has a guard, so that no failure comes out of these steps but one
that ends the run. Another guard around such a step handles nothing.
-/

namespace ChainQuery.Run

variable {x : Run α} {f : α → Run β} {s : RunState}

/-- A failure that comes out of a step ends the run. -/
def Contained (x : Run α) (s : RunState) : Prop :=
  ∀ e t, x.run s = some (.error e, t) → t.errors.aborting = true

theorem contained_pure (a : α) (s : RunState) : Contained (pure a) s := by
  intro e t hrun
  cases hrun

theorem contained_bind (hx : Contained x s)
    (hf : ∀ a t, x.run s = some (.ok a, t) → Contained (f a) t) : Contained (x >>= f) s := by
  intro e t hrun
  rw [run_bind] at hrun
  rcases hfirst : x.run s with _ | ⟨e' | a, u⟩
  · rw [hfirst] at hrun
    cases hrun
  · rw [hfirst] at hrun
    cases hrun
    exact hx e t hfirst
  · rw [hfirst] at hrun
    exact hf a u hfirst e t hrun

theorem contained_report (context : String) (e : ExecutionError) (s : RunState) :
    Contained (report context e) s := by
  intro e' t hrun
  obtain ⟨hthrown, rfl⟩ := Prod.mk.inj (Option.some.inj hrun)
  by_cases haborting : s.errors.aborting = true
  · show (s.errors.handle context e).2.aborting = true
    rw [ErrorRecord.handle_aborting context e haborting]
    exact haborting
  · have hgoing := eq_false_of_ne_true haborting
    rw [RunState.aborting_handle context e hgoing]
    have hresult : (s.errors.handle context e).1 = .error e' := hthrown
    rw [ErrorRecord.handle, hgoing] at hresult
    by_cases hends : s.errors.ends e = true
    · exact hends
    · rw [eq_false_of_ne_true hends] at hresult
      cases hresult

theorem contained_fail (context : String) (e : ExecutionError) (s : RunState) :
    Contained (fail context e) s :=
  contained_report context e (s.log (.raised e))

theorem contained_guarded (context : String) (x : Run Unit) (s : RunState) :
    Contained (guarded context x) s := by
  refine contained_bind ?_ fun result t _ => ?_
  · intro e t hrun
    rw [run_outcome] at hrun
    obtain ⟨p, -, heq⟩ := Option.map_eq_some_iff.mp hrun
    cases heq
  · cases result with
    | ok _ => exact contained_pure _ t
    | error e => exact contained_report context e t

theorem contained_logEntries (contracts : AddressCriterion) (signature : Option EventSignature)
    (body : Run Unit) (ls : List LogEntry) (s : RunState) :
    Contained (LogEntryScope.visitAll contracts signature body ls) s := by
  induction ls generalizing s with
  | nil => exact contained_pure _ s
  | cons l ls ih => exact contained_bind (contained_guarded _ _ s) fun _ u _ => ih u

/-- What a guard adds to a failure that ends the run is a deed. -/
def passing (context : String) : Except ExecutionError Unit → RunState → RunState
  | .ok _, s => s
  | .error e, s => s.log (.passed context e)

/-- A guard lets the failures of a contained step pass. -/
theorem run_guarded_contained {x : Run Unit} (context : String) (hx : Contained x s) :
    (guarded context x).run s = (x.run s).map fun p => (p.1, passing context p.1 p.2) := by
  rw [guarded, run_bind, run_outcome]
  rcases hrun : x.run s with _ | ⟨e | _, t⟩
  · rfl
  · have haborting := hx e t hrun
    have hhandle := ErrorRecord.handle_aborting context e haborting
    show some ((t.errors.handle context e).1, t.handle context e) = some (.error e, _)
    rw [RunState.handle, hhandle, if_pos haborting]
    rfl
  · rfl

/-- A guard around two steps of which the first is contained is one guard around each. -/
theorem run_guarded_bind {x y : Run Unit} (context : String) (hx : Contained x s) :
    (guarded context (do x; y)).run s = (do guarded context x; guarded context y : Run Unit).run s := by
  rw [run_bind, run_guarded_contained context hx, guarded, run_bind, run_outcome, run_bind]
  rcases hrun : x.run s with _ | ⟨e | _, t⟩
  · rfl
  · have hguarded := run_guarded_contained context hx
    rw [guarded, run_bind, run_outcome, hrun] at hguarded
    exact hguarded
  · show _ = (guarded context y).run t
    rw [guarded, run_bind, run_outcome]

end ChainQuery.Run
