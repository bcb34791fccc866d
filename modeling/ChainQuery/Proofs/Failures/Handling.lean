import ChainQuery.Proofs.Execution.Traces
import ChainQuery.Proofs.Failures.Accounts

/-!
# The handling of failures

A failure is recorded in the first scope that handles it. If it ends the run, nothing happens after
that but the unwinding of the scopes around, and it is the result of the run.
-/

namespace ChainQuery

/-- Every path from a fresh state tells a story, which accounts for the changes of the state. -/
theorem Path.story {f : Flight} {s t : RunState} (hpath : Path .going s f t) (hs : s.Unspoilt) :
    s.Recounts t ∧ Flight.Story s.errors.abortOnError f t.deeds := by
  generalize hg : Flight.going = g at hpath
  induction hpath with
  | refl =>
    subst hg
    rw [hs.deeds]
    exact ⟨hs.recounts, .nil⟩
  | step _ hmove ih =>
    obtain ⟨hrecounts, hstory⟩ := ih hs
    rcases hmove.adds with ⟨d, hadds, hnext⟩ | ⟨rfl, chain, rfl⟩
    · rw [hrecounts.abortOnError] at hnext
      rw [hadds.deeds]
      exact ⟨hrecounts.adds hadds, hstory.cons hnext⟩
    · exact ⟨⟨hrecounts.asked, hrecounts.journal, hrecounts.bound, hrecounts.abortOnError,
        hrecounts.reported, hrecounts.recent⟩, hstory⟩

namespace Deed

/-- The last deeds are a new failure and the ends of the visits that it leaves. -/
def Risen (e : ExecutionError) (deeds : List Deed) : Prop :=
  ∃ leaving earlier, deeds = leaving ++ .raised e :: earlier ∧
    ∀ d ∈ leaving, ∃ c, d = .noted (.left c (some e))

/-- What a failure that ends the run still does: it leaves visits, passes through the scopes around,
and closes the outputs. -/
def Unwinds (e : ExecutionError) (d : Deed) : Prop :=
  (∃ c, d = .noted (.left c (some e))) ∨ (∃ context, d = .passed context e) ∨
    d = .noted (.closed (some e))

end Deed

namespace Flight

/-- Where the failure in flight comes from. -/
def Tells : Flight → List Deed → Prop
  | going, _ => True
  | flying e, deeds => Deed.Risen e deeds
  | ending e, deeds => ∃ context, .recorded context e true ∈ deeds

section Stories
variable {abort : Bool} {f g : Flight} {d : Deed} {deeds : List Deed}

theorem Tells.next (h : f.Tells deeds) (hnext : Next abort f d g) : g.Tells (d :: deeds) := by
  cases hnext with
  | raised e => exact ⟨[], deeds, rfl, List.forall_mem_nil _⟩
  | @left _ e c hf =>
    cases f with
    | going => cases hf
    | flying e' =>
      cases hf
      obtain ⟨leaving, earlier, rfl, hleaving⟩ := h
      exact ⟨_ :: leaving, earlier, rfl, List.forall_mem_cons.mpr ⟨⟨c, rfl⟩, hleaving⟩⟩
    | ending e' => exact h.imp fun _ => List.mem_cons_of_mem _
  | recorded context e =>
    cases (e.isFatal || abort) with
    | false => trivial
    | true => exact ⟨context, List.mem_cons_self⟩
  | passed _ _ => exact h.imp fun _ => List.mem_cons_of_mem _
  | closed _ => exact h.imp fun _ => List.mem_cons_of_mem _
  | _ => trivial

theorem Story.tells (h : Story abort f deeds) : f.Tells deeds := by
  induction h with
  | nil => trivial
  | cons _ hnext ih => exact ih.next hnext

/-- A failure is recorded only when it is new, and it ends the run if it is fatal or the run aborts on
failures. -/
theorem Story.recorded (h : Story abort f deeds) {later earlier : List Deed} {context : String}
    {e : ExecutionError} {ends : Bool} (hsplit : deeds = later ++ .recorded context e ends :: earlier) :
    ends = (e.isFatal || abort) ∧ Deed.Risen e earlier := by
  induction h generalizing later with
  | nil => simp at hsplit
  | @cons f g d deeds hstory hnext ih =>
    rcases later with _ | ⟨d', later⟩
    · obtain ⟨rfl, rfl⟩ := List.cons.inj hsplit
      cases hnext with
      | recorded => exact ⟨rfl, hstory.tells⟩
    · exact ih (List.cons.inj hsplit).2

/-- Only unwinding follows on a failure that ends the run. -/
theorem Story.unwinds (h : Story abort f deeds) {later earlier : List Deed} {context : String}
    {e : ExecutionError} (hsplit : deeds = later ++ .recorded context e true :: earlier) :
    f = .ending e ∧ ∀ d ∈ later, d.Unwinds e := by
  induction h generalizing later with
  | nil => simp at hsplit
  | @cons f g d deeds hstory hnext ih =>
    rcases later with _ | ⟨d', later⟩
    · obtain ⟨rfl, rfl⟩ := List.cons.inj hsplit
      generalize hends : true = ends at hnext
      cases hnext with
      | recorded =>
        rw [← hends]
        exact ⟨rfl, List.forall_mem_nil _⟩
    · obtain ⟨rfl, hrest⟩ := List.cons.inj hsplit
      obtain ⟨rfl, hlater⟩ := ih hrest
      cases hnext with
      | left c hf =>
        cases hf
        exact ⟨rfl, List.forall_mem_cons.mpr ⟨.inl ⟨c, rfl⟩, hlater⟩⟩
      | passed context' _ =>
        exact ⟨rfl, List.forall_mem_cons.mpr ⟨.inr (.inl ⟨context', rfl⟩), hlater⟩⟩
      | closed _ => exact ⟨rfl, List.forall_mem_cons.mpr ⟨.inr (.inr rfl), hlater⟩⟩

end Stories
end Flight

/-- Every failure of a run is recorded at most once, where it is handled first. One that ends the run
is its result, and nothing happens after it; without one only the closing of the outputs can fail. -/
theorem failures_of_run {looks : Nat} {p : Program} {s t : RunState}
    {result : Except ExecutionError Unit} (hs : s.Unspoilt)
    (hrun : p.run? looks s = some (result, t)) :
    (∃ f, Path .going s f t) ∧
    (∀ f u, Path .going s f u → s.Recounts u) ∧
    (∀ later context e ends earlier, t.deeds = later ++ .recorded context e ends :: earlier →
      ends = (e.isFatal || s.errors.abortOnError) ∧ Deed.Risen e earlier) ∧
    (∀ later context e earlier, t.deeds = later ++ .recorded context e true :: earlier →
      result = .error e ∧ ∀ d ∈ later, d.Unwinds e) ∧
    ((∀ context e, .recorded context e true ∉ t.deeds) → ∀ e, result = .error e →
      ∃ u w, (Program.executeEach looks p.instructions).run s = some (.ok (), u) ∧
        u.outputs.endProgram.2 = some w ∧ e = .writer w) := by
  have hgoing : s.errors.aborting = false := by rw [hs.errors]
  obtain ⟨f, hpath, hf⟩ := Program.travels_run hgoing hrun
  have hstory := (hpath.story hs).2
  refine ⟨⟨f, hpath⟩, fun _ _ hpath' => (hpath'.story hs).1, fun _ _ _ _ _ => hstory.recorded, ?_, ?_⟩
  · intro later context e earlier hsplit
    obtain ⟨rfl, hlater⟩ := hstory.unwinds hsplit
    refine ⟨?_, hlater⟩
    cases result with
    | ok _ => cases hf
    | error e' =>
      cases hf
      rfl
  · rintro hnone e rfl
    rcases Program.run_cases hrun with
      ⟨u, hbody, ⟨-, hok, -⟩ | ⟨w, hw, herror, -⟩⟩ | ⟨u, fatal, hbody, -, rfl⟩
    · cases hok
    · cases herror
      exact ⟨u, w, hbody, hw, rfl⟩
    · obtain ⟨g, hpath', hg, hsettled⟩ := Program.settles_executeEach looks _ s _ _ hgoing hbody
      cases g with
      | going => cases hg
      | flying e' => exact absurd rfl (hsettled e')
      | ending e' =>
        obtain ⟨context, hmem⟩ := (hpath'.story hs).2.tells
        exact absurd (List.mem_cons_of_mem _ hmem) (hnone context e')

/-- A program whose first instruction fails, in a run that failures abort. -/
def abortedStart : RunState :=
  { RunState.start { abortOnError := true } {} {} with chain := some .single }

theorem failures_of_aborted :
    ∃ t, (Program.mk [.assign ⟨"x"⟩ (.named "y"), .connect ""]).run? 0 abortedStart =
        some (.error (.unknownVariable "y"), t) ∧
      (∀ f u, Path .going abortedStart f u → abortedStart.Recounts u) ∧
      ∃ context later earlier,
        t.deeds = later ++ .recorded context (.unknownVariable "y") true :: earlier ∧
          ∀ d ∈ later, d.Unwinds (.unknownVariable "y") := by
  obtain ⟨t, hrun, later, earlier, hdeeds⟩ : ∃ t,
      (Program.mk [.assign ⟨"x"⟩ (.named "y"), .connect ""]).run? 0 abortedStart =
        some (.error (.unknownVariable "y"), t) ∧ ∃ later earlier,
      t.deeds = later ++ .recorded "assignment" (.unknownVariable "y") true :: earlier :=
    ⟨_, rfl, [_], _, rfl⟩
  obtain ⟨-, hrecounts, -, hunwinds, -⟩ := failures_of_run ⟨rfl, rfl⟩ hrun
  exact ⟨t, hrun, hrecounts, _, later, earlier, hdeeds, (hunwinds _ _ _ _ hdeeds).2⟩

end ChainQuery
