import ChainQuery.Proofs.Execution.Atomicity
import ChainQuery.Proofs.Execution.Fragments
import ChainQuery.Proofs.Output.Retries
import ChainQuery.Proofs.Scan.Bounded

/-!
# Programs that end

Instructions in which every scan has an upper bound have a result in every state, whatever the chain,
the connector and the receivers of requests answer. Scans, deliveries and calls to a node are the loops
of a run, and each of them is limited.
-/

namespace ChainQuery

def Fragment.bounded : Fragment where
  filter f := ∀ range, f = .blocks range → range.last ≠ .continuous
  term _ := True

/-- A scan returns from every state in which its lower bound resolves, and it is the loop that counts
up from there, with as many looks as there are numbers between its bounds or more. -/
def Scan.Ends (looks : Nat) (range : BlockRange) (body : Run Unit) : Prop :=
  ∀ (s s' : RunState) (first allowed : Nat), range.first.resolveFirst.run s = some (.ok first, s') →
    (∀ last t, range.last.resolve.run s' = some (.ok (some last), t) →
      last < numberBound ∧ last + 1 - first ≤ allowed) →
    ∃ result t, (Scan.run looks range body).run s = some (result, t) ∧
      (Scan.rounds body (.ofBound range.last) first allowed).run s' = some (result, t)

namespace Run

theorem returns_outcome {x : Run α} (hx : Returns x) : Returns (outcome x) := by
  intro s
  rw [run_outcome, Option.isSome_map]
  exact hx s

theorem returns_raise (e : ExecutionError) : Returns (raise e : Run α) :=
  fun _ => rfl

theorem returns_visiting {body : Run Unit} (hbody : Returns body) (e : Element)
    (he : e.cursor ≠ .block) : Returns (do resume (← visiting e body)) := by
  intro s
  rw [run_resume_visiting e he, Option.isSome_map]
  exact hbody _

theorem inherits_returns {F : Fragment}
    (hF : ∀ range, F.filter (.blocks range) → range.last ≠ .continuous) :
    Inherits F fun _ => Returns where
  pure _ := fun _ => rfl
  raise := returns_raise
  fail _ _ := fun _ => rfl
  view _ := returns_inView _
  look _ hf := fun s => hf s s
  bind := returns_bind
  catches hx hok herror := by
    refine returns_bind (returns_outcome hx) fun result => ?_
    cases result with
    | ok a => exact hok a
    | error e =>
      rw [herror]
      exact fun _ => rfl
  beginning _ := fun _ => rfl
  note _ := fun _ => rfl
  bound _ := fun _ => rfl
  attached _ := fun _ => rfl
  staged item := by
    intro s
    rw [Emission.run_stage]
    cases s.outputs.stage item with
    | ok _ => rfl
    | error e => rfl
  moved path := by
    intro s
    rw [Statement.run_setFolder]
    cases (s.outputs.disk.makeFolders path).2 with
    | none => rfl
    | some e => rfl
  -- the only step without a result
  exhausted hrange hlast := absurd hlast (hF _ hrange)
  visitBlock b _ hbody := by
    intro s
    rw [Scan.run_visit_map, Option.isSome_map]
    exact hbody _
  visitTransaction t _ hbody := returns_visiting hbody (.transaction t) t.cursor_ne_block
  candidates _ := returns_inView _
  visitLogEntry l _ hbody := returns_visiting hbody (.logEntry l) l.cursor_ne_block

end Run

theorem Fragment.returns_bounded : Run.Inherits .bounded fun _ => Run.Returns :=
  Run.inherits_returns fun range h => h range rfl

theorem Scan.ends_of_returns {range : BlockRange} (hbound : range.last ≠ .continuous) (looks : Nat)
    {body : Run Unit} (hreturns : Run.Returns (Scan.run looks range body)) :
    Ends looks range body := by
  intro s s' first allowed hfirst hallowed
  obtain ⟨⟨result, t⟩, hrun⟩ := Option.isSome_iff_exists.mp (hreturns s)
  exact ⟨result, t, hrun, (run_eq_rounds hbound looks hfirst hallowed).symm.trans hrun⟩

namespace Program

theorem returns_execute {p : Program} (hp : Instruction.WithinAll .bounded p.instructions)
    (looks : Nat) (s : RunState) : (p.run? looks s).isSome := by
  obtain ⟨⟨result, t⟩, hrun⟩ :=
    Option.isSome_iff_exists.mp (Fragment.returns_bounded.executeEach looks hp s)
  rw [run?, run_execute_ended, hrun]
  rcases result with fatal | _
  · rfl
  · show ((ended (.ok ()) (t.outputs.follow (.closed none)).2).run _).isSome
    cases (t.outputs.follow (.closed none)).2 <;> rfl

/-- A run makes at most one post more than there may be retries for each request that waits at its
start or is staged in it. -/
theorem posts_of_run {p : Program} {looks : Nat} {s t : RunState}
    {result : Except ExecutionError Unit} (hrun : p.run? looks s = some (result, t)) :
    ∃ j, t.journal = s.journal ++ j ∧ t.outputs.wire.sent.length ≤ s.outputs.posts +
      (s.outputs.deliveries.retry.maxRetries + 1) *
        (j.items.filterMap OutputItem.request?).length := by
  obtain ⟨u, failure, ⟨j, -, hleads⟩, hquiet⟩ :=
    Program.state_of_run (laws_traced .block) looks (Nat.le_refl _) hrun
  refine ⟨j ++ [.closed failure], ?_, ?_⟩
  · rw [hquiet.journal, ← List.append_assoc, ← hleads.journal]
    rfl
  · have houtputs : t.outputs = s.outputs.replay (j ++ [.closed failure]) := by
      rw [hquiet.outputs, Outputs.replay_concat, ← hleads.outputs]
      rfl
    rw [houtputs]
    exact Nat.le_trans (Nat.le_add_right _ _) (s.outputs.posts_replay _).2

end Program

/-- A program in which every scan has an upper bound ends, whatever it is connected to: it has a result
from every state, each of its scans takes at most one look for each number between its bounds, and
each delivery and each call to a node at most one try more than the settings allow retries. -/
theorem bounded_programs_end {p : Program} (hp : Instruction.WithinAll .bounded p.instructions)
    (looks : Nat) (s : RunState) :
    (∃ result t j, p.run? looks s = some (result, t) ∧ t.journal = s.journal ++ j ∧
      t.outputs.wire.sent.length ≤ s.outputs.posts + (s.outputs.deliveries.retry.maxRetries + 1) *
        (j.items.filterMap OutputItem.request?).length) ∧
    (∀ range body, (Instruction.filter (.blocks range) body).Within .bounded →
      Scan.Ends looks range (executeAll looks body)) ∧
    (∀ (c : RetryConfig) (d : Delivery) (w : Wire), ∃ reply after,
      c.tries (fun r => !r.isSuccess) d.send w 0 (c.maxRetries + 1) = some (reply, after) ∧
        d.attempt w c.maxRetries = (after, reply.isSuccess)) ∧
    ∀ (c : NodeClient) (method : String) (params : Json),
      c.retry.tries TransportError.callAgain (fun c => c.send method params) c 0
        (c.retry.maxRetries + 1) = some (c.sendUpTo method params c.retry.maxRetries) := by
  refine ⟨?_, ?_, ?_, ?_⟩
  · obtain ⟨⟨result, t⟩, hrun⟩ := Option.isSome_iff_exists.mp (Program.returns_execute hp looks s)
    obtain ⟨j, hjournal, hposts⟩ := Program.posts_of_run hrun
    exact ⟨result, t, j, hrun, hjournal, hposts⟩
  · intro range body hwithin
    refine Scan.ends_of_returns ?_ looks ?_
    · rw [Instruction.Within] at hwithin
      exact hwithin.1 range rfl
    · have hexecute := Fragment.returns_bounded.execute looks hwithin
      rwa [Instruction.execute] at hexecute
  · intro c d w
    have htries := c.tries_eq_tryUpTo (fun r => !r.isSuccess) d.send (Nat.zero_le _)
      (Nat.lt_succ_self _) w
    exact ⟨_, _, htries, d.attempt_eq_tryUpTo w c.maxRetries⟩
  · intro c method params
    have htries := c.retry.tries_eq_tryUpTo TransportError.callAgain
      (fun c => c.send method params) (Nat.zero_le _) (Nat.lt_succ_self _) c
    rw [c.sendUpTo_eq_tryUpTo method params]
    exact htries

/-- Posts a text to an address that never answers, in a scan within a scan that puts off the number it
is to end at. -/
def boundPutOff : Program :=
  ⟨[.assign ⟨"last"⟩ (.literal (.int 2)),
    .filter (.blocks ⟨.number (.literal (.int 1)), .number (.named "last")⟩)
      [.assign ⟨"last"⟩ (.literal (.int 9)),
        singleScan [.emit (.request (.literal (.str "http://silent")) [])]]]⟩

theorem bounded_programs_end_boundPutOff :
    ∃ result t, boundPutOff.run? 0 singleStart = some (result, t) ∧ t.errors.reported = 1 ∧
      t.outputs.wire.sent.length = 4 ∧ t.outputs.wire.sent.length ≤
        0 + 4 * (t.journal.items.filterMap OutputItem.request?).length := by
  have hp : Instruction.WithinAll .bounded boundPutOff.instructions := by
    simp [boundPutOff, singleScan, Instruction.WithinAll, Instruction.Within, Fragment.bounded]
  have hcounts : (boundPutOff.run? 0 singleStart).map (fun (_, t) =>
      (t.errors.reported, t.outputs.wire.sent.length)) = some (1, 4) := by decide +kernel
  obtain ⟨⟨result, t, j, hrun, hjournal, hposts⟩, -⟩ := bounded_programs_end hp 0 singleStart
  rw [hrun, Option.map_some, Option.some.injEq, Prod.mk.injEq] at hcounts
  refine ⟨result, t, hrun, hcounts.1, hcounts.2, ?_⟩
  rw [hjournal]
  exact hposts

end ChainQuery
