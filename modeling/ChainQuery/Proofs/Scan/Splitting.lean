import ChainQuery.Proofs.Execution.Agreement
import ChainQuery.Proofs.Execution.Atomicity
import ChainQuery.Proofs.Execution.Changes
import ChainQuery.Proofs.Execution.Containment
import ChainQuery.Proofs.Value.Integers

/-!
# Scans in two parts

A scan between two numbers can be made in two scans, one after the other, of the numbers up to one in
between and of those after it. At the top of a program nothing shows the difference, also where the
scan fails or is cancelled.
-/

namespace ChainQuery

theorem Bound.fixed?_literal {n : Nat} (hn : n < Value.blockNumberBound) :
    (Bound.number (.literal (.int n))).fixed? = some n := by
  rw [fixed?, Value.toBlockNumber_int (Int.natCast_nonneg n) (Int.ofNat_lt.mpr hn),
    Int.toNat_natCast]
  rfl

theorem Bound.resolve_of_fixed? {b : Bound} {number : Nat} (h : b.fixed? = some number) :
    b.resolve = return some number := by
  cases b with
  | earliest =>
    cases h
    rfl
  | current => cases h
  | continuous => cases h
  | number t =>
    cases t with
    | named name => cases h
    | chain f => cases h
    | literal v =>
      have hnumber : v.toBlockNumber = .ok number := by
        cases hv : v.toBlockNumber with
        | error e =>
          rw [fixed?, hv] at h
          cases h
        | ok n =>
          rw [fixed?, hv] at h
          exact congrArg Except.ok (Option.some.inj h)
      have hread : Run.inView (Term.literal v).eval = return v := rfl
      rw [Bound.resolve, hread, pure_bind]
      cases v with
      | null => cases hnumber
      | _ =>
        simp only [hnumber]
        rfl

/-- A chain that is attached stays so, or another one takes its place. -/
theorem changes_attached : RunState.Changes fun s t => s.chain.isSome → t.chain.isSome where
  refl _ h := h
  trans hst htu h := htu (hst h)
  began _ _ h := h
  raised _ _ h := h
  handled _ _ _ h := h
  asked _ _ h := h
  bound _ _ h := h
  attached _ _ _ := rfl
  moved _ _ h := h
  entered _ e h := by cases e <;> exact h
  left _ c _ h := by cases c <;> exact h

namespace Scan

section Walks
variable {body : Run Unit} {s : RunState}

theorem run_walk_cancelled (hs : s.cancelled = true) (number count : Nat) :
    (walk body number count).run s = some (.ok (), s) := by
  cases count with
  | zero => rfl
  | succ count =>
    rw [walk, Run.run_get_bind, if_pos hs]
    rfl

theorem run_walk_succ (hs : s.cancelled = false) (number count : Nat) :
    (walk body number (count + 1)).run s =
      (do look body number; walk body (number + 1) count : Run Unit).run s := by
  rw [walk, Run.run_get_bind, if_neg (by simp [hs])]

theorem walk_add (body : Run Unit) (number k l : Nat) :
    walk body number (k + l) = (do walk body number k; walk body (number + k) l) := by
  funext s
  show (walk body number (k + l)).run s = ((walk body number k) >>= fun _ => _ : Run Unit).run s
  induction k generalizing number s with
  | zero =>
    rw [Nat.zero_add]
    rfl
  | succ k ih =>
    rw [Nat.add_right_comm, Run.run_bind]
    by_cases hs : s.cancelled = true
    · rw [run_walk_cancelled hs, run_walk_cancelled hs]
      exact (run_walk_cancelled hs _ _).symm
    · have hawake := eq_false_of_ne_true hs
      rw [run_walk_succ hawake, run_walk_succ hawake, Run.run_bind, Run.run_bind]
      rcases (look body number).run s with _ | ⟨e | _, t⟩
      · rfl
      · rfl
      · show (walk body (number + 1) (k + l)).run t = _
        rw [ih (number + 1) t, Run.run_bind, Nat.add_assoc, Nat.add_comm 1 k]

theorem contained_ended (b : Block) (result : Except ExecutionError Unit)
    (failure : Option WriterError) (s : RunState) : Run.Contained (ended b result failure) s :=
  ended_of (P := fun x => Run.Contained x s) (Run.contained_pure _ s)
    (fun context e => Run.contained_report context e s)
    (fun context e => Run.contained_fail context e s) b result failure

theorem contained_visit (body : Run Unit) (b : Block) (s : RunState) :
    Run.Contained (visit body b) s := by
  intro e t hrun
  rw [run_visit_ended] at hrun
  rcases hbody : body.run (s.enter (.block b)) with _ | ⟨result, u⟩
  · rw [hbody] at hrun
    cases hrun
  · rw [hbody] at hrun
    exact contained_ended b result _ _ _ _ hrun

/-- With a chain attached, a look fails only if the run is to end. -/
theorem contained_look (body : Run Unit) (number : Nat) (hs : s.chain.isSome) :
    Run.Contained (look body number) s := by
  obtain ⟨chain, hchain⟩ := Option.isSome_iff_exists.mp hs
  intro e t hrun
  rw [run_look, hchain] at hrun
  simp only [play] at hrun
  rcases hanswer : chain.block s.asked number with e' | _ | b
  · rw [hanswer] at hrun
    exact Run.contained_fail _ _ (s.note (.block number)) _ _ hrun
  · rw [hanswer] at hrun
    exact Run.contained_fail _ _ (s.note (.block number)) _ _ hrun
  · rw [hanswer] at hrun
    exact contained_visit body b _ _ _ hrun

theorem contained_walk (hbody : Run.Keeps (fun s t => s.chain.isSome → t.chain.isSome) body)
    (hs : s.chain.isSome) (number count : Nat) : Run.Contained (walk body number count) s := by
  induction count generalizing number s with
  | zero => exact Run.contained_pure _ s
  | succ count ih =>
    intro e t hrun
    by_cases hcancelled : s.cancelled = true
    · rw [run_walk_cancelled hcancelled] at hrun
      cases hrun
    · rw [run_walk_succ (eq_false_of_ne_true hcancelled)] at hrun
      refine Run.contained_bind (contained_look body number hs) (fun _ u hlook => ?_) e t hrun
      refine ih ?_ (number + 1)
      have hfilter : Fragment.all.filter (.blocks ⟨.earliest, .earliest⟩) := trivial
      have hvisit := fun b => (Run.composes_keeps changes_attached).visitBlock b hfilter hbody
      exact (Run.composes_keeps changes_attached).scanLook hvisit number s _ u hlook hs

end Walks
end Scan

/-- A scan between two known numbers is a walk. -/
theorem Instruction.execute_blocks {f l : Bound} {first last : Nat} (hf : f.fixed? = some first)
    (hl : l.fixed? = some last) (hle : first ≤ last) (looks : Nat) (body : List Instruction) :
    (filter (.blocks ⟨f, l⟩) body).execute looks =
      Scan.walk (executeAll looks body) first (last + 1 - first) := by
  have hbound : l ≠ .continuous := by
    rintro rfl
    cases hl
  rw [execute, Filter.run, Scan.run_bounded hbound, Bound.resolveFirst, Bound.resolve_of_fixed? hf,
    Bound.resolve_of_fixed? hl, Nat.sub_add_comm hle]
  simp only [pure_bind, Scan.sweep, if_pos hle]
  rw [Scan.walk]

theorem Program.executeEach_append (looks : Nat) (is js : List Instruction) :
    executeEach looks (is ++ js) = (do executeEach looks is; executeEach looks js) := by
  induction is with
  | nil => rfl
  | cons i is ih =>
    rw [List.cons_append, executeEach, executeEach, ih, bind_assoc]

section Split
variable {f l m m' : Bound} {a b c : Nat} (hf : f.fixed? = some a) (hl : l.fixed? = some c)
variable (hm : m.fixed? = some b) (hm' : m'.fixed? = some (b + 1)) (hab : a ≤ b) (hbc : b < c)
include hf hl hm hm' hab hbc

/-- Between the two parts of a scan stands the end of a guard and the beginning of the next one. -/
theorem Program.executeEach_split (looks : Nat) (body rest : List Instruction) {s : RunState}
    (hs : s.chain.isSome) :
    Run.EndAlike (RunState.Apart Eq Eq)
      ((executeEach looks (.filter (.blocks ⟨f, l⟩) body :: rest)).run s)
      ((executeEach looks
        (.filter (.blocks ⟨f, m⟩) body :: .filter (.blocks ⟨m', l⟩) body :: rest)).run s) := by
  have hagree := Run.inherits_agree
    (Fragment.overlooks_journal .all (J := Eq) fun e h => congrArg (· ++ [e]) h)
  have hfilter : Fragment.all.filter (.blocks ⟨f, l⟩) := trivial
  have hwalk := hagree.walk fun b => hagree.visitBlock b hfilter
    (hagree.executeAll looks (Instruction.withinAll_all body))
  have hkeeps := (Run.inherits_keeps changes_attached fun _ _ h => h).executeAll looks
    (Instruction.withinAll_all body)
  have hcount : c + 1 - a = (b + 1 - a) + (c + 1 - (b + 1)) := by omega
  have hnext : a + (b + 1 - a) = b + 1 := by omega
  have hkind : ∀ range, (Instruction.filter (.blocks range) body).kind = "block filter" :=
    fun _ => rfl
  rw [executeEach, executeEach, executeEach, ← bind_assoc, hkind, hkind, hkind]
  refine Run.EndAlike.bind ?_ fun _ => hagree.executeEach looks (Instruction.withinAll_all rest)
  rw [Instruction.execute_blocks hf hl (by omega), Instruction.execute_blocks hf hm hab,
    Instruction.execute_blocks hm' hl hbc]
  -- no failure comes out of the first walk but one that ends the run, so one guard will do for both
  rw [← Run.run_guarded_bind]
  · rw [bind_assoc, hcount, Scan.walk_add, hnext]
    have hparts := Run.agree_bind (Run.agree_beginning (.filter (.blocks ⟨f, l⟩) body)
      (.filter (.blocks ⟨f, m⟩) body)) fun _ => Run.agree_bind (hwalk a (b + 1 - a)) fun _ =>
        Run.agree_begun (hwalk (b + 1) (c + 1 - (b + 1))) (.filter (.blocks ⟨m', l⟩) body)
    exact (hparts s s ⟨rfl, rfl, rfl⟩).guarded _
  · refine Run.contained_bind (fun _ _ h => by cases h) fun _ t ht => ?_
    cases ht
    exact Scan.contained_walk (s := s.log _) hkeeps hs _ _

/-- A scan between two numbers and its two parts, one after the other at the top of a program, lead to
the same result and the same state, up to the deeds. -/
theorem split_scan (looks : Nat) (before body after : List Instruction) (s : RunState)
    (hs : ∀ t, (Program.executeEach looks before).run s = some (.ok (), t) → t.chain.isSome) :
    Run.EndAlike (fun t u => u = { t with deeds := u.deeds })
      (Program.run? looks ⟨before ++ .filter (.blocks ⟨f, l⟩) body :: after⟩ s)
      (Program.run? looks ⟨before ++ .filter (.blocks ⟨f, m⟩) body ::
        .filter (.blocks ⟨m', l⟩) body :: after⟩ s) := by
  have hends : Run.EndAlike (RunState.Apart Eq Eq)
      (Program.run? looks ⟨before ++ .filter (.blocks ⟨f, l⟩) body :: after⟩ s)
      (Program.run? looks ⟨before ++ .filter (.blocks ⟨f, m⟩) body ::
        .filter (.blocks ⟨m', l⟩) body :: after⟩ s) := by
    refine Run.EndAlike.run? (fun e h => congrArg (· ++ [e]) h) ?_
    rw [Program.executeEach_append, Program.executeEach_append, Run.run_bind, Run.run_bind]
    rcases hbefore : (Program.executeEach looks before).run s with _ | ⟨e | _, t⟩
    · exact .none
    · exact .some ⟨rfl, rfl, rfl, rfl⟩
    · exact Program.executeEach_split hf hl hm hm' hab hbc looks body after (hs t hbefore)
  refine hends.imp fun t u htu => ?_
  obtain ⟨x, j, d, rfl, rfl, rfl⟩ := htu.exists_eq
  rfl

end Split

/-- A scan of two numbers, of which the chain has only the first, between two other instructions. -/
def wholeScan : Program :=
  ⟨[.assign ⟨"x"⟩ (.literal .null)] ++ .filter (.blocks singleAndMissing) [fixedLine "x"] ::
    [fixedLine "y"]⟩

def scanInParts : Program :=
  ⟨[.assign ⟨"x"⟩ (.literal .null)] ++
    .filter (.blocks ⟨.number (.literal (.int 1)), .number (.literal (.int 1))⟩) [fixedLine "x"] ::
    .filter (.blocks ⟨.number (.literal (.int 2)), .number (.literal (.int 2))⟩) [fixedLine "x"] ::
    [fixedLine "y"]⟩

theorem split_scan_scanInParts :
    ∃ t u, wholeScan.run? 0 singleStart = some (.ok (), t) ∧ t.errors.reported = 1 ∧
      scanInParts.run? 0 singleStart = some (.ok (), u) ∧ u = { t with deeds := u.deeds } := by
  obtain ⟨t, hrun, hreported⟩ : ∃ t, wholeScan.run? 0 singleStart = some (.ok (), t) ∧
      t.errors.reported = 1 := ⟨_, rfl, rfl⟩
  have hone := Bound.fixed?_literal (n := 1) (by decide)
  have htwo := Bound.fixed?_literal (n := 2) (by decide)
  have hends := split_scan hone htwo hone htwo (by decide) (by decide) 0
    [.assign ⟨"x"⟩ (.literal .null)] [fixedLine "x"] [fixedLine "y"] singleStart fun t ht => by
      cases ht
      rfl
  rcases hends.cases with ⟨hnone, -⟩ | ⟨result, t', u, hwhole, hparts, hsame⟩
  · cases hnone.symm.trans hrun
  · cases hwhole.symm.trans hrun
    exact ⟨t, u, hrun, hreported, hparts, hsame⟩

end ChainQuery
