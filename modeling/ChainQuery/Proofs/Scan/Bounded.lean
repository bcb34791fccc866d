import ChainQuery.Proofs.Execution.Traces
import ChainQuery.Proofs.Scan.Turns

/-!
# Bounded scans

A scan with an upper bound takes one turn for each number up to the bound that it has resolved before
its first turn, in ascending order. Only a cancellation or a failure that is not over once it is
handled makes it stop earlier. So it comes to its end within as many rounds as there are numbers between
the bounds, whatever its body does.
-/

namespace ChainQuery

theorem RunState.reported_fail {s t : RunState} {context : String} {e : ExecutionError}
    {outcome : Except ExecutionError Unit} (h : (outcome, t) = s.fail context e) :
    t.journal = s.journal ∧
      (s.errors.aborting = false → t.errors.reported = s.errors.reported + 1) := by
  obtain ⟨-, rfl⟩ := Prod.mk.inj h
  refine ⟨rfl, fun hgoing => ?_⟩
  show (s.errors.handle context e).2.reported = _
  rw [ErrorRecord.handle, hgoing]
  cases s.errors.ends e <;> rfl

namespace Scan

section Walking
variable {body : Run Unit}

/-- A turn that no block answered has left the journal alone, and has added one to the failures
reported. -/
theorem Turn.Plays.reported {t : Turn} (h : t.Plays false body) (habsent : t.found = false) :
    t.after.journal = t.before.journal ∧ (t.before.errors.aborting = false →
      t.after.errors.reported = t.before.errors.reported + 1) := by
  have hsettle := h.absent habsent
  obtain ⟨e, he⟩ : ∃ e, t.absence? false = some e := by
    rw [Turn.found] at habsent
    rw [Turn.absence?]
    rcases hanswer : t.answer with e | _ | b
    · exact ⟨_, rfl⟩
    · exact ⟨_, rfl⟩
    · rw [hanswer] at habsent
      cases habsent
  rw [he] at hsettle
  show t.after.journal = t.asked.journal ∧ (t.asked.errors.aborting = false →
    t.after.errors.reported = t.asked.errors.reported + 1)
  exact RunState.reported_fail hsettle

/-- The end of a scan after its turns: their outcome is the result, unless no chain is connected. -/
inductive Concludes (outcome : Except ExecutionError Unit) (u : RunState) :
    Except ExecutionError Unit → RunState → Prop where
  | done : Concludes outcome u outcome u
  | unconnected : outcome = .ok () → u.chain = none → Concludes outcome u
      (.error (.chain .notConnected)) (u.log (.raised (.chain .notConnected)))

section Steps
variable {first number count : Nat} {start s t : RunState} {turns : List Turn}
variable {result : Except ExecutionError Unit}

end Steps

end Walking

def numbers (first : Nat) : Option Nat → List Nat
  | some last => List.range' first (last + 1 - first)
  | none => []

/-- The turns of a scan from a number to a bound: one for each number in between, in ascending order,
perhaps cut short by a failure or a cancellation. -/
structure Covers (body : Run Unit) (first : Nat) (last : Option Nat) (start : RunState)
    (turns : List Turn) (result : Except ExecutionError Unit) (t : RunState) : Prop where
  course : ∃ next outcome u, Course false body first start turns next outcome u ∧
    Concludes outcome u result t
  ascending : turns.map Turn.number <+: numbers first last
  complete : result = .ok () → t.cancelled = false → turns.map Turn.number = numbers first last
  awake : ∀ turn ∈ turns.tail, turn.before.cancelled = false
  reported : ∀ turn ∈ turns, turn.found = false →
    turn.after.journal = turn.before.journal ∧ (turn.before.errors.aborting = false →
      turn.after.errors.reported = turn.before.errors.reported + 1)

section Sweeping
variable {body : Run Unit} {first count : Nat} {last : Option Nat} {start t : RunState}
variable {turns : List Turn} {result outcome : Except ExecutionError Unit}

theorem Course.covers {next : Nat} {u : RunState}
    (hcourse : Course false body first start turns next outcome u)
    (hconcludes : Concludes outcome u result t)
    (hnumbers : numbers first last = List.range' first count) (hwithin : turns.length ≤ count)
    (hcomplete : result = .ok () → t.cancelled = false → turns.length = count)
    (hawake : ∀ turn ∈ turns.tail, turn.before.cancelled = false) :
    Covers body first last start turns result t where
  course := ⟨next, outcome, u, hcourse, hconcludes⟩
  ascending := by
    obtain ⟨rest, rfl⟩ := Nat.exists_eq_add_of_le hwithin
    rw [hcourse.map_number.1, hnumbers, ← List.range'_append_1]
    exact List.prefix_append _ _
  complete := by
    intro hok hlive
    rw [hcourse.map_number.1, hnumbers, hcomplete hok hlive]
  awake := hawake
  reported := fun turn hmem => (hcourse.plays turn hmem).reported

def sweep (body : Run Unit) (first : Nat) : Option Nat → Run Unit
  | some last =>
    if first ≤ last then do
      look body first
      walk body (first + 1) (last - first)
    else return
  | none => return

end Sweeping

/-- A bounded scan resolves its bounds and then sweeps over the numbers between them. -/
theorem run_bounded {range : BlockRange} (hlast : range.last ≠ .continuous) (looks : Nat)
    (body : Run Unit) :
    run looks range body = (do
      let first ← range.first.resolveFirst
      if (← get).cancelled then return
      sweep body first (← range.last.resolve)) := by
  have hlimit : Limit.ofBound range.last = .pending range.last := by
    simp [Limit.ofBound, Bound.isContinuous, hlast]
  rw [run, hlimit]
  refine congrArg (range.first.resolveFirst >>= ·) (funext fun first => ?_)
  refine congrArg (get >>= ·) (funext fun s => ?_)
  by_cases hcancelled : s.cancelled = true
  · rw [if_pos hcancelled, if_pos hcancelled]
  · rw [if_neg hcancelled, if_neg hcancelled, Limit.keepsGoing, bind_assoc]
    refine congrArg (range.last.resolve >>= ·) (funext fun last => ?_)
    rw [pure_bind]
    cases last with
    | none => rfl
    | some last =>
      by_cases hle : first ≤ last
      · simp [sweep, hle, Limit.within, Limit.known?]
      · simp [sweep, hle, Limit.within]

end Scan

/-- The numbers 1 and 2, of which a chain of one block has only the first. -/
def singleAndMissing : BlockRange :=
  ⟨.number (.literal (.int 1)), .number (.literal (.int 2))⟩

namespace Scan

section Rounds
variable {body : Run Unit}

/-- The rounds of a scan, with a number of looks that it may take. If it were to take another one,
there is no result. -/
def rounds (body : Run Unit) (l : Limit) (number looks : Nat) : Run Unit := do
  if (← get).cancelled then return
  let (goes, l) ← l.keepsGoing number
  if goes then
    match looks with
    | 0 => Run.exhausted
    | looks + 1 => do
      look body number
      if number + 1 < numberBound then rounds body l (number + 1) looks

theorem rounds_past {last : Option Nat} {number : Nat} (hpast : Limit.within last number = false)
    (looks : Nat) : rounds body (.fixed last) number looks = return := by
  have hkeeps : (Limit.fixed last).keepsGoing number = (return (false, .fixed last)) := by
    rw [Limit.keepsGoing, hpast]
  rw [rounds, hkeeps]
  funext s
  show (get >>= _ : Run Unit).run s = some (.ok (), s)
  rw [Run.run_get_bind]
  split <;> rfl

/-- What follows the look at a number: further rounds, unless there is no further number. -/
theorem rounds_rest {last number looks : Nat} (hlast : last < numberBound) (hwithin : number ≤ last)
    (hrounds : rounds body (.fixed (some last)) (number + 1) looks =
      walk body (number + 1) (last + 1 - (number + 1))) :
    (if number + 1 < numberBound then rounds body (.fixed (some last)) (number + 1) looks
      else return) = walk body (number + 1) (last - number) := by
  split
  · rw [hrounds, Nat.add_sub_add_right]
  · have hend : last - number = 0 := by omega
    rw [hend, walk]

/-- Once the last number is known, a walk to it takes the same rounds. -/
theorem rounds_fixed {last number looks : Nat} (hlast : last < numberBound)
    (hlooks : last + 1 - number ≤ looks) :
    rounds body (.fixed (some last)) number looks = walk body number (last + 1 - number) := by
  induction looks generalizing number with
  | zero =>
    have hnone : last + 1 - number = 0 := by omega
    rw [rounds_past (by simp [Limit.within]; omega), hnone, walk]
  | succ looks ih =>
    by_cases hwithin : number ≤ last
    · have hkeeps : (Limit.fixed (some last)).keepsGoing number =
          (return (true, .fixed (some last))) := by
        simp [Limit.keepsGoing, Limit.within, hwithin]
      have hrest := rounds_rest hlast hwithin (ih (by omega))
      rw [rounds, hkeeps, Nat.sub_add_comm hwithin, walk]
      simp only [pure_bind, if_true, hrest]
    · have hnone : last + 1 - number = 0 := by omega
      rw [rounds_past (by simp [Limit.within]; omega), hnone, walk]

/-- A scan with an upper bound takes its rounds, if it may take as many looks as there are numbers
between its bounds. The upper one is resolved in the first round. -/
theorem run_eq_rounds {range : BlockRange} (hbound : range.last ≠ .continuous) (looks : Nat)
    {s s' : RunState} {first allowed : Nat}
    (hfirst : range.first.resolveFirst.run s = some (.ok first, s'))
    (hlooks : ∀ last t, range.last.resolve.run s' = some (.ok (some last), t) →
      last < numberBound ∧ last + 1 - first ≤ allowed) :
    (run looks range body).run s =
      (rounds body (.ofBound range.last) first allowed).run s' := by
  have hlimit : Limit.ofBound range.last = .pending range.last := by
    simp [Limit.ofBound, Bound.isContinuous, hbound]
  rw [run_bounded hbound, Run.run_bind, hfirst, hlimit, rounds]
  simp only [Run.run_get_bind]
  split
  · rfl
  · rw [Limit.keepsGoing, bind_assoc, Run.run_bind, Run.run_bind]
    rcases hresolve : range.last.resolve.run s' with _ | ⟨e | _ | last, t⟩
    · rfl
    · rfl
    · rfl
    · -- from here on the last number is kept in the limit, out of reach of the body
      obtain ⟨hlast, hallowed⟩ := hlooks last t hresolve
      simp only [pure_bind, Limit.within, sweep, decide_eq_true_eq]
      split
      · next hwithin =>
        obtain ⟨k, rfl⟩ : ∃ k, allowed = k + 1 := ⟨allowed - 1, by omega⟩
        have hrest : rounds body (.fixed (some last)) (first + 1) k =
            walk body (first + 1) (last + 1 - (first + 1)) := rounds_fixed hlast (by omega)
        rw [← rounds_rest hlast hwithin hrest]
      · rfl

end Rounds
end Scan
end ChainQuery
