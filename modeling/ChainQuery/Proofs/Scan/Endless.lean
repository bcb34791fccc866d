import ChainQuery.Proofs.Scan.Turns

/-!
# Scans without end

A scan that follows the head of the chain takes turns for one number until it finds the block, and only
then goes on with the next number. It takes no turn once the run is cancelled.
-/

namespace ChainQuery
namespace Scan

section Courses
variable {body : Run Unit} {first next : Nat} {start u : RunState} {turns : List Turn}
variable {outcome : Except ExecutionError Unit}

/-- Before a turn for a number, the blocks of all numbers below it have been found, one after the
other. -/
theorem Course.found_before (h : Course true body first start turns next outcome u)
    {before later : List Turn} {t : Turn} (hsplit : turns = before ++ t :: later) :
    first ≤ t.number ∧
      (before.filter Turn.found).map Turn.number = List.range' first (t.number - first) := by
  obtain ⟨hmap, hnumber⟩ := (h.split hsplit).map_number_found
  constructor
  · rw [hnumber]
    exact Nat.le_add_right _ _
  · rw [hmap, hnumber, Nat.add_sub_cancel_left]

/-- After a turn without a block comes another one for the same number. -/
theorem Course.number_again (h : Course true body first start turns next outcome u)
    {before later : List Turn} {t t' : Turn} (hsplit : turns = before ++ t :: t' :: later)
    (habsent : t.found = false) : t'.number = t.number := by
  have hsplit' : turns = (before ++ [t]) ++ t' :: later := by simp [hsplit]
  have hfound : (before ++ [t]).filter Turn.found = before.filter Turn.found := by simp [habsent]
  have hnumber := (h.split hsplit).map_number_found.2
  have hnumber' := (h.split hsplit').map_number_found.2
  rw [hfound] at hnumber'
  exact hnumber'.trans hnumber.symm

end Courses

/-- Why a scan without upper bound is over after some turns: one of them failed, the run is
cancelled, no chain is connected, or the last number there is has been visited. -/
inductive Over (turns : List Turn) (next : Nat) (u : RunState) :
    Except ExecutionError Unit → Except ExecutionError Unit → RunState → Prop where
  | failed (e : ExecutionError) : Over turns next u (.error e) (.error e) u
  | cancelled : u.cancelled = true → Over turns next u (.ok ()) (.ok ()) u
  | unconnected : u.chain = none → Over turns next u (.ok ()) (.error (.chain .notConnected))
      (u.log (.raised (.chain .notConnected)))
  | complete (before : List Turn) (t : Turn) : turns = before ++ [t] → t.found = true →
      numberBound ≤ next → Over turns next u (.ok ()) (.ok ()) u

def Hangs (body : Run Unit) (number : Nat) (s : RunState) : Prop :=
  ∃ chain b, s.chain = some chain ∧ chain.block s.asked number = .ok (some b) ∧
    body.run ((s.note (.block number)).enter (.block b)) = none

/-- How a scan without upper bound stands after some turns: it is over with a result, or it has taken
as many turns as it was given looks, or it is in a visit that does not return. -/
def Stands (body : Run Unit) (looks : Nat) (turns : List Turn) (next : Nat)
    (outcome : Except ExecutionError Unit) (u : RunState) :
    Option (Except ExecutionError Unit × RunState) → Prop
  | some (result, t) => Over turns next u outcome result t
  | none => outcome = .ok () ∧ (turns.length = looks ∨ Hangs body next u)

theorem Over.cons {turns : List Turn} {next : Nat} {u v : RunState}
    {outcome result : Except ExecutionError Unit} (h : Over turns next u outcome result v)
    (t : Turn) : Over (t :: turns) next u outcome result v := by
  cases h with
  | failed e => exact .failed e
  | cancelled h => exact .cancelled h
  | unconnected h => exact .unconnected h
  | complete before last hturns hfound hbound =>
    exact .complete (t :: before) last (by rw [hturns]; rfl) hfound hbound

theorem Stands.cons {body : Run Unit} {looks : Nat} {turns : List Turn} {next : Nat}
    {outcome : Except ExecutionError Unit} {u : RunState}
    {end? : Option (Except ExecutionError Unit × RunState)}
    (h : Stands body looks turns next outcome u end?) (t : Turn) :
    Stands body (looks + 1) (t :: turns) next outcome u end? := by
  cases end? with
  | some _ => exact Over.cons h t
  | none => exact ⟨h.1, h.2.imp_left (congrArg (· + 1))⟩

section Following
variable {body : Run Unit} {number looks : Nat} {s : RunState}

theorem hangs_of_play {chain : ChainSource} (hchain : s.chain = some chain)
    (h : play true body chain number s = none) : Hangs body number s := by
  rw [play] at h
  rcases hanswer : chain.block s.asked number with e | _ | b
  · rw [hanswer] at h
    cases h
  · rw [hanswer] at h
    cases h
  · simp only [hanswer, run_visit_map, Option.map_eq_none_iff] at h
    exact ⟨chain, b, hchain, hanswer, h⟩

def goOn (body : Run Unit) (looks : Nat) (t : Turn) : Run Unit :=
  if t.found = true ∧ numberBound ≤ t.next true then return
  else follow body (t.next true) looks

theorem goOn_absent (t : Turn) (h : t.found = false) :
    goOn body looks t = follow body t.number looks := by
  simp [goOn, Turn.next, h]

theorem goOn_found (t : Turn) (h : t.found = true) :
    goOn body looks t =
      if t.number + 1 < numberBound then follow body (t.number + 1) looks else return := by
  simp only [goOn, Turn.next, h]
  by_cases hbound : t.number + 1 < numberBound
  · rw [if_pos hbound, if_neg (by simpa using hbound)]
    rfl
  · rw [if_neg hbound, if_pos (by simpa using hbound)]

theorem run_follow (hawake : s.cancelled = false) :
    (follow body number (looks + 1)).run s = match s.chain with
      | none => some (.error (.chain .notConnected), s.log (.raised (.chain .notConnected)))
      | some chain => match play true body chain number s with
        | none => none
        | some (.error e, u) => some (.error e, u)
        | some (.ok (), u) =>
          (goOn body looks ⟨number, s, chain.block s.asked number, .ok (), u⟩).run u := by
  rw [follow, Run.run_get_bind, if_neg (by simp [hawake]), Run.run_bind, Run.run_askBlock]
  cases s.chain with
  | none => rfl
  | some chain =>
    simp only [play]
    rcases hanswer : chain.block s.asked number with e | _ | b
    · show (Run.fail (context number) (.chain e) >>= _).run (s.note (.block number)) = _
      rw [Run.run_bind, Run.run_fail]
      dsimp only
      rcases (s.note (.block number)).fail (context number) (.chain e) with ⟨e' | _, u⟩
      · rfl
      · dsimp only
        rw [goOn_absent ⟨number, s, .error e, .ok (), u⟩ rfl]
    · show (follow body number looks).run (s.note (.block number)) =
        (goOn body looks ⟨number, s, .ok none, .ok (), s.note (.block number)⟩).run _
      rw [goOn_absent _ rfl]
    · show (visit body b >>= _).run (s.note (.block number)) = _
      rw [Run.run_bind]
      dsimp only
      rcases (visit body b).run (s.note (.block number)) with _ | ⟨e | _, u⟩
      · rfl
      · rfl
      · dsimp only
        rw [goOn_found ⟨number, s, .ok (some b), .ok (), u⟩ rfl]

/-- What one step of a scan comes to: no chain, a visit that does not return, or a turn. -/
theorem follow_cases (body : Run Unit) (number looks : Nat) (hawake : s.cancelled = false) :
    (s.chain = none ∧
      (follow body number (looks + 1)).run s =
        some (.error (.chain .notConnected), s.log (.raised (.chain .notConnected)))) ∨
    (Hangs body number s ∧ (follow body number (looks + 1)).run s = none) ∨
    ∃ t : Turn, t.before = s ∧ t.number = number ∧ t.Plays true body ∧
      (follow body number (looks + 1)).run s = match t.outcome with
        | .error e => some (.error e, t.after)
        | .ok () => (goOn body looks t).run t.after := by
  rw [run_follow hawake]
  rcases hchain : s.chain with _ | chain
  · exact .inl ⟨rfl, rfl⟩
  · dsimp only
    rcases hplay : play true body chain number s with _ | ⟨outcome, u⟩
    · exact .inr (.inl ⟨hangs_of_play hchain hplay, rfl⟩)
    · refine .inr (.inr ⟨_, rfl, rfl, plays_of_play hchain hplay, ?_⟩)
      rcases outcome with e | _ <;> rfl

theorem follow_course (looks : Nat) {turns : List Turn} {first : Nat} {start : RunState}
    (hcourse : Course true body first start turns number (.ok ()) s) :
    ∃ more next outcome u, Course true body first start (turns ++ more) next outcome u ∧
      (∀ t ∈ more, t.before.cancelled = false) ∧
      Stands body looks more next outcome u ((follow body number looks).run s) := by
  have hhere : Course true body first start (turns ++ []) number (.ok ()) s := by
    rwa [List.append_nil]
  induction looks generalizing turns number s with
  | zero => exact ⟨[], number, .ok (), s, hhere, by simp, rfl, .inl rfl⟩
  | succ looks ih =>
    by_cases hcancelled : s.cancelled = true
    · refine ⟨[], number, .ok (), s, hhere, by simp, ?_⟩
      rw [follow, Run.run_get_bind, if_pos hcancelled]
      exact .cancelled hcancelled
    · have hawake : s.cancelled = false := eq_false_of_ne_true hcancelled
      rcases follow_cases body number looks hawake with
        ⟨hchain, hrun⟩ | ⟨hhangs, hrun⟩ | ⟨t, rfl, rfl, hplays, hrun⟩
      · rw [hrun]
        exact ⟨[], number, .ok (), s, hhere, by simp, .unconnected hchain⟩
      · rw [hrun]
        exact ⟨[], number, .ok (), s, hhere, by simp, rfl, .inr hhangs⟩
      · have hturn := hcourse.snoc hplays
        rw [hrun]
        rcases houtcome : t.outcome with e | _
        · rw [houtcome] at hturn
          exact ⟨[t], _, _, _, hturn, by simp [hawake], .failed e⟩
        · rw [houtcome] at hturn
          dsimp only [goOn]
          by_cases hend : t.found = true ∧ numberBound ≤ t.next true
          · rw [if_pos hend]
            exact ⟨[t], _, _, _, hturn, by simp [hawake],
              .complete [] t rfl hend.1 hend.2⟩
          · rw [if_neg hend]
            obtain ⟨more, next, outcome, u, hmore, hawake', hstands⟩ := ih hturn
              (by rwa [List.append_nil])
            refine ⟨t :: more, next, outcome, u, ?_, ?_, hstands.cons t⟩
            · rwa [List.append_assoc] at hmore
            · intro t' hmem
              rcases List.mem_cons.mp hmem with rfl | hmem
              · exact hawake
              · exact hawake' t' hmem

end Following

/-- The turns of a scan that follows the chain from a number on. None is taken once the run is
cancelled; the blocks are found in the order of their numbers, each once and none left out; a number
is asked for when the blocks of all numbers before it have been found, and again until it is found. -/
structure Follows (body : Run Unit) (first : Nat) (start : RunState) (turns : List Turn)
    (next : Nat) (outcome : Except ExecutionError Unit) (u : RunState) : Prop where
  course : Course true body first start turns next outcome u
  awake : ∀ t ∈ turns, t.before.cancelled = false
  visited : (turns.filter Turn.found).map Turn.number =
    List.range' first (turns.filter Turn.found).length
  ordered : ∀ before t later, turns = before ++ t :: later → first ≤ t.number ∧
    (before.filter Turn.found).map Turn.number = List.range' first (t.number - first)
  again : ∀ before t t' later, turns = before ++ t :: t' :: later → t.found = false →
    t'.number = t.number

theorem follows_of_course {body : Run Unit} {first next : Nat} {start u : RunState}
    {turns : List Turn} {outcome : Except ExecutionError Unit}
    (h : Course true body first start turns next outcome u)
    (hawake : ∀ t ∈ turns, t.before.cancelled = false) :
    Follows body first start turns next outcome u where
  course := h
  awake := hawake
  visited := h.map_number_found.1
  ordered := fun _ _ _ => h.found_before
  again := fun _ _ _ _ => h.number_again

/-- A scan without upper bound resolves its lower one and then follows the chain. -/
theorem run_endless {range : BlockRange} (hlast : range.last = .continuous) (looks : Nat)
    (body : Run Unit) :
    run looks range body = (do
      let first ← range.first.resolveFirst
      if (← get).cancelled then return
      follow body first looks) := by
  have hlimit : Limit.ofBound range.last = .never := by
    rw [hlast]
    rfl
  rw [run, hlimit]
  refine congrArg (range.first.resolveFirst >>= ·) (funext fun first => ?_)
  refine congrArg (get >>= ·) (funext fun s => ?_)
  split
  · rfl
  · rfl

end Scan

/-- A scan without upper bound visits the blocks from its first number on without gap or repetition,
whatever the chain answers, and it ends only with a failure, a cancellation or the last number. -/
theorem continuous_scan (first : Bound) (looks : Nat) (body : Run Unit) (s : RunState) :
    (∃ e t, first.resolveFirst.run s = some (.error e, t) ∧
      ((Filter.blocks ⟨first, .continuous⟩).run looks body).run s = some (.error e, t)) ∨
    ∃ number s₁ turns next outcome t, first.resolveFirst.run s = some (.ok number, s₁) ∧
      Scan.Follows body number s₁ turns next outcome t ∧
      Scan.Stands body looks turns next outcome t
        (((Filter.blocks ⟨first, .continuous⟩).run looks body).run s) := by
  rw [Filter.run, Scan.run, Run.run_bind]
  rcases hfirst : first.resolveFirst.run s with _ | ⟨e | number, s₁⟩
  · have hreturns := first.returns_resolveFirst s
    rw [hfirst] at hreturns
    cases hreturns
  · exact .inl ⟨e, s₁, rfl, rfl⟩
  · refine .inr ?_
    dsimp only
    rw [Run.run_get_bind]
    by_cases hcancelled : s₁.cancelled = true
    · rw [if_pos hcancelled]
      exact ⟨number, s₁, [], number, .ok (), s₁, rfl, Scan.follows_of_course .nil (by simp),
        .cancelled hcancelled⟩
    · rw [if_neg hcancelled]
      obtain ⟨turns, next, outcome, t, hcourse, hawake, hstands⟩ :=
        Scan.follow_course looks (.nil : Scan.Course true body number s₁ [] _ _ _)
      exact ⟨number, s₁, turns, next, outcome, t, rfl, Scan.follows_of_course hcourse hawake,
        hstands⟩

end ChainQuery
