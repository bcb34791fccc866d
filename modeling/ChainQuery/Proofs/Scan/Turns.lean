import ChainQuery.Proofs.Execution.Steps

/-!
# The turns of a scan

A scan takes one turn after the other. In a turn it asks the chain for one number; it visits the block
that it gets, and otherwise reports what is wrong or waits. Its bounds resolve to a number or to a failure
in every state: only a scan without end may leave a run without a result.
-/

namespace ChainQuery

section Bounds

namespace Run

def Returns (x : Run α) : Prop :=
  ∀ s, (x.run s).isSome

theorem returns_ofExcept (e : Except ExecutionError α) : Returns (ofExcept e) := by
  cases e <;> exact fun _ => rfl

theorem returns_get : Returns (get : Run RunState) :=
  fun _ => rfl

theorem returns_bind {x : Run α} {f : α → Run β} (hx : Returns x) (hf : ∀ a, Returns (f a)) :
    Returns (x >>= f) := by
  intro s
  rw [run_bind]
  rcases hrun : x.run s with _ | ⟨e | a, t⟩
  · have hsome := hx s
    rw [hrun] at hsome
    exact hsome
  · rfl
  · exact hf a t

theorem returns_inView (read : View → Except ExecutionError α) : Returns (inView read) :=
  returns_bind returns_get fun _ => returns_ofExcept _

theorem returns_askHead : Returns askHead := by
  refine returns_bind (returns_bind returns_get fun s => ?_) fun chain => ?_
  · cases s.chain <;> exact fun _ => rfl
  · exact returns_bind (fun _ => rfl) fun _ => returns_ofExcept _

end Run

theorem Bound.returns_resolve (b : Bound) : Run.Returns b.resolve := by
  have hhead : Run.Returns (some <$> Run.askHead) :=
    Run.returns_bind Run.returns_askHead fun _ _ => rfl
  cases b with
  | number t =>
    refine Run.returns_bind (Run.returns_inView _) fun v => ?_
    cases v with
    | null => exact fun _ => rfl
    | _ => exact Run.returns_bind (Run.returns_ofExcept _) fun _ _ => rfl
  | earliest => exact fun _ => rfl
  | current => exact hhead
  | continuous => exact hhead

theorem Bound.returns_resolveFirst (b : Bound) : Run.Returns b.resolveFirst := by
  refine Run.returns_bind b.returns_resolve fun number => ?_
  cases number <;> exact fun _ => rfl

end Bounds

namespace RunState

/-- The result and the state after a failure has been handled. -/
def settle (s : RunState) (context : String) (e : ExecutionError) :
    Except ExecutionError Unit × RunState :=
  ((s.errors.handle context e).1, s.handle context e)

def fail (s : RunState) (context : String) (e : ExecutionError) :
    Except ExecutionError Unit × RunState :=
  (s.log (.raised e)).settle context e

end RunState

theorem Run.run_fail (context : String) (e : ExecutionError) (s : RunState) :
    (Run.fail context e).run s = some (s.fail context e) := rfl

theorem Run.run_askBlock (number : Nat) (s : RunState) :
    (Run.askBlock number).run s = match s.chain with
      | some chain => some (.ok (chain.block s.asked number), s.note (.block number))
      | none => some (.error (.chain .notConnected), s.log (.raised (.chain .notConnected))) := by
  rw [Run.askBlock, Run.run_bind, Run.attached, Run.run_get_bind]
  cases s.chain with
  | none => rfl
  | some chain => rfl

namespace Scan

/-- The result of the visit of a block and the state after it, from those of the body: the cursor is
cleared, the outputs are ended or discarded, and what has failed is handled. -/
def endVisit (b : Block) : Except ExecutionError Unit × RunState → Except ExecutionError Unit × RunState
  | (.ok _, t) =>
    match t.outputs.endBlock.2 with
    | none => (.ok (), t.exit .block none)
    | some e => (t.exit .block none).fail (context b.number) (.writer e)
  | (.error e, t) => (t.exit .block (some e)).settle (context b.number) e

theorem run_visit_map (body : Run Unit) (b : Block) (s : RunState) :
    (visit body b).run s = (body.run (s.enter (.block b))).map (endVisit b) := by
  rw [run_visit]
  rcases body.run (s.enter (.block b)) with _ | ⟨e | _, t⟩
  · rfl
  · rfl
  · simp only [Option.map_some, endVisit]
    cases t.outputs.endBlock.2 with
    | none => rfl
    | some e => rfl

structure Turn where
  number : Nat
  /-- The state in which the block is asked for. -/
  before : RunState
  answer : Except ChainError (Option Block)
  outcome : Except ExecutionError Unit
  after : RunState

namespace Turn

def asked (t : Turn) : RunState :=
  t.before.note (.block t.number)

def found (t : Turn) : Bool :=
  match t.answer with
  | .ok (some _) => true
  | _ => false

/-- The failure of a turn without a block, unless the scan waits for its blocks. -/
def absence? (waits : Bool) (t : Turn) : Option ExecutionError :=
  match t.answer with
  | .ok (some _) => none
  | .ok none => if waits then none else some (.chain (.blockNotFound t.number))
  | .error e => some (.chain e)

def next (waits : Bool) (t : Turn) : Nat :=
  if waits && !t.found then t.number else t.number + 1

/-- The turn went as the chain answered: the body ran once, with the block as the current one, or
no block was there and the state is the one after the question, with the failure handled. -/
structure Plays (waits : Bool) (body : Run Unit) (t : Turn) : Prop where
  answered : ∃ chain, t.before.chain = some chain ∧
    t.answer = chain.block t.before.asked t.number
  visited : ∀ b, t.answer = .ok (some b) →
    ∃ ended, body.run (t.asked.enter (.block b)) = some ended ∧
      (t.outcome, t.after) = endVisit b ended
  absent : t.found = false →
    (t.outcome, t.after) = match t.absence? waits with
      | some e => t.asked.fail (context t.number) e
      | none => (.ok (), t.asked)

end Turn

/-- Turns in a row, from a number and a state on: one follows when all before it went well. The last
three arguments are the next number, the last outcome and the state after the turns. -/
inductive Course (waits : Bool) (body : Run Unit) (first : Nat) (start : RunState) :
    List Turn → Nat → Except ExecutionError Unit → RunState → Prop where
  | nil : Course waits body first start [] first (.ok ()) start
  | snoc {turns : List Turn} {t : Turn} :
      Course waits body first start turns t.number (.ok ()) t.before → t.Plays waits body →
        Course waits body first start (turns ++ [t]) (t.next waits) t.outcome t.after

section Courses
variable {waits : Bool} {body : Run Unit} {first next : Nat} {start u : RunState}
variable {turns : List Turn} {outcome : Except ExecutionError Unit}

theorem Course.plays (h : Course waits body first start turns next outcome u) :
    ∀ t ∈ turns, t.Plays waits body := by
  induction h with
  | nil => exact fun _ hmem => absurd hmem List.not_mem_nil
  | snoc _ ht ih =>
    intro t' hmem
    rcases List.mem_append.mp hmem with hmem | hmem
    · exact ih t' hmem
    · rw [List.mem_singleton.mp hmem]
      exact ht

theorem Course.split {before later : List Turn} {t : Turn}
    (h : Course waits body first start turns next outcome u)
    (hsplit : turns = before ++ t :: later) :
    Course waits body first start before t.number (.ok ()) t.before := by
  induction h generalizing later with
  | nil => simp at hsplit
  | @snoc turns t' hcourse _ ih =>
    rcases List.eq_nil_or_concat later with rfl | ⟨later', last, rfl⟩
    · obtain ⟨rfl, hlast⟩ := List.append_inj' hsplit rfl
      cases hlast
      exact hcourse
    · have hsplit' : turns ++ [t'] = (before ++ t :: later') ++ [last] := by
        rw [hsplit]
        simp
      exact ih (List.append_inj' hsplit' rfl).1

/-- Without waiting, the numbers of a course follow one another. -/
theorem Course.map_number (h : Course false body first start turns next outcome u) :
    turns.map Turn.number = List.range' first turns.length ∧ next = first + turns.length := by
  induction h with
  | nil => exact ⟨rfl, rfl⟩
  | @snoc turns t _ _ ih =>
    obtain ⟨hmap, hnumber⟩ := ih
    constructor
    · rw [List.map_append, hmap, List.length_append, List.length_singleton,
        ← List.range'_append_1, ← hnumber]
      rfl
    · rw [List.length_append, List.length_singleton, ← Nat.add_assoc, ← hnumber]
      rfl

/-- With waiting, the numbers of the turns that found a block follow one another. -/
theorem Course.map_number_found (h : Course true body first start turns next outcome u) :
    (turns.filter Turn.found).map Turn.number =
      List.range' first (turns.filter Turn.found).length ∧
        next = first + (turns.filter Turn.found).length := by
  induction h with
  | nil => exact ⟨rfl, rfl⟩
  | @snoc turns t _ _ ih =>
    obtain ⟨hmap, hnumber⟩ := ih
    rw [List.filter_append]
    cases hfound : t.found with
    | false =>
      have hnone : [t].filter Turn.found = [] := by simp [hfound]
      have hnext : t.next true = t.number := by simp [Turn.next, hfound]
      rw [hnone, List.append_nil, hnext]
      exact ⟨hmap, hnumber⟩
    | true =>
      have hsingle : [t].filter Turn.found = [t] := by simp [hfound]
      have hnext : t.next true = t.number + 1 := by simp [Turn.next, hfound]
      rw [hsingle, hnext, List.length_append, List.length_singleton]
      constructor
      · rw [List.map_append, hmap, ← List.range'_append_1, ← hnumber]
        rfl
      · rw [← Nat.add_assoc, ← hnumber]

end Courses

section Looking
variable (waits : Bool) (body : Run Unit) (chain : ChainSource) (number : Nat) (s : RunState)

/-- The outcome of a turn and the state after it, if the body returns. -/
def play : Option (Except ExecutionError Unit × RunState) :=
  match chain.block s.asked number with
  | .ok (some b) => (visit body b).run (s.note (.block number))
  | .ok none =>
    if waits then some (.ok (), s.note (.block number))
    else some ((s.note (.block number)).fail (context number) (.chain (.blockNotFound number)))
  | .error e => some ((s.note (.block number)).fail (context number) (.chain e))

variable {waits body chain number s}

theorem plays_of_play {outcome : Except ExecutionError Unit} {u : RunState}
    (hchain : s.chain = some chain) (h : play waits body chain number s = some (outcome, u)) :
    Turn.Plays waits body ⟨number, s, chain.block s.asked number, outcome, u⟩ where
  answered := ⟨chain, hchain, rfl⟩
  visited := by
    intro b hanswer
    simp only [play, show chain.block s.asked number = _ from hanswer, run_visit_map] at h
    obtain ⟨ended, hbody, heq⟩ := Option.map_eq_some_iff.mp h
    exact ⟨ended, hbody, heq.symm⟩
  absent := by
    intro hfound
    rw [play] at h
    simp only [Turn.absence?]
    rcases hanswer : chain.block s.asked number with e | _ | b
    · rw [hanswer] at h
      exact (Option.some.inj h).symm
    · rw [hanswer] at h
      cases waits <;> exact (Option.some.inj h).symm
    · simp only [Turn.found, hanswer] at hfound
      cases hfound

theorem run_look (body : Run Unit) (number : Nat) (s : RunState) :
    (look body number).run s = match s.chain with
      | some chain => play false body chain number s
      | none => some (.error (.chain .notConnected), s.log (.raised (.chain .notConnected))) := by
  rw [look, Run.run_bind, Run.run_askBlock]
  cases s.chain with
  | none => rfl
  | some chain =>
    simp only [play]
    rcases chain.block s.asked number with e | _ | b
    · rfl
    · rfl
    · rfl

end Looking
end Scan
end ChainQuery
