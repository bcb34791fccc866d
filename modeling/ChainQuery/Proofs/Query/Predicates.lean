import ChainQuery.Proofs.Query.Conditions

/-!
# The builder of predicates

A builder holds the operands of a condition on a stack and pops them one after the other, so that an
operator can fail with one of its operands gone. Here it is such a machine. It takes the steps that
the compiler takes, it is empty after each failure, and the sequences of calls that it accepts are
the traversals of boolean expressions and no others.
-/

namespace ChainQuery

/-- A call of the builder, on the stack with its top first. What was popped before a failure is
gone. -/
abbrev Building := ExceptT BuildError (StateM (List Operand))

namespace Building

def check (e : Except BuildError α) : Building α :=
  ExceptT.mk (pure e)

def pop : Building Operand := do
  match ← get with
  | [] => throw .booleanExpressionTree
  | top :: rest => do
    set rest
    return top

/-- The two topmost operands, the one that was pushed first on the left. -/
def popPair : Building (Operand × Operand) := do
  let right ← pop
  let left ← pop
  return (left, right)

def popPredicates : Building (Predicate × Predicate) := do
  let (left, right) ← popPair
  let p ← check left.toPredicate
  let q ← check right.toPredicate
  return (p, q)

/-- Clears the stack when the step fails. -/
def clearing (x : Building α) : Building α :=
  ExceptT.mk fun os =>
    match x.run os with
    | (.ok a, rest) => (.ok a, rest)
    | (.error e, _) => (.error e, [])

def push (o : Operand) : Building Unit :=
  modify (o :: ·)

def reduce (x : Building Predicate) : Building Unit := do
  let p ← clearing x
  push (.predicate p)

def call : PredicateStep → Building Unit
  | .operand t => push (.term t)
  | .compare c => reduce do
    match ← popPair with
    | (.term left, .term right) => return .compare c left right
    | _ => throw .canOnlyCompareValues
  | .and => reduce do
    let (p, q) ← popPredicates
    return .and p q
  | .or => reduce do
    let (p, q) ← popPredicates
    return .or p q
  | .not => reduce do
    let o ← pop
    let p ← check o.toPredicate
    return .not p

def finish : Building Predicate := do
  if (← get).length ≠ 1 then
    set ([] : List Operand)
    throw .booleanExpressionTree
  else
    clearing do
      let o ← pop
      check o.toPredicate

def callAll : List PredicateStep → Building Unit
  | [] => return
  | s :: steps => do
    call s
    callAll steps

def build (steps : List PredicateStep) : Building Predicate := do
  callAll steps
  finish

theorem run_bind (x : Building α) (f : α → Building β) (os : List Operand) :
    (x >>= f).run os = match x.run os with
      | (.ok a, rest) => (f a).run rest
      | (.error e, rest) => (.error e, rest) := by
  show (ExceptT.bindCont f (x.run os).1) (x.run os).2 = _
  rcases x.run os with ⟨e | a, rest⟩
  · rfl
  · rfl

theorem run_clearing (x : Building α) (os : List Operand) :
    (clearing x).run os = match x.run os with
      | (.ok a, rest) => (.ok a, rest)
      | (.error e, _) => (.error e, []) := by
  rw [clearing, ExceptT.run_mk]

theorem run_check_bind (e : Except BuildError α) (f : α → Building β) (os : List Operand) :
    (check e >>= f).run os = match e with
      | .ok a => (f a).run os
      | .error e => (.error e, os) := by
  cases e with
  | error e => rfl
  | ok a => rfl

theorem run_reduce (x : Building Predicate) (os : List Operand) :
    (reduce x).run os = match x.run os with
      | (.ok p, rest) => (.ok (), .predicate p :: rest)
      | (.error e, _) => (.error e, []) := by
  rw [reduce, run_bind, run_clearing]
  rcases x.run os with ⟨e | p, rest⟩
  · rfl
  · rfl

/-- Both operands are popped before one of them is refused. -/
theorem run_popPredicates (left right : Operand) (rest : List Operand) :
    popPredicates.run (right :: left :: rest) =
      ((do return (← left.toPredicate, ← right.toPredicate)), rest) := by
  have hpopped : popPredicates.run (right :: left :: rest) =
      (check left.toPredicate >>= fun p =>
        check right.toPredicate >>= fun q => pure (p, q)).run rest := rfl
  rw [hpopped, run_check_bind]
  cases left.toPredicate with
  | error e => rfl
  | ok p =>
    simp only [run_check_bind]
    cases right.toPredicate with
    | error e => rfl
    | ok q => rfl

theorem run_join (op : Predicate → Predicate → Predicate) (os : List Operand) :
    (reduce do let (p, q) ← popPredicates; return op p q).run os =
      match Operand.join op os with
      | .ok rest => (.ok (), rest)
      | .error e => (.error e, []) := by
  rcases os with _ | ⟨right, _ | ⟨left, rest⟩⟩
  · rfl
  · rfl
  · rw [run_reduce, run_bind, run_popPredicates, Operand.join]
    cases left.toPredicate with
    | error e => rfl
    | ok p =>
      cases right.toPredicate with
      | error e => rfl
      | ok q => rfl

theorem run_call (s : PredicateStep) (os : List Operand) :
    (call s).run os = match Operand.step os s with
      | .ok rest => (.ok (), rest)
      | .error e => (.error e, []) := by
  cases s with
  | operand t => rfl
  | compare c => rcases os with _ | ⟨_ | _, _ | ⟨_ | _, rest⟩⟩ <;> rfl
  | and => exact run_join .and os
  | or => exact run_join .or os
  | not =>
    cases os with
    | nil => rfl
    | cons top rest =>
      have hpopped : (do let o ← pop; let p ← check o.toPredicate; return Predicate.not p :
          Building Predicate).run (top :: rest) =
          (check top.toPredicate >>= fun p => pure (Predicate.not p)).run rest := rfl
      rw [call, run_reduce, hpopped, run_check_bind, Operand.step]
      cases top.toPredicate with
      | error e => rfl
      | ok p => rfl

theorem run_finish (os : List Operand) : finish.run os = (Operand.finish os, []) := by
  rcases os with _ | ⟨top, _ | ⟨next, rest⟩⟩
  · rfl
  · have hlast : finish.run [top] =
        (clearing do let o ← pop; check o.toPredicate).run [top] := rfl
    have hpopped : (do let o ← pop; check o.toPredicate : Building Predicate).run [top] =
        (top.toPredicate, []) := rfl
    rw [hlast, run_clearing, hpopped, Operand.finish]
    cases top.toPredicate with
    | error e => rfl
    | ok p => rfl
  · rfl

end Building

/-- A term may stand where a truth value is asked for, unless it is a fixed value of another kind. -/
def Term.isConditional : Term → Bool
  | literal (.bool _) => true
  | literal _ => false
  | _ => true

namespace Predicate

/-- The boolean expression of a predicate, each operator after its operands. -/
def traversal : Predicate → List PredicateStep
  | compare c left right => [.operand left, .operand right, .compare c]
  | and left right => left.traversal ++ right.traversal ++ [.and]
  | or left right => left.traversal ++ right.traversal ++ [.or]
  | not operand => operand.traversal ++ [.not]
  | term t => [.operand t]

/-- No fixed value but a truth value stands for a predicate. -/
def isProper : Predicate → Bool
  | compare _ _ _ => true
  | and left right => left.isProper && right.isProper
  | or left right => left.isProper && right.isProper
  | not operand => operand.isProper
  | term t => t.isConditional

/-- What lies on the stack after the traversal: a term waits as it is. -/
def waiting : Predicate → Operand
  | term t => .term t
  | p => .predicate p

end Predicate

namespace Operand

def traversal : Operand → List PredicateStep
  | term t => [.operand t]
  | predicate p => p.traversal

/-- Operators have made the operand: of terms they make no mere terms. -/
def isBuilt : Operand → Bool
  | term _ => true
  | predicate (.term _) => false
  | predicate p => p.isProper

/-- The calls that have led to a stack, its top first. -/
def trail : List Operand → List PredicateStep
  | [] => []
  | top :: rest => trail rest ++ top.traversal

theorem traversal_waiting (p : Predicate) : p.waiting.traversal = p.traversal := by
  cases p <;> rfl

theorem isBuilt_waiting {p : Predicate} (h : p.isProper = true) : p.waiting.isBuilt = true := by
  cases p with
  | term t => rfl
  | _ => exact h

theorem toPredicate_term {t : Term} {p : Predicate} :
    (term t).toPredicate = .ok p ↔ t.isConditional = true ∧ p = .term t := by
  rcases t with v | _ | _
  · cases v <;> simp [toPredicate, Term.isConditional, eq_comm]
  · simp [toPredicate, Term.isConditional, eq_comm]
  · simp [toPredicate, Term.isConditional, eq_comm]

/-- An operand that operators have made becomes the predicate that it waits for, and no other. -/
theorem toPredicate_built {o : Operand} {p : Predicate} (h : o.isBuilt = true) :
    o.toPredicate = .ok p ↔ p.isProper = true ∧ o = p.waiting := by
  cases o with
  | term t =>
    rw [toPredicate_term]
    constructor
    · rintro ⟨ht, rfl⟩
      exact ⟨ht, rfl⟩
    · rintro ⟨hp, heq⟩
      cases p with
      | term u =>
        obtain rfl := Operand.term.inj heq
        exact ⟨hp, rfl⟩
      | _ => cases heq
  | predicate q =>
    have hq : q.isProper = true ∧ q.waiting = predicate q := by
      cases q with
      | term t => cases h
      | _ => exact ⟨h, rfl⟩
    constructor
    · intro hok
      obtain rfl : q = p := Except.ok.inj hok
      exact ⟨hq.1, hq.2.symm⟩
    · rintro ⟨hp, heq⟩
      cases p with
      | term u => cases heq
      | _ =>
        obtain rfl := Operand.predicate.inj heq
        rfl

theorem trail_waiting (p : Predicate) (rest : List Operand) :
    trail (p.waiting :: rest) = trail rest ++ p.traversal := by
  rw [trail, traversal_waiting]

theorem trail_join {op : Predicate → Predicate → Predicate} {s : PredicateStep}
    (htraversal : ∀ p q, (op p q).traversal = p.traversal ++ q.traversal ++ [s])
    (hbuilt : ∀ p q, (predicate (op p q)).isBuilt = (p.isProper && q.isProper))
    {os os' : List Operand} (hos : ∀ o ∈ os, o.isBuilt = true) (h : join op os = .ok os') :
    (∀ o ∈ os', o.isBuilt = true) ∧ trail os' = trail os ++ [s] := by
  rcases os with _ | ⟨right, _ | ⟨left, rest⟩⟩
  · cases h
  · cases h
  · obtain ⟨p, q, hleft, hright, rfl⟩ := join_eq_ok.mp h
    simp only [List.forall_mem_cons] at hos ⊢
    obtain ⟨hr, hl, hrest⟩ := hos
    obtain ⟨hp, rfl⟩ := (toPredicate_built hl).mp hleft
    obtain ⟨hq, rfl⟩ := (toPredicate_built hr).mp hright
    refine ⟨⟨?_, hrest⟩, ?_⟩
    · rw [hbuilt, hp, hq]
      rfl
    · rw [trail_waiting, trail_waiting, trail, traversal, htraversal]
      simp only [List.append_assoc]

/-- A step that succeeds is the last one of the trail, and leaves operands that operators make. -/
theorem trail_step {s : PredicateStep} {os os' : List Operand} (hos : ∀ o ∈ os, o.isBuilt = true)
    (h : step os s = .ok os') :
    (∀ o ∈ os', o.isBuilt = true) ∧ trail os' = trail os ++ [s] := by
  cases s with
  | operand t =>
    cases h
    exact ⟨List.forall_mem_cons.mpr ⟨rfl, hos⟩, rfl⟩
  | compare c =>
    rcases os with _ | ⟨_ | _, _ | ⟨_ | _, rest⟩⟩ <;> cases h
    simp only [List.forall_mem_cons] at hos ⊢
    refine ⟨⟨rfl, hos.2.2⟩, ?_⟩
    simp only [trail, traversal, Predicate.traversal, List.append_assoc]
    rfl
  | and => exact trail_join (fun _ _ => rfl) (fun _ _ => rfl) hos h
  | or => exact trail_join (fun _ _ => rfl) (fun _ _ => rfl) hos h
  | not =>
    cases os with
    | nil => cases h
    | cons top rest =>
      obtain ⟨p, htop, hp⟩ := except_bind_eq_ok.mp h
      cases hp
      simp only [List.forall_mem_cons] at hos ⊢
      obtain ⟨hproper, rfl⟩ := (toPredicate_built hos.1).mp htop
      refine ⟨⟨hproper, hos.2⟩, ?_⟩
      rw [trail_waiting, trail, traversal, Predicate.traversal, List.append_assoc]

def steps (os : List Operand) (ss : List PredicateStep) : Except BuildError (List Operand) :=
  ss.foldlM step os

theorem steps_append (os : List Operand) (ss more : List PredicateStep) :
    steps os (ss ++ more) = (steps os ss).bind fun rest => steps rest more :=
  List.foldlM_append

theorem trail_steps {ss : List PredicateStep} {os os' : List Operand}
    (hos : ∀ o ∈ os, o.isBuilt = true) (h : steps os ss = .ok os') :
    (∀ o ∈ os', o.isBuilt = true) ∧ trail os' = trail os ++ ss := by
  induction ss generalizing os with
  | nil =>
    cases h
    exact ⟨hos, (List.append_nil _).symm⟩
  | cons s ss ih =>
    rw [steps, List.foldlM_cons, except_bind_eq_ok] at h
    obtain ⟨middle, hstep, hrest⟩ := h
    obtain ⟨hmiddle, htrail⟩ := trail_step hos hstep
    obtain ⟨hos', htrail'⟩ := ih hmiddle hrest
    refine ⟨hos', ?_⟩
    rw [htrail', htrail, List.append_assoc]
    rfl

theorem step_join {op : Predicate → Predicate → Predicate} {s : PredicateStep} {p q : Predicate}
    (hs : ∀ os, step os s = join op os) (hp : p.isProper = true) (hq : q.isProper = true)
    (rest : List Operand) :
    step (q.waiting :: p.waiting :: rest) s = .ok (predicate (op p q) :: rest) := by
  have hleft := (toPredicate_built (isBuilt_waiting hp)).mpr ⟨hp, rfl⟩
  have hright := (toPredicate_built (isBuilt_waiting hq)).mpr ⟨hq, rfl⟩
  rw [hs]
  exact join_eq_ok.mpr ⟨p, q, hleft, hright, rfl⟩

theorem steps_single (os : List Operand) (s : PredicateStep) : steps os [s] = step os s := by
  rw [steps, List.foldlM_cons]
  cases step os s with
  | error e => rfl
  | ok rest => rfl

theorem steps_joined {op : Predicate → Predicate → Predicate} {s : PredicateStep} {p q : Predicate}
    (htraversal : (op p q).traversal = p.traversal ++ q.traversal ++ [s])
    (hs : ∀ os, step os s = join op os) (hp : p.isProper = true) (hq : q.isProper = true)
    (ihp : ∀ os, steps os p.traversal = .ok (p.waiting :: os))
    (ihq : ∀ os, steps os q.traversal = .ok (q.waiting :: os)) (os : List Operand) :
    steps os (op p q).traversal = .ok (predicate (op p q) :: os) := by
  rw [htraversal, List.append_assoc, steps_append, ihp, Except.bind, steps_append, ihq, Except.bind,
    steps_single]
  exact step_join hs hp hq os

/-- The traversal of a proper predicate leaves it on top of what was there before. -/
theorem steps_traversal {p : Predicate} (h : p.isProper = true) (os : List Operand) :
    steps os p.traversal = .ok (p.waiting :: os) := by
  induction p generalizing os with
  | compare c left right => rfl
  | and left right ihl ihr =>
    obtain ⟨hl, hr⟩ := Bool.and_eq_true_iff.mp h
    exact steps_joined rfl (fun _ => rfl) hl hr (ihl hl) (ihr hr) os
  | or left right ihl ihr =>
    obtain ⟨hl, hr⟩ := Bool.and_eq_true_iff.mp h
    exact steps_joined rfl (fun _ => rfl) hl hr (ihl hl) (ihr hr) os
  | not operand ih =>
    have hoperand : operand.isProper = true := h
    have htop := (toPredicate_built (isBuilt_waiting hoperand)).mpr ⟨hoperand, rfl⟩
    rw [Predicate.traversal, steps_append, ih hoperand, Except.bind, steps_single, step, htop]
    rfl
  | term t => rfl

/-- From the empty stack, steps and the end give a predicate exactly if they are its traversal. -/
theorem finish_steps_iff {ss : List PredicateStep} {p : Predicate} :
    (∃ os, steps [] ss = .ok os ∧ finish os = .ok p) ↔ p.isProper = true ∧ ss = p.traversal := by
  constructor
  · rintro ⟨os, hsteps, hfinish⟩
    obtain ⟨hbuilt, htrail⟩ := trail_steps (by simp) hsteps
    rcases os with _ | ⟨last, _ | ⟨next, rest⟩⟩
    · cases hfinish
    · obtain ⟨hp, rfl⟩ := (toPredicate_built (hbuilt last List.mem_cons_self)).mp hfinish
      rw [trail_waiting] at htrail
      exact ⟨hp, htrail.symm⟩
    · cases hfinish
  · rintro ⟨hp, rfl⟩
    have hfinish := (toPredicate_built (isBuilt_waiting hp)).mpr ⟨hp, rfl⟩
    exact ⟨[p.waiting], steps_traversal hp [], hfinish⟩

end Operand

namespace Building

theorem yields_call {s : PredicateStep} {os rest : List Operand} :
    Yields (call s) os () rest ↔ Operand.step os s = .ok rest := by
  rw [Yields, run_call]
  cases Operand.step os s with
  | error e => exact ⟨nofun, nofun⟩
  | ok os' =>
    constructor
    · intro h
      cases h
      rfl
    · intro h
      cases h
      rfl

theorem yields_callAll {steps : List PredicateStep} {os rest : List Operand} :
    Yields (callAll steps) os () rest ↔ Operand.steps os steps = .ok rest := by
  induction steps generalizing os with
  | nil =>
    rw [callAll, yields_pure]
    simp [Operand.steps, pure, Except.pure, eq_comm]
  | cons s steps ih =>
    rw [callAll, yields_bind, Operand.steps, List.foldlM_cons, except_bind_eq_ok]
    constructor
    · rintro ⟨⟨⟩, middle, hcall, hrest⟩
      exact ⟨middle, yields_call.mp hcall, ih.mp hrest⟩
    · rintro ⟨middle, hstep, hrest⟩
      exact ⟨⟨⟩, middle, yields_call.mpr hstep, ih.mpr hrest⟩

theorem yields_finish {os rest : List Operand} {p : Predicate} :
    Yields finish os p rest ↔ Operand.finish os = .ok p ∧ rest = [] := by
  rw [Yields, run_finish]
  constructor
  · intro h
    exact ⟨congrArg Prod.fst h, (congrArg Prod.snd h).symm⟩
  · rintro ⟨h, rfl⟩
    rw [h]

/-- Calls from the empty stack, none of which fails, end in a predicate exactly if they are the
traversal of it, and it is a proper one. -/
theorem yields_build {steps : List PredicateStep} {p : Predicate} {rest : List Operand} :
    Yields (build steps) [] p rest ↔ p.isProper = true ∧ steps = p.traversal ∧ rest = [] := by
  rw [build, yields_bind, ← and_assoc, ← Operand.finish_steps_iff]
  constructor
  · rintro ⟨⟨⟩, os, hcalls, hend⟩
    obtain ⟨hfinish, hrest⟩ := yields_finish.mp hend
    exact ⟨⟨os, yields_callAll.mp hcalls, hfinish⟩, hrest⟩
  · rintro ⟨⟨os, hsteps, hfinish⟩, hrest⟩
    exact ⟨⟨⟩, os, yields_callAll.mpr hsteps, yields_finish.mpr ⟨hfinish, hrest⟩⟩

end Building

namespace Draft

theorem run_operate (s : PredicateStep) (d : Draft) :
    (operate s).run d = match Operand.step d.operands s with
      | .ok os => (.ok (), { d with operands := os })
      | .error e => (.error e, { d with operands := [] }) := by
  show (match Operand.step d.operands s with | .ok os => _ | .error e => _ : Compiling Unit).run d = _
  cases Operand.step d.operands s with
  | error e => rfl
  | ok os => rfl

/-- The compiler takes the steps of a condition as the builder does. -/
theorem operate_eq_call (s : PredicateStep) (d : Draft) :
    (operate s).run d = (((Building.call s).run d.operands).1,
      { d with operands := ((Building.call s).run d.operands).2 }) := by
  rw [run_operate, Building.run_call]
  cases Operand.step d.operands s with
  | error e => rfl
  | ok os => rfl

theorem takePredicate_eq_finish (d : Draft) :
    takePredicate.run d = ((Building.finish.run d.operands).1,
      { d with operands := (Building.finish.run d.operands).2 }) := by
  rw [Building.run_finish]
  rfl

end Draft

/-- The builder recognises the traversals of proper predicates, and it is empty after every failure
and after every end. Its calls and its end are those of the compiler. -/
theorem builder_recognises_traversals :
    (∀ steps p rest, Yields (Building.build steps) [] p rest ↔
      p.isProper = true ∧ steps = p.traversal ∧ rest = []) ∧
    (∀ s os e rest, (Building.call s).run os = (.error e, rest) → rest = []) ∧
    (∀ os, (Building.finish.run os).2 = []) ∧
    (∀ s (d : Draft), (Draft.operate s).run d =
      (((Building.call s).run d.operands).1,
        { d with operands := ((Building.call s).run d.operands).2 })) ∧
    ∀ d : Draft, Draft.takePredicate.run d =
      ((Building.finish.run d.operands).1,
        { d with operands := (Building.finish.run d.operands).2 }) := by
  refine ⟨fun steps p rest => Building.yields_build, ?_, ?_, Draft.operate_eq_call,
    Draft.takePredicate_eq_finish⟩
  · intro s os e rest h
    rw [Building.run_call] at h
    cases hstep : Operand.step os s with
    | error e' =>
      rw [hstep] at h
      exact (congrArg Prod.snd h).symm
    | ok os' =>
      rw [hstep] at h
      cases congrArg Prod.fst h
  · intro os
    rw [Building.run_finish]

end ChainQuery
