import ChainQuery.Proofs.Query.Events

/-!
# Programs with what was known of types

Each instruction of a compiled program with the types that the compiler had written down when it
added the instruction: a statement when it was read, a filter when its scope was exited.
-/

namespace ChainQuery

inductive TypedInstruction where
  | statement (facts : TypeFacts) (i : Instruction)
  | scope (facts : TypeFacts) (f : Filter) (body : List TypedInstruction)

namespace TypedInstruction

mutual

def erase : TypedInstruction → Instruction
  | statement _ i => i
  | scope _ f body => .filter f (eraseAll body)

def eraseAll : List TypedInstruction → List Instruction
  | [] => []
  | i :: is => i.erase :: eraseAll is

end

theorem eraseAll_append (is js : List TypedInstruction) :
    eraseAll (is ++ js) = eraseAll is ++ eraseAll js := by
  induction is with
  | nil => rfl
  | cons i is ih =>
    rw [List.cons_append, eraseAll, eraseAll, ih]
    rfl

end TypedInstruction

/-- What a successful event does to the open scopes. -/
inductive Placement where
  | opens
  | adds
  | closes
  | ends
  | stays
deriving DecidableEq, Repr

def QueryEvent.placement : QueryEvent → Placement
  | enterProgram => .opens
  | enterFilter _ => .opens
  | exitProgram => .ends
  | exitBlocks _ _ => .closes
  | exitTransactions _ _ => .closes
  | exitLogEntries _ _ => .closes
  | exitContract _ _ => .closes
  | exitCondition => .closes
  | position _ _ => .stays
  | operand _ => .stays
  | comparison _ => .stays
  | conjunction => .stays
  | disjunction => .stays
  | negation => .stays
  | _ => .adds

/-- The instruction that was added last to the innermost scope. -/
def Composer.newest? (c : Composer) : Option Instruction :=
  c.scopes.head?.bind fun s => s.body.getLast?

namespace Compiler

/-- The bodies of the open scopes after an event, the innermost one first, each instruction with what
was known of types before the event that added it. -/
def annotate (c : Compiler) (e : QueryEvent) (bodies : List (List TypedInstruction)) :
    List (List TypedInstruction) :=
  match (c.step e).1 with
  | .error _ => bodies
  | .ok _ =>
    match e.placement, (c.step e).2.composer.newest?, bodies with
    | .opens, _, bodies => [] :: bodies
    | .ends, _, _ :: bodies => bodies
    | .adds, some i, body :: bodies => (body ++ [.statement c.toTypeFacts i]) :: bodies
    | .closes, some (.filter f _), body :: outer :: bodies =>
      (outer ++ [.scope c.toTypeFacts f body]) :: bodies
    | _, _, bodies => bodies

def annotateAll (c : Compiler) (bodies : List (List TypedInstruction)) :
    List QueryEvent → List (List TypedInstruction)
  | [] => bodies
  | e :: es => annotateAll (c.step e).2 (c.annotate e bodies) es

def Annotated (c : Compiler) (bodies : List (List TypedInstruction)) : Prop :=
  bodies.map TypedInstruction.eraseAll = c.composer.scopes.map OpenScope.body

end Compiler

theorem Composer.closeFilter_scopes {c c' : Composer} {f : Filter} (h : c.closeFilter f = .ok c') :
    ∃ s t scopes, c.scopes = s :: t :: scopes ∧
      c'.scopes = { t with body := t.body ++ [.filter f s.body] } :: scopes := by
  rcases c with ⟨_ | ⟨s, _ | ⟨t, scopes⟩⟩⟩
  · cases h
  · simp only [closeFilter] at h
    split at h <;> cases h
  · simp only [closeFilter] at h
    split at h
    · cases h
      exact ⟨s, t, scopes, rfl, rfl⟩
    · cases h

namespace Draft

/-- What happens to the bodies of the open scopes when an event succeeds. -/
inductive Places (d d' : Draft) : Placement → Prop
  | opens (kind : ScopeKind) (h : d'.composer.scopes = { kind } :: d.composer.scopes) :
      Places d d' .opens
  | adds {s : OpenScope} {scopes : List OpenScope} {i : Instruction}
      (h : d.composer.scopes = s :: scopes)
      (h' : d'.composer.scopes = { s with body := s.body ++ [i] } :: scopes) : Places d d' .adds
  | closes {s t : OpenScope} {scopes : List OpenScope} {f : Filter}
      (h : d.composer.scopes = s :: t :: scopes)
      (h' : d'.composer.scopes = { t with body := t.body ++ [.filter f s.body] } :: scopes) :
      Places d d' .closes
  | ends {s : OpenScope} (h : d.composer.scopes = [s]) (h' : d'.composer.scopes = []) :
      Places d d' .ends
  | stays (h : d'.composer = d.composer) : Places d d' .stays

theorem places_of_close {head : TypeFacts → Except BuildError Filter} {d d' : Draft}
    {result : Option Program}
    (h : Yields (do close head; return (none : Option Program)) d result d') :
    Places d d' .closes := by
  simp only [yields_bind, yields_close, yields_pure] at h
  obtain ⟨_, _, ⟨f, c, -, hclose, rfl⟩, -, rfl⟩ := h
  obtain ⟨s, t, scopes, hs, hc⟩ := Composer.closeFilter_scopes hclose
  exact .closes hs hc

theorem places_of_operate {x : Except BuildError α} {s : α → PredicateStep} {d d' : Draft}
    {result : Option Program}
    (h : Yields (do
      let a ← Compiling.check x
      operate (s a)
      return (none : Option Program)) d result d') :
    Places d d' .stays := by
  simp only [yields_bind, Compiling.yields_check, yields_operate, yields_pure] at h
  obtain ⟨_, _, ⟨-, rfl⟩, _, _, ⟨_, -, rfl⟩, -, rfl⟩ := h
  exact .stays rfl

theorem places_of_statement {e : QueryEvent} {x : Reading Instruction} {d d' : Draft}
    {result : Option Program} (hx : e.statement? = some x)
    (h : Yields (compile e) d result d') : Places d d' .adds := by
  obtain ⟨hopen, i, f, -, rfl⟩ := read_of_statement hx h
  cases hscopes : d.composer.scopes with
  | nil => exact absurd hscopes hopen
  | cons s scopes =>
    refine .adds (i := i) hscopes ?_
    show (d.composer.extend [i]).scopes = _
    rw [Composer.extend, hscopes]

theorem places_of_yields {e : QueryEvent} {d d' : Draft} {result : Option Program}
    (h : Yields (compile e) d result d') : Places d d' e.placement := by
  cases e with
  | position line column =>
    obtain ⟨-, rfl⟩ := yields_pure.mp h
    exact .stays rfl
  | enterProgram =>
    simp only [compile, yields_bind, yields_compose, yields_pure] at h
    obtain ⟨_, _, ⟨c, hopened, rfl⟩, -, rfl⟩ := h
    cases hscopes : d.composer.scopes with
    | nil =>
      rw [Composer.openProgram, hscopes] at hopened
      cases hopened
      refine .opens .program ?_
      rw [hscopes]
    | cons s scopes =>
      rw [Composer.openProgram, hscopes] at hopened
      cases hopened
  | exitProgram =>
    rw [compile, yields_get_bind] at h
    simp only [yields_bind, Compiling.yields_check, yields_set, yields_pure] at h
    obtain ⟨⟨p, c⟩, before, ⟨hclosed, rfl⟩, _, _, rfl, -, rfl⟩ := h
    rcases hscopes : before.composer.scopes with _ | ⟨s, _ | ⟨t, scopes⟩⟩
    · rw [Composer.closeProgram, hscopes] at hclosed
      cases hclosed
    · rw [Composer.closeProgram, hscopes] at hclosed
      cases hclosed
      exact .ends hscopes rfl
    · rw [Composer.closeProgram, hscopes] at hclosed
      cases hclosed
  | enterFilter kind =>
    simp only [compile, yields_bind, yields_compose, yields_pure] at h
    obtain ⟨_, _, ⟨c, hopened, rfl⟩, -, rfl⟩ := h
    have hopen : d.composer.Open := by
      intro hnone
      rw [Composer.openFilter, hnone] at hopened
      cases hopened
    rw [(Composer.openFilter_eq_ok hopen).mp hopened]
    exact .opens (.filter kind) rfl
  | exitBlocks first last => exact places_of_close h
  | exitTransactions senders recipients => exact places_of_close h
  | exitLogEntries contracts signature => exact places_of_close h
  | exitContract address reads => exact places_of_close h
  | exitCondition =>
    simp only [compile, yields_bind, yields_takePredicate, yields_compose, yields_pure] at h
    obtain ⟨p, _, ⟨-, rfl⟩, _, _, ⟨c, hclose, rfl⟩, -, rfl⟩ := h
    obtain ⟨s, t, scopes, hs, hc⟩ := Composer.closeFilter_scopes hclose
    exact .closes hs hc
  | operand value => exact places_of_operate h
  | comparison symbol => exact places_of_operate h
  | conjunction => exact places_of_operate (x := .ok ()) (s := fun _ => .and) h
  | disjunction => exact places_of_operate (x := .ok ()) (s := fun _ => .or) h
  | negation => exact places_of_operate (x := .ok ()) (s := fun _ => .not) h
  | _ => exact places_of_statement rfl h

end Draft

namespace Compiler

theorem Annotated.step {c : Compiler} {bodies : List (List TypedInstruction)}
    (h : c.Annotated bodies) (e : QueryEvent) :
    (c.step e).2.Annotated (c.annotate e bodies) := by
  unfold annotate
  rcases hstep : (c.step e).1 with err | result
  · obtain ⟨cause, d, hfails, hd⟩ := fails_of_step hstep
    show _ = (c.step e).2.toDraft.composer.scopes.map OpenScope.body
    rw [hd, Draft.composer_of_fails hfails]
    exact h
  · obtain ⟨d, hyields, hd⟩ := yields_of_step hstep
    have hplaces := Draft.places_of_yields hyields
    rw [← hd] at hplaces
    dsimp only
    generalize e.placement = placement at hplaces ⊢
    unfold Annotated at h ⊢
    cases hplaces with
    | opens kind hscopes =>
      simp only [hscopes, List.map_cons, h]
      rfl
    | adds hbefore hafter =>
      rw [hbefore, List.map_cons] at h
      obtain ⟨body, rest, rfl, hbody, hrest⟩ := List.map_eq_cons_iff.mp h
      simp only [Composer.newest?, hafter, List.head?_cons, Option.bind_some, List.getLast?_concat,
        List.map_cons, TypedInstruction.eraseAll_append, hbody, hrest]
      rfl
    | closes hbefore hafter =>
      rw [hbefore, List.map_cons, List.map_cons] at h
      obtain ⟨body, rest, rfl, hbody, hrest⟩ := List.map_eq_cons_iff.mp h
      obtain ⟨outer, rest, rfl, houter, hrest⟩ := List.map_eq_cons_iff.mp hrest
      simp only [Composer.newest?, hafter, List.head?_cons, Option.bind_some, List.getLast?_concat,
        List.map_cons, TypedInstruction.eraseAll_append, houter, hrest]
      rw [← hbody]
      rfl
    | ends hbefore hafter =>
      rw [hbefore, List.map_cons, List.map_nil] at h
      obtain ⟨body, rest, rfl, hbody, hrest⟩ := List.map_eq_cons_iff.mp h
      simp only [hafter, List.map_nil, hrest]
    | stays hsame =>
      simp only [hsame]
      exact h

theorem annotated_all {c : Compiler} {bodies : List (List TypedInstruction)}
    (h : c.Annotated bodies) (es : List QueryEvent) :
    (c.after es).Annotated (c.annotateAll bodies es) := by
  induction es generalizing c bodies with
  | nil => exact h
  | cons e es ih => exact ih (h.step e)

def typed (es : List QueryEvent) : List TypedInstruction :=
  ((({} : Compiler).annotateAll [] es).head?).getD []

/-- Without the types they are the instructions of the program, once it is exited. -/
theorem eraseAll_typed {es : List QueryEvent} {p : Program}
    (h : ((({} : Compiler).after es).step .exitProgram).1 = .ok (some p)) :
    TypedInstruction.eraseAll (typed es) = p.instructions := by
  have hstart : ({} : Compiler).Annotated [] := rfl
  have hbodies := annotated_all hstart es
  obtain ⟨d, hyields, -⟩ := yields_of_step h
  obtain ⟨c, hclosed, -⟩ := Draft.yields_exitProgram.mp hyields
  unfold Annotated at hbodies
  unfold typed
  rcases hscopes : (({} : Compiler).after es).composer.scopes with _ | ⟨s, _ | ⟨t, scopes⟩⟩
  · rw [Composer.closeProgram, hscopes] at hclosed
    cases hclosed
  · rw [Composer.closeProgram, hscopes] at hclosed
    rw [hscopes, List.map_cons, List.map_nil] at hbodies
    obtain ⟨body, rest, heq, hbody, -⟩ := List.map_eq_cons_iff.mp hbodies
    cases hclosed
    rw [heq]
    exact hbody
  · rw [Composer.closeProgram, hscopes] at hclosed
    cases hclosed

end Compiler

end ChainQuery
