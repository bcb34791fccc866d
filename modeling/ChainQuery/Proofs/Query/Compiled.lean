import ChainQuery.Proofs.Query.Structure

/-!
# Compiled queries

The outcomes of all events of a query, from the entry of the program to its exit. Places may be given
anywhere in between.
-/

namespace ChainQuery

def QueryEvent.isPosition : QueryEvent → Bool
  | position _ _ => true
  | _ => false

namespace Compiler

def outcomes (c : Compiler) : List QueryEvent → List (Except LocatedError (Option Program))
  | [] => []
  | e :: es => (c.step e).1 :: outcomes (c.step e).2 es

theorem step_eq_ok {c : Compiler} {e : QueryEvent} {result : Option Program} {c' : Compiler} :
    c.step e = (.ok result, c') ↔
      ∃ d, Yields (Draft.compile e) c.toDraft result d ∧ c' = { c.locate e with toDraft := d } := by
  have hdraft : (c.locate e).toDraft = c.toDraft := by
    cases e <;> rfl
  unfold Yields step
  dsimp only
  rw [hdraft]
  rcases (Draft.compile e).run c.toDraft with ⟨cause | program, d⟩
  · constructor
    · intro h
      cases h
    · intro hex
      obtain ⟨_, h, _⟩ := hex
      cases h
  · constructor
    · intro h
      cases h
      exact ⟨d, rfl, rfl⟩
    · intro hex
      obtain ⟨_, h, rfl⟩ := hex
      cases h
      rfl

theorem step_position {c : Compiler} {e : QueryEvent} (h : e.isPosition = true) :
    ∃ c', c.step e = (.ok none, c') ∧ c'.toDraft = c.toDraft := by
  cases e with
  | position line column => exact ⟨_, rfl, rfl⟩
  | _ => cases h

/-- Events without a failure or a program, and then an event with a program. -/
theorem outcomes_eq_iff {es : List QueryEvent} {last : QueryEvent} {c : Compiler} {p : Program} :
    c.outcomes (es ++ [last]) = List.replicate es.length (.ok none) ++ [.ok (some p)] ↔
      ∃ d, c.toDraft.Takes (es.filter fun e => !e.isPosition) d ∧
        ∃ d', Yields (Draft.compile last) d (some p) d' := by
  induction es generalizing c with
  | nil =>
    simp only [List.nil_append, outcomes, List.filter_nil, Draft.Takes, exists_eq_left,
      List.length_nil, List.replicate_zero, List.cons.injEq, and_true]
    constructor
    · intro h
      obtain ⟨d, hd, _⟩ := step_eq_ok.mp (Prod.ext h rfl)
      exact ⟨d, hd⟩
    · intro hex
      obtain ⟨d, hd⟩ := hex
      rw [step_eq_ok.mpr ⟨d, hd, rfl⟩]
  | cons e es ih =>
    simp only [List.cons_append, outcomes, List.length_cons, List.replicate_succ, List.cons.injEq,
      ih]
    by_cases hpos : e.isPosition = true
    · obtain ⟨c', hstep, hdraft⟩ := step_position (c := c) hpos
      simp only [hstep, hdraft, true_and, List.filter_cons, hpos, Bool.not_true,
        Bool.false_eq_true, if_false]
    · simp only [List.filter_cons, hpos, Bool.not_false, if_true, Draft.Takes]
      constructor
      · intro hex
        obtain ⟨h, d, htakes, hlast⟩ := hex
        obtain ⟨d₁, hd₁, hc⟩ := step_eq_ok.mp (Prod.ext h rfl)
        have hd : (c.step e).2.toDraft = d₁ := congrArg Compiler.toDraft hc
        rw [hd] at htakes
        exact ⟨d, ⟨d₁, hd₁, htakes⟩, hlast⟩
      · intro hex
        obtain ⟨d, ⟨d₁, hd₁, htakes⟩, hlast⟩ := hex
        rw [step_eq_ok.mpr ⟨d₁, hd₁, rfl⟩]
        exact ⟨rfl, d, htakes, hlast⟩

end Compiler

namespace Draft

theorem yields_enterProgram {d : Draft} :
    Yields (compile .enterProgram) {} none d ↔
      d = { composer := ⟨[{ kind := .program }]⟩ } := by
  rw [show compile .enterProgram = (do compose Composer.openProgram; return none) from rfl,
    yields_then_none, yields_compose]
  constructor
  · intro h
    obtain ⟨c, hc, rfl⟩ := h
    cases hc
    rfl
  · intro heq
    subst heq
    exact ⟨_, rfl, rfl⟩

theorem yields_exitProgram {d d' : Draft} {p : Program} :
    Yields (compile .exitProgram) d (some p) d' ↔
      ∃ c, d.composer.closeProgram = .ok (p, c) ∧ d' = { d with composer := c } := by
  rw [compile, yields_get_bind]
  simp only [yields_bind, Compiling.yields_check, yields_set, yields_pure]
  constructor
  · intro h
    obtain ⟨⟨p, c⟩, _, ⟨hclose, rfl⟩, _, _, rfl, hp, rfl⟩ := h
    cases hp
    exact ⟨c, hclose, rfl⟩
  · intro h
    obtain ⟨c, hclose, rfl⟩ := h
    exact ⟨(p, c), d, ⟨hclose, rfl⟩, ⟨⟩, _, rfl, rfl, rfl⟩

end Draft

/-- A query compiles exactly if it has an elaboration and no condition of it stands in the body of
another one; the program is the elaboration. -/
theorem compiles_iff_apart {q : List QueryNode} {es : List QueryEvent} {p : Program}
    (hwalk : es.filter (fun e => !e.isPosition) = .enterProgram :: QueryNode.walkAll q) :
    ({} : Compiler).outcomes (es ++ [.exitProgram]) =
        List.replicate es.length (.ok none) ++ [.ok (some p)] ↔
      QueryNode.apartAll false q = true ∧
        ∃ f, Yields (QueryNode.elaborateAll q) {} p.instructions f := by
  have hopen : (Draft.composer { composer := ⟨[{ kind := .program }]⟩ }).Open := List.cons_ne_nil _ _
  rw [Compiler.outcomes_eq_iff, hwalk]
  simp only [Draft.Takes, Draft.yields_enterProgram, exists_eq_left, Draft.yields_exitProgram,
    Draft.takesAll q _ _ hopen]
  constructor
  · intro h
    obtain ⟨_, ⟨hapart, is, f, his, rfl⟩, _, c, hclose, -⟩ := h
    cases hclose
    exact ⟨hapart, f, his⟩
  · intro h
    obtain ⟨hapart, f, hf⟩ := h
    exact ⟨_, ⟨hapart, _, f, hf, rfl⟩, _, ⟨[]⟩, rfl, rfl⟩

def adjacentEvents : List QueryEvent :=
  [.enterProgram, .position 1 2, .enterFilter .condition, .operand (.literal "true"), .negation,
    .exitCondition, .enterFilter .blocks, .position 2 4, .enterFilter .condition,
    .operand (.named "x"), .exitCondition, .exitBlocks .earliest .current]

theorem adjacent_conditions_compile :
    adjacentEvents.filter (fun e => !e.isPosition) = .enterProgram :: QueryNode.walkAll
        [.scope (.condition (.not (.value (.literal "true")))) [],
          .scope (.blocks .earliest .current) [.scope (.condition (.value (.named "x"))) []]] ∧
      ({} : Compiler).outcomes (adjacentEvents ++ [.exitProgram]) =
        List.replicate 12 (.ok none) ++ [.ok (some ⟨[
          .filter (.condition (.not (.term (.literal (.bool true))))) [],
          .filter (.blocks ⟨.earliest, .current⟩) [
            .filter (.condition (.term (.named "x"))) []]]⟩)] := by
  have hwalk : adjacentEvents.filter (fun e => !e.isPosition) = .enterProgram :: QueryNode.walkAll
      [.scope (.condition (.not (.value (.literal "true")))) [],
        .scope (.blocks .earliest .current) [.scope (.condition (.value (.named "x"))) []]] := rfl
  exact ⟨hwalk, (compiles_iff_apart hwalk).mpr ⟨rfl, _, rfl⟩⟩

/-- A condition in the body of another one has an elaboration, and its exit fails. -/
theorem nested_conditions_fail :
    ¬ ∀ (q : List QueryNode) (p : Program) (f : TypeFacts),
      Yields (QueryNode.elaborateAll q) {} p.instructions f →
        ({} : Compiler).outcomes ((.enterProgram :: QueryNode.walkAll q) ++ [.exitProgram]) =
          List.replicate (QueryNode.walkAll q).length.succ (.ok none) ++ [.ok (some p)] := by
  intro h
  have houtcomes := h
    [.scope (.condition (.value (.literal "true")))
      [.scope (.condition (.value (.literal "true"))) []]]
    ⟨[.filter (.condition (.term (.literal (.bool true))))
      [.filter (.condition (.term (.literal (.bool true)))) []]]⟩ {} rfl
  have hexit := congrArg (fun outcomes => outcomes[5]?) houtcomes
  exact nomatch hexit

end ChainQuery
