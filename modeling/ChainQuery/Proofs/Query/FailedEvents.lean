import ChainQuery.Proofs.Query.Events

/-!
# Failed events

A failed event leaves no mark if later events have the same outcomes without it. They may depend on
the operands that it has dropped, and in one case on types that it has written down. An event that
finds its operands does not look at those below them, which is why dropped operands do not matter to
events that bring their own.
-/

namespace ChainQuery

/-- The event is a statement that can be read and that changes what is known of types. -/
def QueryEvent.Retypes (e : QueryEvent) (f : TypeFacts) : Prop :=
  ∃ x i f', e.statement? = some x ∧ Yields x f i f' ∧ f' ≠ f

namespace QueryEvent
variable {e : QueryEvent} {x : Reading Instruction} {f : TypeFacts}

theorem not_retypes_of_unstated (hx : e.statement? = none) : ¬ e.Retypes f := by
  rintro ⟨y, _, _, hy, -⟩
  rw [hx] at hy
  cases hy

theorem not_retypes_of_unread (hx : e.statement? = some x) (h : ∀ i f', ¬ Yields x f i f') :
    ¬ e.Retypes f := by
  rintro ⟨y, i, f', hy, hread, -⟩
  obtain rfl : x = y := Option.some.inj (hx.symm.trans hy)
  exact h i f' hread

theorem retypes_iff {i : Instruction} {f' : TypeFacts} (hx : e.statement? = some x)
    (hread : Yields x f i f') : e.Retypes f ↔ f' ≠ f := by
  constructor
  · rintro ⟨y, j, g, hy, hread', hne⟩
    obtain rfl : x = y := Option.some.inj (hx.symm.trans hy)
    obtain rfl : f' = g := congrArg Prod.snd (hread.symm.trans hread')
    exact hne
  · intro hne
    exact ⟨x, i, f', hx, hread, hne⟩

end QueryEvent

/-- How many operands of a condition an event takes. The end of a condition asks for all of them. -/
def QueryEvent.taken? : QueryEvent → Option Nat
  | exitCondition => none
  | comparison _ => some 2
  | conjunction => some 2
  | disjunction => some 2
  | negation => some 1
  | _ => some 0

def PredicateStep.taken : PredicateStep → Nat
  | operand _ => 0
  | not => 1
  | _ => 2

theorem Operand.join_append {op : Predicate → Predicate → Predicate} {os : List Operand}
    (h : 2 ≤ os.length) (pending : List Operand) :
    join op (os ++ pending) = (join op os).map (· ++ pending) := by
  rcases os with _ | ⟨right, _ | ⟨left, rest⟩⟩
  · cases h
  · simp at h
  · simp only [List.cons_append, join]
    cases left.toPredicate with
    | error e => rfl
    | ok p =>
      cases right.toPredicate with
      | error e => rfl
      | ok q => rfl

/-- A step that finds its operands does not look at those below them. -/
theorem Operand.step_append {s : PredicateStep} {os : List Operand} (h : s.taken ≤ os.length)
    (pending : List Operand) : step (os ++ pending) s = (step os s).map (· ++ pending) := by
  cases s with
  | operand t => rfl
  | compare c =>
    rcases os with _ | ⟨right, _ | ⟨left, rest⟩⟩
    · cases h
    · simp [PredicateStep.taken] at h
    · cases right <;> cases left <;> rfl
  | and => exact join_append h pending
  | or => exact join_append h pending
  | not =>
    cases os with
    | nil => cases h
    | cons top rest =>
      simp only [List.cons_append, step]
      cases top.toPredicate with
      | error e => rfl
      | ok p => rfl

namespace Draft

def above (d : Draft) (pending : List Operand) : Draft :=
  { d with operands := d.operands ++ pending }

/-- A step that neither looks at the operands nor changes them. -/
def Blind (x : Compiling α) : Prop :=
  ∀ (d : Draft) pending, x.run (d.above pending) = ((x.run d).1, (x.run d).2.above pending)

theorem blind_bind {x : Compiling α} {f : α → Compiling β} (hx : Blind x) (hf : ∀ a, Blind (f a)) :
    Blind (x >>= f) := by
  intro d pending
  rw [run_step_bind, run_step_bind, hx d pending]
  rcases x.run d with ⟨e | a, d'⟩
  · rfl
  · exact hf a d' pending

theorem blind_check (x : Except BuildError α) : Blind (Compiling.check x) := by
  intro d pending
  rfl

theorem blind_reading (x : Reading α) : Blind (Compiling.reading x) := by
  intro d pending
  rfl

theorem run_compose (change : Composer → Except BuildError Composer) (d : Draft) :
    (compose change).run d = match change d.composer with
      | .ok c => (.ok (), { d with composer := c })
      | .error e => (.error e, d) := by
  show (Compiling.check (change d.composer) >>= fun c => set { d with composer := c } :
    Compiling Unit).run d = _
  cases change d.composer with
  | error e => rfl
  | ok c => rfl

theorem blind_compose (change : Composer → Except BuildError Composer) :
    Blind (compose change) := by
  intro d pending
  have hsame : (d.above pending).composer = d.composer := rfl
  rw [run_compose, run_compose, hsame]
  cases change d.composer with
  | error e => rfl
  | ok c => rfl

theorem blind_none (x : Compiling PUnit) (hx : Blind x) :
    Blind (do x; return (none : Option Program)) :=
  blind_bind hx fun _ _ _ => rfl

theorem blind_close (head : TypeFacts → Except BuildError Filter) : Blind (close head) := by
  intro d pending
  exact blind_bind (blind_check (head d.toTypeFacts)) (fun f => blind_compose _) d pending

theorem operate_above {s : PredicateStep} {d : Draft} (h : s.taken ≤ d.operands.length)
    (pending : List Operand) :
    ∃ rest, (operate s).run (d.above pending) =
      (((operate s).run d).1, ((operate s).run d).2.above rest) := by
  have habove : (d.above pending).operands = d.operands ++ pending := rfl
  rw [run_operate, run_operate, habove, Operand.step_append h]
  cases Operand.step d.operands s with
  | error e => exact ⟨[], rfl⟩
  | ok os => exact ⟨pending, rfl⟩

theorem taking_above {x : Except BuildError α} {s : α → PredicateStep} {d : Draft}
    (h : ∀ a, (s a).taken ≤ d.operands.length) (pending : List Operand) :
    let step : Compiling (Option Program) := do
      let a ← Compiling.check x
      operate (s a)
      return none
    ∃ rest, step.run (d.above pending) = ((step.run d).1, (step.run d).2.above rest) := by
  intro step
  cases x with
  | error e => exact ⟨pending, rfl⟩
  | ok a =>
    have hrun : ∀ d : Draft, step.run d =
        (operate (s a) >>= fun _ => pure (none : Option Program)).run d := fun _ => rfl
    obtain ⟨rest, hrest⟩ := operate_above (h a) pending
    refine ⟨rest, ?_⟩
    rw [hrun, hrun, run_step_bind, run_step_bind, hrest]
    rcases (operate (s a)).run d with ⟨e | _, d'⟩
    · rfl
    · rfl

/-- An event that finds its operands does the same whatever lies below them. -/
theorem compile_above {e : QueryEvent} {d : Draft} {n : Nat} (he : e.taken? = some n)
    (h : n ≤ d.operands.length) (pending : List Operand) :
    ∃ rest, (compile e).run (d.above pending) =
      (((compile e).run d).1, ((compile e).run d).2.above rest) := by
  have hblind : ∀ {x : Compiling (Option Program)}, Blind x → ∃ rest, x.run (d.above pending) =
      ((x.run d).1, (x.run d).2.above rest) := fun hx => ⟨pending, hx d pending⟩
  cases e with
  | position line column => exact ⟨pending, rfl⟩
  | enterProgram => exact hblind (blind_none _ (blind_compose _))
  | exitProgram =>
    have hclose : Blind (compile .exitProgram) := by
      intro d pending
      have hrun : ∀ d : Draft, (compile .exitProgram).run d =
          (Compiling.check d.composer.closeProgram >>= fun closed => do
            set { d with composer := closed.2 }
            return some closed.1).run d := fun _ => rfl
      have hsame : (d.above pending).composer = d.composer := rfl
      rw [hrun, hrun, hsame]
      cases d.composer.closeProgram with
      | error e => rfl
      | ok c => rfl
    exact hblind hclose
  | enterFilter kind => exact hblind (blind_none _ (blind_compose _))
  | exitBlocks first last => exact hblind (blind_none _ (blind_close _))
  | exitTransactions senders recipients => exact hblind (blind_none _ (blind_close _))
  | exitLogEntries contracts signature => exact hblind (blind_none _ (blind_close _))
  | exitContract address reads => exact hblind (blind_none _ (blind_close _))
  | exitCondition => cases he
  | operand value => exact taking_above (fun _ => Nat.zero_le _) pending
  | comparison symbol =>
    cases he
    exact taking_above (x := Comparator.read symbol) (s := .compare) (fun _ => h) pending
  | conjunction =>
    cases he
    exact taking_above (x := .ok ()) (s := fun _ => .and) (fun _ => h) pending
  | disjunction =>
    cases he
    exact taking_above (x := .ok ()) (s := fun _ => .or) (fun _ => h) pending
  | negation =>
    cases he
    exact taking_above (x := .ok ()) (s := fun _ => .not) (fun _ => h) pending
  | _ => exact hblind (blind_none _ (blind_bind (blind_reading _) fun _ => blind_compose _))

end Draft

namespace Compiler

def cleared (c : Compiler) : Compiler :=
  { c with operands := [] }

/-- Each of the events finds the operands that it takes among those of the compiler. -/
def SelfContained (c : Compiler) : List QueryEvent → Prop
  | [] => True
  | e :: es =>
    (∃ n, e.taken? = some n ∧ n ≤ c.operands.length) ∧ SelfContained (c.step e).2 es

def above (c : Compiler) (pending : List Operand) : Compiler :=
  { c with toDraft := c.toDraft.above pending }

theorem step_above {c : Compiler} {e : QueryEvent} {n : Nat} (he : e.taken? = some n)
    (h : n ≤ c.operands.length) (pending : List Operand) :
    ∃ rest, (c.above pending).step e = ((c.step e).1, (c.step e).2.above rest) := by
  have hlocated : (c.locate e).toDraft = c.toDraft := by
    cases e <;> rfl
  have hlocate : (c.above pending).locate e = (c.locate e).above pending := by
    cases e <;> rfl
  obtain ⟨rest, hrun⟩ := Draft.compile_above he h pending
  have habove : ((c.locate e).above pending).toDraft = c.toDraft.above pending := by
    rw [← hlocated]
    rfl
  refine ⟨rest, ?_⟩
  simp only [step, hlocate, habove, hlocated, hrun]
  rcases (Draft.compile e).run c.toDraft with ⟨cause | program, d⟩
  · rfl
  · rfl

/-- Events that find their own operands have the same outcomes whatever operands lie below. -/
theorem outcomes_above {c : Compiler} {es : List QueryEvent} (h : c.SelfContained es)
    (pending : List Operand) : (c.above pending).outcomes es = c.outcomes es := by
  induction es generalizing c pending with
  | nil => rfl
  | cons e es ih =>
    obtain ⟨⟨n, htaken, hn⟩, hrest⟩ := h
    obtain ⟨rest, hstep⟩ := step_above htaken hn pending
    rw [outcomes, outcomes, hstep, ih hrest rest]

/-- Nothing that later events can tell is different, unless they ask for operands that are gone. -/
structure Unmarked (c c' : Compiler) : Prop where
  composer : c'.composer = c.composer
  types : c'.types = c.types
  declared : c'.declared = c.declared
  operands : c'.operands = c.operands ∨ c'.operands = []
  later : ∀ es, c.cleared.SelfContained es → c'.outcomes es = c.outcomes es

theorem unmarked_of_left {c : Compiler} {d : Draft} (h : c.toDraft.Left d) :
    c.Unmarked { c with toDraft := d } where
  composer := h.composer
  types := congrArg TypeFacts.types h.facts
  declared := congrArg TypeFacts.declared h.facts
  operands := h.operands
  later := by
    intro es hes
    have hbelow : c.outcomes es = c.cleared.outcomes es := outcomes_above hes c.operands
    obtain ⟨facts, composer, operands⟩ := d
    obtain ⟨hcomposer, hfacts, hoperands⟩ := h
    dsimp only at hcomposer hfacts hoperands
    subst hcomposer hfacts
    obtain hsame | hnone := hoperands
    · subst hsame
      rfl
    · subst hnone
      rw [hbelow]
      rfl

/-- Types that have been written down are a mark. -/
theorem unmarked_iff_same_facts {c : Compiler} (f : TypeFacts) :
    c.Unmarked { c with toTypeFacts := f } ↔ f = c.toTypeFacts := by
  constructor
  · intro h
    have htypes : f.types = c.types := h.types
    have hdeclared : f.declared = c.declared := h.declared
    show TypeFacts.mk f.types f.declared = _
    rw [htypes, hdeclared]
  · rintro rfl
    exact unmarked_of_left (.refl c.toDraft)

end Compiler

/-- A failed event leaves no mark exactly if a scope is open or the event is not a statement that
changes what is known of types. -/
theorem failed_event_unmarked_iff (es : List QueryEvent) (e : QueryEvent) (err : LocatedError)
    (h : ((({} : Compiler).after es).step e).1 = .error err) :
    (({} : Compiler).after es).Unmarked ((({} : Compiler).after es).step e).2 ↔
      (({} : Compiler).after es).composer.Open ∨
        ¬ e.Retypes (({} : Compiler).after es).toTypeFacts := by
  have hfree : (({} : Compiler).after es).Unreserved :=
    Compiler.unreserved_after TypeFacts.unreserved_empty es
  generalize ({} : Compiler).after es = c at h hfree ⊢
  rcases hstep : c.step e with ⟨result, c'⟩
  rw [hstep] at h
  obtain rfl : result = .error err := h
  obtain ⟨cause, d, hfails, -, rfl⟩ := Compiler.step_eq_error.mp hstep
  show c.Unmarked { c with toDraft := d } ↔ _
  cases hx : e.statement? with
  | none =>
    have hunmarked := Compiler.unmarked_of_left (Draft.left_of_unstated hx hfails)
    exact iff_of_true hunmarked (.inr (QueryEvent.not_retypes_of_unstated hx))
  | some x =>
    obtain ⟨hleft, hunread⟩ | ⟨hclosed, i, f, hread, rfl⟩ :=
      Draft.left_of_statement hx hfree hfails
    · have hunmarked := Compiler.unmarked_of_left hleft
      exact iff_of_true hunmarked (.inr (QueryEvent.not_retypes_of_unread hx hunread))
    · rw [QueryEvent.retypes_iff hx hread, Classical.not_not, or_iff_right hclosed]
      exact Compiler.unmarked_iff_same_facts f

/-- A condition with one operand is open, and an operator that asks for two drops it. -/
theorem failed_conjunction_unmarked :
    ((({} : Compiler).after [.enterProgram, .enterFilter .condition, .operand (.named "a")]).step
        .conjunction).1 = .error ⟨.booleanExpressionTree, none⟩ ∧
      (({} : Compiler).after
        [.enterProgram, .enterFilter .condition, .operand (.named "a")]).Unmarked
        ((({} : Compiler).after
          [.enterProgram, .enterFilter .condition, .operand (.named "a")]).step .conjunction).2 :=
  ⟨rfl, (failed_event_unmarked_iff _ _ ⟨.booleanExpressionTree, none⟩ rfl).mpr
    (.inl (List.cons_ne_nil _ _))⟩

/-- An assignment before the program fails, and the type of its variable is written down. -/
theorem failed_assignment_marks :
    ¬ ∀ (es : List QueryEvent) (e : QueryEvent) (err : LocatedError),
      ((({} : Compiler).after es).step e).1 = .error err →
        (({} : Compiler).after es).Unmarked ((({} : Compiler).after es).step e).2 := by
  intro h
  have hunmarked := h [] (.assignment "x" (.literal "true")) ⟨.noOpenScope, none⟩ rfl
  have htypes : NameMap.empty.set "x" ValueType.bool = NameMap.empty := hunmarked.types
  have hget := congrArg (fun m => m.get? "x") htypes
  simp at hget

end ChainQuery
