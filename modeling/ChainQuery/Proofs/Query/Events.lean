import ChainQuery.Proofs.Query.Compiled
import ChainQuery.Proofs.Query.Predicates
import ChainQuery.Proofs.Query.Statements

/-!
# What events leave

What an event of a query leaves of the compiler, above all when it fails. The open scopes stay then,
the operands stay or are all gone, and the types of variables stay but for one case: a statement that
could be read, with no open scope to add its instruction to, has written down its types already.
-/

namespace ChainQuery

namespace TypeFacts

def Unreserved (f : TypeFacts) : Prop :=
  ∀ name field, ChainField.ofName? name = some field → f.types.get? name = none

theorem unreserved_empty : ({} : TypeFacts).Unreserved := by
  intro name field _
  exact NameMap.get?_empty name

theorem Unreserved.set {f : TypeFacts} (h : f.Unreserved) {name : String} {t : ValueType}
    {declared : NameMap ValueType} (hname : ChainField.ofName? name = none) :
    TypeFacts.Unreserved ⟨f.types.set name t, declared⟩ := by
  intro other field hother
  have hne : name ≠ other := by
    intro heq
    rw [heq, hother] at hname
    cases hname
  show (f.types.set name t).get? other = none
  rw [NameMap.get?_set_of_ne f.types t hne]
  exact h other field hother

theorem Unreserved.forget {f : TypeFacts} (h : f.Unreserved) (name : String) :
    (f.forget name).Unreserved := by
  intro other field hother
  show (f.types.erase name).get? other = none
  rw [NameMap.get?_erase, h other field hother]
  exact ite_self none

theorem forget_eq_self {f : TypeFacts} {name : String} (h : f.types.get? name = none) :
    f.forget name = f := by
  have htypes : f.types.erase name = f.types := by
    apply NameMap.ext_get?
    intro other
    rw [NameMap.get?_erase]
    split
    · next heq => rw [← heq, h]
    · rfl
  rw [forget, htypes]

end TypeFacts

namespace Reading

theorem unreserved_of_yields {e : QueryEvent} {x : Reading Instruction} {f f' : TypeFacts}
    {i : Instruction} (hx : e.statement? = some x) (h : Yields x f i f') (hf : f.Unreserved) :
    f'.Unreserved := by
  obtain ⟨-, rfl⟩ | ⟨name, -, hname, hcase⟩ := facts_of_statement hx h
  · exact hf
  · obtain ⟨_, _, _, -, -, rfl⟩ | ⟨_, _, -, -, rfl⟩ | ⟨_, _, -, rfl⟩ := hcase
    · exact hf.set hname
    · exact hf.set hname
    · exact hf.forget name

theorem facts_of_fails {e : QueryEvent} {x : Reading Instruction} {f f' : TypeFacts}
    {cause : BuildError} (hx : e.statement? = some x) (h : Fails x f cause f')
    (hf : f.Unreserved) : f' = f := by
  cases hwritten : e.written? with
  | none => rw [← run_of_unwritten hx hwritten f, h]
  | some name =>
    cases e with
    | declaration type name value =>
      cases hx
      exact fails_declare h
    | assignment name value =>
      cases hx
      exact fails_assign h
    | call target method args =>
      cases hx
      obtain hsame | ⟨name, field, -, hname, hforgot⟩ := fails_call h
      · exact hsame
      -- the target is reserved, and so it had no type that could be forgotten
      · rw [hforgot, TypeFacts.forget_eq_self (hf name field hname)]
    | _ => cases hwritten

end Reading

namespace Draft

theorem fails_compose {change : Composer → Except BuildError Composer} {d d' : Draft}
    {cause : BuildError} :
    Fails (compose change) d cause d' ↔ change d.composer = .error cause ∧ d' = d := by
  unfold compose
  rw [fails_get_bind]
  simp only [fails_bind, fails_set, Compiling.fails_check, and_false, exists_false, or_false]

theorem fails_state {x : Reading Instruction} {d d' : Draft} {cause : BuildError} :
    Fails (state x) d cause d' ↔
      (∃ f, Fails x d.toTypeFacts cause f ∧ d' = { d with toTypeFacts := f }) ∨
        ∃ i f, Yields x d.toTypeFacts i f ∧ d.composer.add i = .error cause ∧
          d' = { d with toTypeFacts := f } := by
  unfold state
  simp only [fails_bind, Compiling.fails_reading, Compiling.yields_reading, fails_compose]
  constructor
  · intro h
    obtain h | ⟨i, _, ⟨f, hx, rfl⟩, hadd, rfl⟩ := h
    · exact .inl h
    · exact .inr ⟨i, f, hx, hadd, rfl⟩
  · intro h
    obtain h | ⟨i, f, hx, hadd, rfl⟩ := h
    · exact .inl h
    · exact .inr ⟨i, _, ⟨f, hx, rfl⟩, hadd, rfl⟩

theorem fails_operate {s : PredicateStep} {d d' : Draft} {cause : BuildError} :
    Fails (operate s) d cause d' ↔
      Operand.step d.operands s = .error cause ∧ d' = { d with operands := [] } := by
  unfold Fails
  rw [run_operate]
  cases Operand.step d.operands s with
  | error e =>
    constructor
    · intro h
      cases h
      exact ⟨rfl, rfl⟩
    · intro h
      obtain ⟨hcause, rfl⟩ := h
      cases hcause
      rfl
  | ok os =>
    constructor
    · intro h
      cases h
    · intro h
      cases h.1

theorem fails_takePredicate {d d' : Draft} {cause : BuildError} :
    Fails takePredicate d cause d' ↔
      Operand.finish d.operands = .error cause ∧ d' = { d with operands := [] } := by
  unfold takePredicate
  rw [fails_get_bind]
  simp only [fails_bind, fails_set, yields_set, Compiling.fails_check, false_or]
  constructor
  · intro h
    obtain ⟨_, _, rfl, hfinish, rfl⟩ := h
    exact ⟨hfinish, rfl⟩
  · intro h
    obtain ⟨hfinish, rfl⟩ := h
    exact ⟨⟨⟩, _, rfl, hfinish, rfl⟩

theorem fails_close {head : TypeFacts → Except BuildError Filter} {d d' : Draft}
    {cause : BuildError} (h : Fails (close head) d cause d') : d' = d := by
  unfold close at h
  rw [fails_get_bind] at h
  simp only [fails_bind, Compiling.fails_check, Compiling.yields_check, fails_compose] at h
  obtain ⟨-, h⟩ | ⟨_, _, ⟨-, rfl⟩, -, h⟩ := h <;> exact h

theorem fails_then_none {x : Compiling PUnit} {d d' : Draft} {cause : BuildError} :
    Fails (do x; return (none : Option Program)) d cause d' ↔ Fails x d cause d' := by
  simp only [fails_bind, fails_pure, and_false, exists_false, or_false]

/-- What a failed event has left: everything, but for operands that are all gone. -/
structure Left (d d' : Draft) : Prop where
  composer : d'.composer = d.composer
  facts : d'.toTypeFacts = d.toTypeFacts
  operands : d'.operands = d.operands ∨ d'.operands = []

theorem Left.refl (d : Draft) : d.Left d := ⟨rfl, rfl, .inl rfl⟩

theorem Left.cleared (d : Draft) : d.Left { d with operands := [] } := ⟨rfl, rfl, .inr rfl⟩

theorem left_of_step {x : Except BuildError α} {s : α → PredicateStep} {d d' : Draft}
    {cause : BuildError}
    (h : Fails (do let a ← Compiling.check x; operate (s a); return (none : Option Program)) d cause d') :
    d.Left d' := by
  rw [fails_bind] at h
  simp only [Compiling.fails_check, Compiling.yields_check, fails_then_none, fails_operate] at h
  obtain ⟨-, rfl⟩ | ⟨_, _, ⟨-, rfl⟩, -, rfl⟩ := h
  · exact .refl d'
  · exact .cleared _

theorem left_of_operate {s : PredicateStep} {d d' : Draft} {cause : BuildError}
    (h : Fails (do operate s; return (none : Option Program)) d cause d') : d.Left d' := by
  obtain ⟨-, rfl⟩ := fails_operate.mp (fails_then_none.mp h)
  exact .cleared d

theorem left_of_compose {change : Composer → Except BuildError Composer} {d d' : Draft}
    {cause : BuildError}
    (h : Fails (do compose change; return (none : Option Program)) d cause d') : d.Left d' := by
  obtain ⟨-, rfl⟩ := fails_compose.mp (fails_then_none.mp h)
  exact .refl d'

theorem left_of_close {head : TypeFacts → Except BuildError Filter} {d d' : Draft}
    {cause : BuildError}
    (h : Fails (do close head; return (none : Option Program)) d cause d') : d.Left d' := by
  obtain rfl := fails_close (fails_then_none.mp h)
  exact .refl d'

/-- An event that is no statement leaves everything when it fails, but for operands. -/
theorem left_of_unstated {e : QueryEvent} {d d' : Draft} {cause : BuildError}
    (he : e.statement? = none) (h : Fails (compile e) d cause d') : d.Left d' := by
  cases e with
  | position line column => exact absurd h fails_pure
  | enterProgram => exact left_of_compose h
  | exitProgram =>
    rw [compile, fails_get_bind] at h
    simp only [fails_bind, Compiling.fails_check, fails_set, fails_pure, and_false, exists_false,
      or_false] at h
    obtain ⟨-, rfl⟩ := h
    exact .refl d'
  | enterFilter kind => exact left_of_compose h
  | exitBlocks first last => exact left_of_close h
  | exitTransactions senders recipients => exact left_of_close h
  | exitLogEntries contracts signature => exact left_of_close h
  | exitContract address reads => exact left_of_close h
  | exitCondition =>
    rw [compile, fails_bind] at h
    simp only [fails_takePredicate, yields_takePredicate, fails_then_none, fails_compose] at h
    obtain ⟨-, rfl⟩ | ⟨_, _, ⟨-, rfl⟩, -, rfl⟩ := h <;> exact .cleared d
  | operand value => exact left_of_step h
  | comparison symbol => exact left_of_step h
  | conjunction => exact left_of_operate h
  | disjunction => exact left_of_operate h
  | negation => exact left_of_operate h
  | _ => cases he

theorem composer_of_fails {e : QueryEvent} {d d' : Draft} {cause : BuildError}
    (h : Fails (compile e) d cause d') : d'.composer = d.composer := by
  cases hx : e.statement? with
  | none => exact (left_of_unstated hx h).composer
  | some x =>
    rw [compile_statement hx] at h
    obtain ⟨_, -, rfl⟩ | ⟨_, _, -, -, rfl⟩ := fails_state.mp (fails_then_none.mp h) <;> rfl

/-- A statement that fails leaves everything, unless no scope was open for what has been read. -/
theorem left_of_statement {e : QueryEvent} {x : Reading Instruction} {d d' : Draft}
    {cause : BuildError} (hx : e.statement? = some x) (hfree : d.Unreserved)
    (h : Fails (compile e) d cause d') :
    d.Left d' ∧ (∀ i f, ¬ Yields x d.toTypeFacts i f) ∨
      ¬ d.composer.Open ∧ ∃ i f, Yields x d.toTypeFacts i f ∧ d' = { d with toTypeFacts := f } := by
  rw [compile_statement hx] at h
  obtain ⟨f, hfails, rfl⟩ | ⟨i, f, hyields, hadd, rfl⟩ := fails_state.mp (fails_then_none.mp h)
  · have hunread : ∀ i g, ¬ Yields x d.toTypeFacts i g := by
      intro i g hyields
      cases hfails.symm.trans hyields
    obtain rfl := Reading.facts_of_fails hx hfails hfree
    exact .inl ⟨.refl d, hunread⟩
  · refine .inr ⟨?_, i, f, hyields, rfl⟩
    intro hopen
    rw [(Composer.add_eq_ok hopen).mpr rfl] at hadd
    cases hadd

end Draft

namespace Compiler

def after (c : Compiler) (es : List QueryEvent) : Compiler :=
  es.foldl (fun c e => (c.step e).2) c

theorem step_eq_error {c c' : Compiler} {e : QueryEvent} {err : LocatedError} :
    c.step e = (.error err, c') ↔
      ∃ cause d, Fails (Draft.compile e) c.toDraft cause d ∧ err = ⟨cause, c.position⟩ ∧
        c' = { c with toDraft := d } := by
  cases hpos : e.isPosition with
  | true =>
    obtain ⟨_, hok, -⟩ := step_position (c := c) hpos
    rw [hok]
    constructor
    · intro h
      cases h
    · rintro ⟨_, _, hfails, -⟩
      cases e with
      | position line column => exact absurd hfails fails_pure
      | _ => cases hpos
  | false =>
    have hlocate : c.locate e = c := by
      cases e <;> first | rfl | cases hpos
    unfold Fails
    rw [step, hlocate]
    rcases (Draft.compile e).run c.toDraft with ⟨cause | program, d⟩
    · constructor
      · intro h
        cases h
        exact ⟨cause, d, rfl, rfl, rfl⟩
      · rintro ⟨_, _, h, rfl, rfl⟩
        cases h
        rfl
    · constructor
      · intro h
        cases h
      · rintro ⟨_, _, h, -⟩
        cases h

theorem yields_of_step {c : Compiler} {e : QueryEvent} {result : Option Program}
    (h : (c.step e).1 = .ok result) :
    ∃ d, Yields (Draft.compile e) c.toDraft result d ∧ (c.step e).2.toDraft = d := by
  rcases hstep : c.step e with ⟨r, c'⟩
  rw [hstep] at h
  obtain rfl : r = .ok result := h
  obtain ⟨d, hyields, rfl⟩ := step_eq_ok.mp hstep
  exact ⟨d, hyields, rfl⟩

theorem fails_of_step {c : Compiler} {e : QueryEvent} {err : LocatedError}
    (h : (c.step e).1 = .error err) :
    ∃ cause d, Fails (Draft.compile e) c.toDraft cause d ∧ (c.step e).2.toDraft = d := by
  rcases hstep : c.step e with ⟨r, c'⟩
  rw [hstep] at h
  obtain rfl : r = .error err := h
  obtain ⟨cause, d, hfails, -, rfl⟩ := step_eq_error.mp hstep
  exact ⟨cause, d, hfails, rfl⟩

/-- What an event leaves of the types, whether it fails or not: they change if it is a statement that
can be read, and in no other case. -/
theorem facts_step {c : Compiler} (hfree : c.Unreserved) (e : QueryEvent) :
    (c.step e).2.toTypeFacts = c.toTypeFacts ∨
      ∃ x i, e.statement? = some x ∧ Yields x c.toTypeFacts i (c.step e).2.toTypeFacts := by
  rcases hstep : c.step e with ⟨err | result, c'⟩
  · obtain ⟨cause, d, hfails, -, rfl⟩ := step_eq_error.mp hstep
    cases hx : e.statement? with
    | none => exact .inl (Draft.left_of_unstated hx hfails).facts
    | some x =>
      obtain ⟨hleft, -⟩ | ⟨-, i, f, hread, rfl⟩ := Draft.left_of_statement hx hfree hfails
      · exact .inl hleft.facts
      · exact .inr ⟨x, i, rfl, hread⟩
  · obtain ⟨d, hyields, rfl⟩ := step_eq_ok.mp hstep
    cases hx : e.statement? with
    | none => exact .inl (Draft.facts_of_unstated hx hyields)
    | some x =>
      obtain ⟨-, i, f, hread, rfl⟩ := Draft.read_of_statement hx hyields
      exact .inr ⟨x, i, rfl, hread⟩

theorem unreserved_step {c : Compiler} (h : c.Unreserved) (e : QueryEvent) :
    (c.step e).2.Unreserved := by
  obtain hsame | ⟨x, i, hx, hread⟩ := facts_step h e
  · rw [hsame]
    exact h
  · exact Reading.unreserved_of_yields hx hread h

theorem unreserved_after {c : Compiler} (h : c.Unreserved) (es : List QueryEvent) :
    (c.after es).Unreserved := by
  induction es generalizing c with
  | nil => exact h
  | cons e es ih => exact ih (unreserved_step h e)

end Compiler

end ChainQuery
