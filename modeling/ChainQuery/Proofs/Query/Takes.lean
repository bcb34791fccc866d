import ChainQuery.Proofs.Query.Steps

/-!
# Events that are taken

Which drafts an event or a list of events leads to, as long as none of them fails.
-/

namespace ChainQuery

namespace Composer

def Open (c : Composer) : Prop := c.scopes ≠ []

def extend (c : Composer) (is : List Instruction) : Composer :=
  match c.scopes with
  | [] => c
  | s :: scopes => ⟨{ s with body := s.body ++ is } :: scopes⟩

theorem extend_nil (c : Composer) : c.extend [] = c := by
  rcases c with ⟨_ | ⟨s, scopes⟩⟩
  · rfl
  · simp [extend]

theorem extend_append (c : Composer) (is js : List Instruction) :
    (c.extend is).extend js = c.extend (is ++ js) := by
  rcases c with ⟨_ | ⟨s, scopes⟩⟩
  · rfl
  · simp [extend]

theorem Open.extend {c : Composer} (h : c.Open) (is : List Instruction) : (c.extend is).Open := by
  rcases c with ⟨_ | ⟨s, scopes⟩⟩
  · exact absurd rfl h
  · simp [Open, Composer.extend]

theorem add_eq_ok {c c' : Composer} {i : Instruction} (h : c.Open) :
    c.add i = .ok c' ↔ c' = c.extend [i] := by
  rcases c with ⟨_ | ⟨s, scopes⟩⟩
  · exact absurd rfl h
  · simp [add, Composer.extend, eq_comm]

theorem openFilter_eq_ok {c c' : Composer} {k : FilterKind} (h : c.Open) :
    c.openFilter k = .ok c' ↔ c' = ⟨{ kind := .filter k } :: c.scopes⟩ := by
  rcases c with ⟨_ | ⟨s, scopes⟩⟩
  · exact absurd rfl h
  · simp [openFilter, eq_comm]

theorem closeFilter_eq_ok {c c' : Composer} {f : Filter} {is : List Instruction} (h : c.Open) :
    (Composer.mk ({ kind := .filter f.kind, body := is } :: c.scopes)).closeFilter f = .ok c' ↔
      c' = c.extend [.filter f is] := by
  simpa [closeFilter] using add_eq_ok h

end Composer

namespace Draft

def extend (d : Draft) (f : TypeFacts) (is : List Instruction) : Draft :=
  { d with toTypeFacts := f, composer := d.composer.extend is }

theorem yields_compose {change : Composer → Except BuildError Composer} {d d' : Draft} {u : Unit} :
    Yields (compose change) d u d' ↔
      ∃ c, change d.composer = .ok c ∧ d' = { d with composer := c } := by
  unfold compose
  rw [yields_get_bind]
  simp only [yields_bind, yields_set, Compiling.yields_check]
  constructor
  · intro h
    obtain ⟨c, _, ⟨hc, rfl⟩, rfl⟩ := h
    exact ⟨c, hc, rfl⟩
  · intro h
    obtain ⟨c, hc, rfl⟩ := h
    exact ⟨c, d, ⟨hc, rfl⟩, rfl⟩

theorem yields_state {x : Reading Instruction} {d d' : Draft} {u : Unit} (h : d.composer.Open) :
    Yields (state x) d u d' ↔
      ∃ i f, Yields x d.toTypeFacts i f ∧ d' = d.extend f [i] := by
  unfold state
  simp only [yields_bind, Compiling.yields_reading, yields_compose]
  constructor
  · intro hex
    obtain ⟨i, _, ⟨f, hx, rfl⟩, c, hc, rfl⟩ := hex
    rw [(Composer.add_eq_ok h).mp hc]
    exact ⟨i, f, hx, rfl⟩
  · intro hex
    obtain ⟨i, f, hx, rfl⟩ := hex
    exact ⟨i, _, ⟨f, hx, rfl⟩, _, (Composer.add_eq_ok h).mpr rfl, rfl⟩

theorem yields_operate {s : PredicateStep} {d d' : Draft} {u : Unit} :
    Yields (operate s) d u d' ↔
      ∃ os, Operand.step d.operands s = .ok os ∧ d' = { d with operands := os } := by
  unfold operate
  rw [yields_get_bind]
  cases hs : Operand.step d.operands s with
  | error e => simp only [yields_bind, yields_throw, and_false, exists_false, reduceCtorEq, false_and]
  | ok os => simp only [yields_set, Except.ok.injEq, exists_eq_left']

theorem yields_takePredicate {d d' : Draft} {p : Predicate} :
    Yields takePredicate d p d' ↔
      Operand.finish d.operands = .ok p ∧ d' = { d with operands := [] } := by
  unfold takePredicate
  rw [yields_get_bind]
  simp only [yields_bind, yields_set, Compiling.yields_check]
  constructor
  · intro h
    obtain ⟨_, _, rfl, hp, rfl⟩ := h
    exact ⟨hp, rfl⟩
  · intro h
    obtain ⟨hp, rfl⟩ := h
    exact ⟨⟨⟩, _, rfl, hp, rfl⟩

theorem yields_close {head : TypeFacts → Except BuildError Filter} {d d' : Draft} {u : Unit} :
    Yields (close head) d u d' ↔
      ∃ f c, head d.toTypeFacts = .ok f ∧ d.composer.closeFilter f = .ok c ∧
        d' = { d with composer := c } := by
  unfold close
  rw [yields_get_bind]
  simp only [yields_bind, Compiling.yields_check, yields_compose]
  constructor
  · intro h
    obtain ⟨f, _, ⟨hf, rfl⟩, c, hc, rfl⟩ := h
    exact ⟨f, c, hf, hc, rfl⟩
  · intro h
    obtain ⟨f, c, hf, hc, rfl⟩ := h
    exact ⟨f, d, ⟨hf, rfl⟩, c, hc, rfl⟩

theorem yields_then_none {x : Compiling PUnit} {d d' : Draft} :
    Yields (do x; return (none : Option Program)) d none d' ↔ Yields x d ⟨⟩ d' := by
  simp only [yields_bind, yields_pure]
  constructor
  · intro h
    obtain ⟨⟨⟩, _, hx, _, rfl⟩ := h
    exact hx
  · intro hx
    exact ⟨⟨⟩, d', hx, trivial, rfl⟩

/-- The events bring a draft to another one without a failure and without a program. -/
def Takes (d : Draft) : List QueryEvent → Draft → Prop
  | [], d' => d' = d
  | e :: es, d' => ∃ d₁, Yields (compile e) d none d₁ ∧ Takes d₁ es d'

theorem takes_single {d d' : Draft} {e : QueryEvent} :
    d.Takes [e] d' ↔ Yields (compile e) d none d' := by
  constructor
  · intro hex
    obtain ⟨d₁, h, rfl⟩ := hex
    exact h
  · intro h
    exact ⟨d', h, rfl⟩

theorem takes_append {es es' : List QueryEvent} {d d' : Draft} :
    d.Takes (es ++ es') d' ↔ ∃ d₁, d.Takes es d₁ ∧ d₁.Takes es' d' := by
  induction es generalizing d with
  | nil => simp [Takes]
  | cons e es ih =>
    constructor
    · intro hex
      obtain ⟨d₁, h₁, h⟩ := hex
      obtain ⟨d₂, h₂, h'⟩ := ih.mp h
      exact ⟨d₂, ⟨d₁, h₁, h₂⟩, h'⟩
    · intro hex
      obtain ⟨d₂, ⟨d₁, h₁, h₂⟩, h'⟩ := hex
      exact ⟨d₁, h₁, ih.mpr ⟨d₂, h₂, h'⟩⟩

end Draft
end ChainQuery
