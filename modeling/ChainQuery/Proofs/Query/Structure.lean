import ChainQuery.Proofs.Query.Conditions

/-!
# The structure of compiled queries

Feeding the walk of a query to the compiler gives the elaboration of the query exactly when no
condition stands in the body of another one: the compiler keeps the operands of all open conditions
on one stack.
-/

namespace ChainQuery

namespace Draft

theorem compile_statement {e : QueryEvent} {x : Reading Instruction} (h : e.statement? = some x) :
    compile e = (do state x; return none) := by
  cases e <;> cases h <;> rfl

theorem takes_statement {s : WrittenStatement} {d d' : Draft} (h : d.composer.Open) :
    d.Takes [s.event] d' ↔ ∃ i f, Yields s.read d.toTypeFacts i f ∧ d' = d.extend f [i] := by
  have hread : s.event.statement? = some s.read := (Option.some_get _).symm
  rw [takes_single, compile_statement hread, yields_then_none, yields_state h]

theorem compile_exit {head : WrittenHead} (h : head.kind ≠ .condition) :
    compile head.exit = (do close head.toFilter; return none) := by
  cases head with
  | condition c => exact absurd rfl h
  | _ => rfl

end Draft

theorem WrittenHead.kind_of_toFilter {head : WrittenHead} {f : TypeFacts} {flt : Filter}
    (h : head.toFilter f = .ok flt) : flt.kind = head.kind := by
  cases head with
  | blocks first last =>
    simp only [toFilter, Draft.blocksFilter, except_bind_eq_ok] at h
    obtain ⟨_, _, _, _, _, _, h⟩ := h
    cases h
    rfl
  | transactions senders recipients =>
    simp only [toFilter, Draft.transactionsFilter, except_bind_eq_ok] at h
    obtain ⟨_, _, _, _, h⟩ := h
    cases h
    rfl
  | logEntries contracts signature =>
    simp only [toFilter, Draft.logEntriesFilter, except_bind_eq_ok] at h
    obtain ⟨_, _, h⟩ := h
    cases signature with
    | none =>
      cases h
      rfl
    | some e =>
      obtain ⟨_, _, h⟩ := except_bind_eq_ok.mp h
      cases h
      rfl
  | contract address reads =>
    simp only [toFilter, Draft.contractFilter, except_bind_eq_ok] at h
    obtain ⟨_, _, _, _, h⟩ := h
    cases h
    rfl
  | condition c =>
    simp only [toFilter, except_map_eq_ok] at h
    obtain ⟨_, _, rfl⟩ := h
    rfl

namespace QueryNode

theorem yields_elaborate_scope {head : WrittenHead} {body : List QueryNode} {f f' : TypeFacts}
    {i : Instruction} :
    Yields (elaborate (.scope head body)) f i f' ↔
      ∃ is flt, Yields (elaborateAll body) f is f' ∧ head.toFilter f' = .ok flt ∧
        i = .filter flt is := by
  rw [elaborate, yields_bind]
  simp only [yields_get_bind]
  simp only [yields_bind, Reading.yields_check, yields_pure]
  constructor
  · intro h
    obtain ⟨is, _, his, flt, _, ⟨hflt, rfl⟩, rfl, rfl⟩ := h
    exact ⟨is, flt, his, hflt, rfl⟩
  · intro h
    obtain ⟨is, flt, his, hflt, rfl⟩ := h
    exact ⟨is, f', his, flt, f', ⟨hflt, rfl⟩, rfl, rfl⟩

theorem yields_elaborateAll_cons {n : QueryNode} {ns : List QueryNode} {f f' : TypeFacts}
    {is : List Instruction} :
    Yields (elaborateAll (n :: ns)) f is f' ↔
      ∃ i js g, Yields n.elaborate f i g ∧ Yields (elaborateAll ns) g js f' ∧ is = i :: js := by
  simp only [elaborateAll, yields_bind, yields_pure]
  constructor
  · intro h
    obtain ⟨i, g, hi, js, _, hjs, rfl, rfl⟩ := h
    exact ⟨i, js, g, hi, hjs, rfl⟩
  · intro h
    obtain ⟨i, js, g, hi, hjs, rfl⟩ := h
    exact ⟨i, g, hi, js, f', hjs, rfl, rfl⟩

end QueryNode

namespace Draft

/-- Whether a condition is open whose operands lie on the stack. -/
def inCondition (d : Draft) : Bool := !d.operands.isEmpty

def enter (d : Draft) (k : FilterKind) : Draft :=
  { d with composer := ⟨{ kind := .filter k } :: d.composer.scopes⟩ }

theorem takes_enterFilter {k : FilterKind} {d d' : Draft} (h : d.composer.Open) :
    d.Takes [.enterFilter k] d' ↔ d' = d.enter k := by
  rw [takes_single, show compile (.enterFilter k) =
    (do compose fun c => c.openFilter k; return none) from rfl, yields_then_none, yields_compose]
  constructor
  · intro hex
    obtain ⟨c, hc, rfl⟩ := hex
    rw [(Composer.openFilter_eq_ok h).mp hc]
    rfl
  · intro heq
    subst heq
    exact ⟨_, (Composer.openFilter_eq_ok h).mpr rfl, rfl⟩

/-- Closing a scope that was opened in a draft, with a filter of its kind. -/
theorem closeFilter_extend_enter {k : FilterKind} {d : Draft} {f : TypeFacts} {is : List Instruction}
    {flt : Filter} {c : Composer} (hk : flt.kind = k) (h : d.composer.Open) :
    (((d.enter k).extend f is).composer.closeFilter flt) = .ok c ↔
      c = d.composer.extend [.filter flt is] := by
  subst hk
  exact Composer.closeFilter_eq_ok h

theorem takes_exit {head : WrittenHead} (hkind : head.kind ≠ .condition) {d d' : Draft}
    {f : TypeFacts} {is : List Instruction} (h : d.composer.Open) :
    ((d.enter head.kind).extend f is).Takes [head.exit] d' ↔
      ∃ flt, head.toFilter f = .ok flt ∧ d' = d.extend f [.filter flt is] := by
  rw [takes_single, compile_exit hkind, yields_then_none, yields_close]
  constructor
  · intro hex
    obtain ⟨flt, c, hflt, hc, rfl⟩ := hex
    rw [(closeFilter_extend_enter (WrittenHead.kind_of_toFilter hflt) h).mp hc]
    exact ⟨flt, hflt, rfl⟩
  · intro hex
    obtain ⟨flt, hflt, rfl⟩ := hex
    exact ⟨flt, _, hflt,
      (closeFilter_extend_enter (WrittenHead.kind_of_toFilter hflt) h).mpr rfl, rfl⟩

theorem takes_exitCondition {d d' : Draft} {f : TypeFacts} {is : List Instruction} {o : Operand}
    (h : d.composer.Open) :
    (((d.enter .condition).push o).extend f is).Takes [.exitCondition] d' ↔
      d.inCondition = false ∧ ∃ p, o.toPredicate = .ok p ∧
        d' = d.extend f [.filter (.condition p) is] := by
  rw [takes_single, show compile .exitCondition = (do
    let p ← takePredicate
    compose fun c => c.closeFilter (.condition p)
    return none) from rfl, yields_bind]
  simp only [yields_then_none, yields_takePredicate, yields_compose]
  have hempty : d.inCondition = false ↔ d.operands = [] := by
    simp [inCondition]
  have hclose : ∀ p c, (((d.enter .condition).push o).extend f is).composer.closeFilter
      (.condition p) = .ok c ↔ c = d.composer.extend [.filter (.condition p) is] := by
    intro p c
    exact closeFilter_extend_enter (k := .condition) (f := f) rfl h
  rw [hempty]
  constructor
  · intro hex
    obtain ⟨p, _, ⟨hp, rfl⟩, c, hc, rfl⟩ := hex
    obtain ⟨hnil, ho⟩ := Operand.finish_eq_ok.mp hp
    rw [(hclose p c).mp hc]
    refine ⟨hnil, p, ho, ?_⟩
    -- the exit leaves no operands, and there were none before the condition
    rw [extend, ← hnil]
    rfl
  · intro hex
    obtain ⟨hnil, p, ho, rfl⟩ := hex
    refine ⟨p, _, ⟨Operand.finish_eq_ok.mpr ⟨hnil, ho⟩, rfl⟩, _, (hclose p _).mpr rfl, ?_⟩
    rw [extend, ← hnil]
    rfl

theorem extend_nil (d : Draft) : d.extend d.toTypeFacts [] = d := by
  rw [extend, Composer.extend_nil]

theorem extend_append (d : Draft) (f g : TypeFacts) (is js : List Instruction) :
    (d.extend f is).extend g js = d.extend g (is ++ js) := by
  simp only [extend, Composer.extend_append]

/-- What feeding nodes to a draft does: they become their elaborations if they are apart from the open
conditions, and else some event fails. -/
def TakesAll (ns : List QueryNode) : Prop :=
  ∀ d d' : Draft, d.composer.Open →
    (d.Takes (QueryNode.walkAll ns) d' ↔ QueryNode.apartAll d.inCondition ns = true ∧
      ∃ is f, Yields (QueryNode.elaborateAll ns) d.toTypeFacts is f ∧ d' = d.extend f is)

theorem takes_condition_scope {c : WrittenCondition} {body : List QueryNode} {d d' : Draft}
    (hbody : TakesAll body) (h : d.composer.Open) :
    d.Takes (QueryNode.scope (.condition c) body).walk d' ↔
      (d.inCondition = false ∧ QueryNode.apartAll true body = true) ∧
        ∃ i f, Yields (QueryNode.elaborate (.scope (.condition c) body)) d.toTypeFacts i f ∧
          d' = d.extend f [i] := by
  have hopen : ∀ o, ((d.enter .condition).push o).composer.Open := fun _ => List.cons_ne_nil _ _
  have hwalk : (QueryNode.scope (.condition c) body).walk =
      [.enterFilter .condition] ++ (c.events ++ (QueryNode.walkAll body ++ [.exitCondition])) := rfl
  simp only [hwalk, takes_append, takes_enterFilter h, exists_eq_left, takes_condition,
    QueryNode.yields_elaborate_scope, WrittenHead.toFilter, except_map_eq_ok,
    WrittenCondition.toPredicate_eq_ok]
  constructor
  · intro hall
    obtain ⟨_, ⟨o, ho, rfl⟩, _, htakes, hexit⟩ := hall
    obtain ⟨hapart, is, f, his, rfl⟩ := (hbody _ _ (hopen o)).mp htakes
    obtain ⟨houter, p, hp, rfl⟩ := (takes_exitCondition h).mp hexit
    exact ⟨⟨houter, hapart⟩, _, f, ⟨is, _, his, ⟨p, ⟨o, ho, hp⟩, rfl⟩, rfl⟩, rfl⟩
  · intro hall
    obtain ⟨⟨houter, hapart⟩, _, f, ⟨is, _, his, ⟨p, ⟨o, ho, hp⟩, rfl⟩, rfl⟩, rfl⟩ := hall
    exact ⟨_, ⟨o, ho, rfl⟩, _, (hbody _ _ (hopen o)).mpr ⟨hapart, is, f, his, rfl⟩,
      (takes_exitCondition h).mpr ⟨houter, p, hp, rfl⟩⟩

theorem takes_plain_scope {head : WrittenHead} {body : List QueryNode} {d d' : Draft}
    (hkind : head.kind ≠ .condition) (hbody : TakesAll body) (h : d.composer.Open) :
    d.Takes (QueryNode.scope head body).walk d' ↔
      QueryNode.apartAll d.inCondition body = true ∧
        ∃ i f, Yields (QueryNode.elaborate (.scope head body)) d.toTypeFacts i f ∧
          d' = d.extend f [i] := by
  have hopen : (d.enter head.kind).composer.Open := List.cons_ne_nil _ _
  have hwalk : (QueryNode.scope head body).walk =
      [.enterFilter head.kind] ++ (QueryNode.walkAll body ++ [head.exit]) := by
    cases head <;> first | rfl | exact absurd rfl hkind
  simp only [hwalk, takes_append, takes_enterFilter h, exists_eq_left,
    QueryNode.yields_elaborate_scope]
  constructor
  · intro hall
    obtain ⟨_, htakes, hexit⟩ := hall
    obtain ⟨hapart, is, f, his, rfl⟩ := (hbody _ _ hopen).mp htakes
    obtain ⟨flt, hflt, rfl⟩ := (takes_exit hkind h).mp hexit
    exact ⟨hapart, _, f, ⟨is, flt, his, hflt, rfl⟩, rfl⟩
  · intro hall
    obtain ⟨hapart, _, f, ⟨is, flt, his, hflt, rfl⟩, rfl⟩ := hall
    exact ⟨_, (hbody _ _ hopen).mpr ⟨hapart, is, f, his, rfl⟩,
      (takes_exit hkind h).mpr ⟨flt, hflt, rfl⟩⟩

mutual

theorem takes_walk {d d' : Draft} (h : d.composer.Open) (n : QueryNode) :
    d.Takes n.walk d' ↔ n.apart d.inCondition = true ∧
      ∃ i f, Yields n.elaborate d.toTypeFacts i f ∧ d' = d.extend f [i] := by
  cases n with
  | statement s =>
    rw [QueryNode.walk, takes_statement h]
    simp [QueryNode.apart, QueryNode.elaborate]
  | scope head body =>
    cases head with
    | condition c =>
      rw [takes_condition_scope (takesAll body) h]
      simp [QueryNode.apart, WrittenHead.kind]
    | _ =>
      rw [takes_plain_scope (by intro hkind; cases hkind) (takesAll body) h]
      simp [QueryNode.apart, WrittenHead.kind]

theorem takesAll (ns : List QueryNode) : TakesAll ns := by
  intro d d' h
  cases ns with
  | nil =>
    simp only [QueryNode.walkAll, QueryNode.apartAll, QueryNode.elaborateAll, yields_pure, Takes]
    constructor
    · intro heq
      subst heq
      exact ⟨trivial, [], _, ⟨rfl, rfl⟩, (extend_nil _).symm⟩
    · intro hex
      obtain ⟨-, _, _, ⟨rfl, rfl⟩, rfl⟩ := hex
      exact extend_nil d
  | cons n ns =>
    have hopen : ∀ i f, (d.extend f [i]).composer.Open := fun i _ => h.extend [i]
    simp only [QueryNode.walkAll, QueryNode.apartAll, QueryNode.yields_elaborateAll_cons,
      takes_append, Bool.and_eq_true]
    constructor
    · intro hex
      obtain ⟨_, hn, hns⟩ := hex
      obtain ⟨hapart, i, g, hi, rfl⟩ := (takes_walk h n).mp hn
      obtain ⟨haparts, js, f, hjs, rfl⟩ := (takesAll ns _ _ (hopen i g)).mp hns
      exact ⟨⟨hapart, haparts⟩, _, f, ⟨i, js, g, hi, hjs, rfl⟩, extend_append d g f [i] js⟩
    · intro hex
      obtain ⟨⟨hapart, haparts⟩, _, f, ⟨i, js, g, hi, hjs, rfl⟩, rfl⟩ := hex
      exact ⟨_, (takes_walk h n).mpr ⟨hapart, i, g, hi, rfl⟩,
        (takesAll ns _ _ (hopen i g)).mpr
          ⟨haparts, js, f, hjs, (extend_append d g f [i] js).symm⟩⟩

end

end Draft
end ChainQuery
