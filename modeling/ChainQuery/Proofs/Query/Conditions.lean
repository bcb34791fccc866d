import ChainQuery.Proofs.Query.Takes
import ChainQuery.Proofs.Query.Tree

/-!
# Conditions on the stack of operands

The traversal of a boolean expression leaves its own operand on the stack and nothing else, whatever
lies below it. The end of a condition accepts that operand only if nothing lies below it.
-/

namespace ChainQuery

namespace WrittenCondition

def toOperand : WrittenCondition → Except BuildError Operand
  | value v => v.toTerm.map Operand.term
  | c => c.toPredicate.map Operand.predicate

theorem toPredicate_eq_ok {c : WrittenCondition} {p : Predicate} :
    c.toPredicate = .ok p ↔ ∃ o, c.toOperand = .ok o ∧ o.toPredicate = .ok p := by
  have hjoined : ∀ x : Except BuildError Predicate,
      x = .ok p ↔ ∃ o, x.map Operand.predicate = .ok o ∧ o.toPredicate = .ok p := by
    intro x
    simp only [except_map_eq_ok]
    constructor
    · intro hx
      exact ⟨_, ⟨p, hx, rfl⟩, rfl⟩
    · intro h
      obtain ⟨_, ⟨q, hx, rfl⟩, hq⟩ := h
      cases hq
      exact hx
  cases c with
  | value v =>
    simp only [toPredicate, toOperand, except_bind_eq_ok, except_map_eq_ok]
    constructor
    · intro h
      obtain ⟨t, ht, hp⟩ := h
      exact ⟨_, ⟨t, ht, rfl⟩, hp⟩
    · intro h
      obtain ⟨_, ⟨t, ht, rfl⟩, hp⟩ := h
      exact ⟨t, ht, hp⟩
  | _ => exact hjoined _

end WrittenCondition

namespace Operand

theorem join_eq_ok {op : Predicate → Predicate → Predicate} {left right : Operand}
    {rest os : List Operand} :
    join op (right :: left :: rest) = .ok os ↔
      ∃ p q, left.toPredicate = .ok p ∧ right.toPredicate = .ok q ∧
        os = predicate (op p q) :: rest := by
  simp only [join, except_bind_eq_ok]
  constructor
  · intro hex
    obtain ⟨p, hp, q, hq, h⟩ := hex
    cases h
    exact ⟨p, q, hp, hq, rfl⟩
  · intro hex
    obtain ⟨p, q, hp, hq, rfl⟩ := hex
    exact ⟨p, hp, q, hq, rfl⟩

theorem finish_eq_ok {o : Operand} {rest : List Operand} {p : Predicate} :
    finish (o :: rest) = .ok p ↔ rest = [] ∧ o.toPredicate = .ok p := by
  cases rest with
  | nil => simp [finish]
  | cons _ _ => simp [finish]

end Operand

namespace Draft

theorem takes_step {x : Except BuildError α} {s : α → PredicateStep} {e : QueryEvent}
    {d d' : Draft}
    (he : compile e = (do let a ← Compiling.check x; operate (s a); return none)) :
    d.Takes [e] d' ↔
      ∃ a os, x = .ok a ∧ Operand.step d.operands (s a) = .ok os ∧
        d' = { d with operands := os } := by
  rw [takes_single, he]
  simp only [yields_bind, Compiling.yields_check, yields_operate, yields_pure]
  constructor
  · intro h
    obtain ⟨a, _, ⟨hx, rfl⟩, _, _, ⟨os, hs, rfl⟩, _, rfl⟩ := h
    exact ⟨a, os, hx, hs, rfl⟩
  · intro h
    obtain ⟨a, os, hx, hs, rfl⟩ := h
    exact ⟨a, d, ⟨hx, rfl⟩, ⟨⟩, _, ⟨os, hs, rfl⟩, trivial, rfl⟩

def push (d : Draft) (o : Operand) : Draft :=
  { d with operands := o :: d.operands }

theorem takes_operand {v : WrittenValue} {d d' : Draft} :
    d.Takes [.operand v] d' ↔ ∃ t, v.toTerm = .ok t ∧ d' = d.push (.term t) := by
  rw [takes_step (x := v.toTerm) (s := .operand) rfl]
  constructor
  · intro h
    obtain ⟨t, os, ht, hs, rfl⟩ := h
    cases hs
    exact ⟨t, ht, rfl⟩
  · intro h
    obtain ⟨t, ht, rfl⟩ := h
    exact ⟨t, _, ht, rfl, rfl⟩

theorem takes_comparison {symbol : String} {left right : Term} {d d' : Draft} :
    ((d.push (.term left)).push (.term right)).Takes [.comparison symbol] d' ↔
      ∃ c, Comparator.read symbol = .ok c ∧ d' = d.push (.predicate (.compare c left right)) := by
  rw [takes_step (x := Comparator.read symbol) (s := .compare) rfl]
  constructor
  · intro h
    obtain ⟨c, os, hc, hs, rfl⟩ := h
    cases hs
    exact ⟨c, hc, rfl⟩
  · intro h
    obtain ⟨c, hc, rfl⟩ := h
    exact ⟨c, _, hc, rfl, rfl⟩

theorem takes_join {op : Predicate → Predicate → Predicate} {e : QueryEvent} {s : PredicateStep}
    {left right : Operand} {d d' : Draft}
    (he : compile e = (do operate s; return none))
    (hs : ∀ os, Operand.step os s = Operand.join op os) :
    ((d.push left).push right).Takes [e] d' ↔
      ∃ p q, left.toPredicate = .ok p ∧ right.toPredicate = .ok q ∧
        d' = d.push (.predicate (op p q)) := by
  rw [takes_single, he, yields_then_none, yields_operate, hs]
  simp only [push, Operand.join_eq_ok]
  constructor
  · intro h
    obtain ⟨_, ⟨p, q, hp, hq, rfl⟩, rfl⟩ := h
    exact ⟨p, q, hp, hq, rfl⟩
  · intro h
    obtain ⟨p, q, hp, hq, rfl⟩ := h
    exact ⟨_, ⟨p, q, hp, hq, rfl⟩, rfl⟩

theorem takes_negation {o : Operand} {d d' : Draft} :
    (d.push o).Takes [.negation] d' ↔
      ∃ p, o.toPredicate = .ok p ∧ d' = d.push (.predicate (.not p)) := by
  rw [takes_single, show compile .negation = (do operate .not; return none) from rfl,
    yields_then_none, yields_operate]
  simp only [push, Operand.step, except_bind_eq_ok]
  constructor
  · intro h
    obtain ⟨os, ⟨p, hp, hos⟩, rfl⟩ := h
    cases hos
    exact ⟨p, hp, rfl⟩
  · intro h
    obtain ⟨p, hp, rfl⟩ := h
    exact ⟨_, ⟨p, hp, rfl⟩, rfl⟩

/-- The traversal of two joined expressions, once each of them leaves its operand. -/
theorem takes_joined {op : Predicate → Predicate → Predicate} {e : QueryEvent} {s : PredicateStep}
    {c left right : WrittenCondition}
    (hevents : c.events = left.events ++ right.events ++ [e])
    (hoperand : c.toOperand = (do
      let p ← left.toPredicate
      let q ← right.toPredicate
      return op p q : Except BuildError Predicate).map Operand.predicate)
    (he : compile e = (do operate s; return none))
    (hs : ∀ os, Operand.step os s = Operand.join op os)
    (hleft : ∀ {d d' : Draft}, d.Takes left.events d' ↔ ∃ o, left.toOperand = .ok o ∧ d' = d.push o)
    (hright : ∀ {d d' : Draft},
      d.Takes right.events d' ↔ ∃ o, right.toOperand = .ok o ∧ d' = d.push o)
    {d d' : Draft} :
    d.Takes c.events d' ↔ ∃ o, c.toOperand = .ok o ∧ d' = d.push o := by
  simp only [hevents, hoperand, takes_append, hleft, hright, except_map_eq_ok, except_bind_eq_ok,
    WrittenCondition.toPredicate_eq_ok]
  constructor
  · intro hex
    obtain ⟨_, ⟨_, ⟨l, hl, rfl⟩, r, hr, rfl⟩, h⟩ := hex
    obtain ⟨p, q, hp, hq, rfl⟩ := (takes_join he hs).mp h
    exact ⟨_, ⟨_, ⟨p, ⟨l, hl, hp⟩, q, ⟨r, hr, hq⟩, rfl⟩, rfl⟩, rfl⟩
  · intro hex
    obtain ⟨_, ⟨_, ⟨p, ⟨l, hl, hp⟩, q, ⟨r, hr, hq⟩, hop⟩, rfl⟩, rfl⟩ := hex
    cases hop
    exact ⟨_, ⟨_, ⟨l, hl, rfl⟩, r, hr, rfl⟩, (takes_join he hs).mpr ⟨p, q, hp, hq, rfl⟩⟩

theorem takes_condition {c : WrittenCondition} {d d' : Draft} :
    d.Takes c.events d' ↔ ∃ o, c.toOperand = .ok o ∧ d' = d.push o := by
  induction c generalizing d d' with
  | value v =>
    simp only [WrittenCondition.events, takes_operand, WrittenCondition.toOperand, except_map_eq_ok]
    constructor
    · intro hex
      obtain ⟨t, ht, rfl⟩ := hex
      exact ⟨_, ⟨t, ht, rfl⟩, rfl⟩
    · intro hex
      obtain ⟨_, ⟨t, ht, rfl⟩, rfl⟩ := hex
      exact ⟨t, ht, rfl⟩
  | compare symbol left right =>
    have hevents : (WrittenCondition.compare symbol left right).events =
        [.operand left] ++ ([.operand right] ++ [.comparison symbol]) := rfl
    simp only [hevents, takes_append, takes_operand, WrittenCondition.toOperand,
      WrittenCondition.toPredicate, except_map_eq_ok, except_bind_eq_ok]
    constructor
    · intro hex
      obtain ⟨_, ⟨l, hl, rfl⟩, _, ⟨r, hr, rfl⟩, h⟩ := hex
      obtain ⟨c, hc, rfl⟩ := takes_comparison.mp h
      exact ⟨_, ⟨_, ⟨l, hl, r, hr, c, hc, rfl⟩, rfl⟩, rfl⟩
    · intro hex
      obtain ⟨_, ⟨_, ⟨l, hl, r, hr, c, hc, hp⟩, rfl⟩, rfl⟩ := hex
      cases hp
      exact ⟨_, ⟨l, hl, rfl⟩, _, ⟨r, hr, rfl⟩, takes_comparison.mpr ⟨c, hc, rfl⟩⟩
  | and left right ihl ihr => exact takes_joined rfl rfl rfl (fun _ => rfl) @ihl @ihr
  | or left right ihl ihr => exact takes_joined rfl rfl rfl (fun _ => rfl) @ihl @ihr
  | not operand ih =>
    simp only [WrittenCondition.events, takes_append, ih, WrittenCondition.toOperand,
      WrittenCondition.toPredicate, except_map_eq_ok, except_bind_eq_ok,
      WrittenCondition.toPredicate_eq_ok]
    constructor
    · intro hex
      obtain ⟨_, ⟨o, ho, rfl⟩, h⟩ := hex
      obtain ⟨p, hp, rfl⟩ := takes_negation.mp h
      exact ⟨_, ⟨_, ⟨p, ⟨o, ho, hp⟩, rfl⟩, rfl⟩, rfl⟩
    · intro hex
      obtain ⟨_, ⟨_, ⟨p, ⟨o, ho, hp⟩, hq⟩, rfl⟩, rfl⟩ := hex
      cases hq
      exact ⟨_, ⟨o, ho, rfl⟩, takes_negation.mpr ⟨p, hp, rfl⟩⟩

end Draft
end ChainQuery
