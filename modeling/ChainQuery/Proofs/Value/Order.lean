import ChainQuery.Expression.Predicate
import ChainQuery.Proofs.Results
import Mathlib.Order.Compare

/-!
# Equality and order of values

Two values can be ordered if both hold integers that can be read, or if both are strings; they are
then ordered as these integers or strings. So the order reverses when its sides are exchanged, it is
transitive, and where it is defined it agrees with equality. Equality is symmetric for all values,
also in whether it is defined, because two lists are decided by the same place in both directions.
-/

namespace ChainQuery

theorem compare_beq_eq {α : Type} [Ord α] [DecidableEq α] [Std.LawfulEqOrd α] (x y : α) :
    (Ord.compare x y == .eq) = (x == y) := by
  rw [Bool.eq_iff_iff, beq_iff_eq, beq_iff_eq, Std.compare_eq_iff_eq]

namespace Value

theorem equalIntegers_comm (a b : Value) :
    (equalIntegers a b).toOption = (equalIntegers b a).toOption := by
  unfold equalIntegers
  cases a.toInt256 with
  | error e => cases b.toInt256 <;> rfl
  | ok m =>
    cases b.toInt256 with
    | error e => rfl
    | ok n => exact congrArg some Bool.beq_comm

mutual

/-- Which of two values stands on the left matters neither for their equality nor for whether it is
defined. -/
theorem equals_comm : ∀ a b : Value, (a.equals b).toOption = (b.equals a).toOption
  | null, b => by cases b <;> rfl
  | bool p, b => by cases b <;> simp [equals, Except.toOption, Bool.beq_comm]
  | int i, b => by
    cases b with
    | int j => simp [equals, Except.toOption, Bool.beq_comm]
    | bigInt t => exact equalIntegers_comm (int i) (bigInt t)
    | _ => rfl
  | bigInt s, b => by
    cases b with
    | int j => exact equalIntegers_comm (bigInt s) (int j)
    | bigInt t => exact equalIntegers_comm (bigInt s) (bigInt t)
    | _ => rfl
  | str s, b => by cases b <;> simp [equals, Except.toOption, Text.equalFold_comm, Bool.beq_comm]
  | bytes data, b => by cases b <;> simp [equals, Except.toOption, Bool.beq_comm]
  | address s, b => by cases b <;> simp [equals, Except.toOption, Text.equalFold_comm]
  | list as, b => by
    cases b with
    | list bs =>
      rw [equals, equals]
      by_cases hlength : as.length = bs.length
      · rw [if_pos hlength, if_pos hlength.symm, equalItems_comm as bs]
      · rw [if_neg hlength, if_neg (Ne.symm hlength)]
    | _ => rfl

theorem equalItems_comm : ∀ as bs : List Value,
    (equalItems as bs).toOption = (equalItems bs as).toOption
  | [], bs => by cases bs <;> rfl
  | a :: as, [] => rfl
  | a :: as, b :: bs => by
    rw [equalItems, equalItems]
    rcases except_toOption_cases (equals_comm a b) with ⟨same, hab, hba⟩ | ⟨e, e', hab, hba⟩
    · rw [hab, hba]
      cases same with
      | true => exact equalItems_comm as bs
      | false => rfl
    · rw [hab, hba]
      rfl

end

/-- How two values are ordered: as the integers that they hold, or as strings. -/
inductive Ranks : Value → Value → Ordering → Prop
  | integers {a b : Value} {m n : Int} : a.toInt256 = .ok m → b.toInt256 = .ok n →
    Ranks a b (Ord.compare m n)
  | strings {s t : String} : Ranks (.str s) (.str t) (Ord.compare s t)

theorem toInt256_eq_ok {a : Value} {m : Int} (h : a.toInt256 = .ok m) :
    a = .int m ∨ ∃ s, a = .bigInt s := by
  cases a with
  | int i => exact .inl (congrArg int (Except.ok.inj h))
  | bigInt s => exact .inr ⟨s, rfl⟩
  | _ => cases h

theorem compareIntegers_eq {a b : Value} {m n : Int} (ha : a.toInt256 = .ok m)
    (hb : b.toInt256 = .ok n) : compare.compareIntegers a b = .ok (Ord.compare m n) := by
  rw [compare.compareIntegers, ha, hb]
  rfl

theorem ranks_of_compareIntegers {a b : Value} {o : Ordering}
    (h : compare.compareIntegers a b = .ok o) : Ranks a b o := by
  obtain ⟨m, hm, h⟩ := except_bind_eq_ok.1 h
  obtain ⟨n, hn, h⟩ := except_bind_eq_ok.1 h
  rw [← Except.ok.inj h]
  exact .integers hm hn

/-- Values can be ordered exactly if they rank, and then they are ordered as they rank. -/
theorem compare_eq_ok {a b : Value} {o : Ordering} : a.compare b = .ok o ↔ Ranks a b o := by
  constructor
  · intro h
    cases a with
    | int i =>
      cases b with
      | int j =>
        rw [← Except.ok.inj h]
        exact .integers rfl rfl
      | bigInt t => exact ranks_of_compareIntegers h
      | _ => cases h
    | bigInt s =>
      cases b with
      | int j => exact ranks_of_compareIntegers h
      | bigInt t => exact ranks_of_compareIntegers h
      | _ => cases h
    | str s =>
      cases b with
      | str t =>
        rw [← Except.ok.inj h]
        exact .strings
      | _ => cases h
    | _ => cases b <;> cases h
  · intro h
    cases h with
    | integers ha hb =>
      rcases toInt256_eq_ok ha with rfl | ⟨s, rfl⟩ <;> rcases toInt256_eq_ok hb with rfl | ⟨t, rfl⟩
      · rfl
      all_goals exact compareIntegers_eq ha hb
    | strings => rfl

namespace Ranks

variable {a b c : Value} {o o' : Ordering}

theorem swap (h : Ranks a b o) : Ranks b a o.swap := by
  cases h with
  | integers ha hb =>
    rw [← Std.OrientedOrd.eq_swap]
    exact .integers hb ha
  | strings =>
    rw [← Std.OrientedOrd.eq_swap]
    exact .strings

/-- Values that rank can be told equal, and they are equal if neither is above the other. -/
theorem equals (h : Ranks a b o) : a.equals b = .ok (o == .eq) := by
  cases h with
  | integers ha hb =>
    rw [compare_beq_eq]
    rcases toInt256_eq_ok ha with rfl | ⟨s, rfl⟩ <;> rcases toInt256_eq_ok hb with rfl | ⟨t, rfl⟩
    · rfl
    all_goals
      rw [Value.equals, equalIntegers, ha, hb]
      rfl
  | strings =>
    rw [compare_beq_eq]
    rfl

theorem trans (hab : Ranks a b o) (ho : o ≠ .gt) (hbc : Ranks b c o') (ho' : o' ≠ .gt) :
    ∃ o'', Ranks a c o'' ∧ o'' ≠ .gt := by
  have ho := Ordering.isLE_iff_ne_gt.2 ho
  have ho' := Ordering.isLE_iff_ne_gt.2 ho'
  cases hab with
  | integers ha hb =>
    cases hbc with
    | integers hb' hc =>
      obtain rfl := Except.ok.inj (hb.symm.trans hb')
      exact ⟨_, .integers ha hc, Ordering.isLE_iff_ne_gt.1 (Std.TransOrd.isLE_trans ho ho')⟩
    | strings => cases hb
  | strings =>
    cases hbc with
    | integers hb hc => cases hb
    | strings =>
      exact ⟨_, .strings, Ordering.isLE_iff_ne_gt.1 (Std.TransOrd.isLE_trans ho ho')⟩

end Ranks

theorem compare_swap {a b : Value} {o : Ordering} :
    a.compare b = .ok o ↔ b.compare a = .ok o.swap := by
  rw [compare_eq_ok, compare_eq_ok]
  refine ⟨Ranks.swap, fun h => ?_⟩
  have h := h.swap
  rwa [Ordering.swap_swap] at h

theorem compare_comm (a b : Value) :
    (b.compare a).toOption = ((a.compare b).map Ordering.swap).toOption := by
  cases h : a.compare b with
  | ok o =>
    rw [compare_swap.1 h]
    rfl
  | error e =>
    cases h' : b.compare a with
    | ok o => cases h.symm.trans (compare_swap.1 h')
    | error e' => rfl

end Value

namespace Comparator

theorem less_comm (a b : Value) : (less.holds a b).toOption = (greater.holds b a).toOption := by
  rw [holds, holds]
  rcases except_toOption_cases (Value.compare_comm a b) with ⟨o, hba, hab⟩ | ⟨e, e', hba, hab⟩
  · obtain ⟨o, ho, rfl⟩ := except_map_eq_ok.1 hab
    rw [hba, ho]
    cases o <;> rfl
  · cases hab' : a.compare b with
    | ok o =>
      rw [hab'] at hab
      cases hab
    | error e =>
      rw [hba]
      rfl

theorem atMost_eq (a b : Value) : atMost.holds a b = (greater.holds a b).map not := by
  rw [holds, holds]
  cases a.compare b with
  | error e => rfl
  | ok o => rfl

end Comparator

namespace Predicate

variable (view : View) (l r : Term)

theorem eval_less_comm :
    ((compare .less l r).eval view).toOption = ((compare .greater r l).eval view).toOption := by
  rw [eval, eval]
  cases l.eval view with
  | error e => cases r.eval view <;> rfl
  | ok a =>
    cases r.eval view with
    | error e => rfl
    | ok b => exact Comparator.less_comm a b

theorem eval_atMost_eq :
    (compare .atMost l r).eval view = (not (compare .greater l r)).eval view := by
  rw [eval, eval, eval]
  cases l.eval view with
  | error e => rfl
  | ok a =>
    cases r.eval view with
    | error e => rfl
    | ok b =>
      show Comparator.atMost.holds a b = (do return !(← Comparator.greater.holds a b))
      rw [Comparator.atMost_eq]
      cases Comparator.greater.holds a b <;> rfl

end Predicate

/-- Equality and order of values are coherent: equality does not depend on the side, an order
reverses with its sides, it agrees with equality and is transitive, and predicates that say the same
about an order have the same answers. -/
theorem comparisons_coherent :
    (∀ a b : Value, (a.equals b).toOption = (b.equals a).toOption) ∧
    (∀ (a b : Value) (o : Ordering), a.compare b = .ok o ↔ b.compare a = .ok o.swap) ∧
    (∀ (a b : Value) (o : Ordering), a.compare b = .ok o →
      ∃ same, a.equals b = .ok same ∧ (same = true ↔ o = .eq)) ∧
    (∀ (a b c : Value) (o o' : Ordering), a.compare b = .ok o → o ≠ .gt →
      b.compare c = .ok o' → o' ≠ .gt → ∃ o'', a.compare c = .ok o'' ∧ o'' ≠ .gt) ∧
    (∀ (view : View) (l r : Term),
      ((Predicate.compare .less l r).eval view).toOption =
        ((Predicate.compare .greater r l).eval view).toOption ∧
      (Predicate.compare .atMost l r).eval view =
        (Predicate.not (.compare .greater l r)).eval view) := by
  refine ⟨Value.equals_comm, fun a b o => Value.compare_swap, fun a b o h => ?_,
    fun a b c o o' hab ho hbc ho' => ?_,
    fun view l r => ⟨Predicate.eval_less_comm view l r, Predicate.eval_atMost_eq view l r⟩⟩
  · exact ⟨o == .eq, (Value.compare_eq_ok.1 h).equals, beq_iff_eq⟩
  · obtain ⟨o'', h, ho''⟩ :=
      (Value.compare_eq_ok.1 hab).trans ho (Value.compare_eq_ok.1 hbc) ho'
    exact ⟨o'', Value.compare_eq_ok.2 h, ho''⟩

/-- Integers in both forms, wider ones on either side of a narrow one. -/
theorem comparisons_coherent_forms :
    (Value.bigInt "-170141183460469231731687303715884105729").compare (.int 5) = .ok .lt ∧
    (Value.int 5).compare (.bigInt "170141183460469231731687303715884105728") = .ok .lt ∧
    ∃ o, (Value.bigInt "-170141183460469231731687303715884105729").compare
      (.bigInt "170141183460469231731687303715884105728") = .ok o ∧ o ≠ .gt :=
  have hlow : (Value.bigInt "-170141183460469231731687303715884105729").compare (.int 5) =
      .ok .lt := by decide
  have hhigh : (Value.int 5).compare (.bigInt "170141183460469231731687303715884105728") =
      .ok .lt := by decide
  ⟨hlow, hhigh, comparisons_coherent.2.2.2.1 _ _ _ _ _ hlow (by decide) hhigh (by decide)⟩

end ChainQuery
