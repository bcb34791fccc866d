import ChainQuery.Expression.Builtin

/-!
# Laws of lists

A search in a list and a removal from it walk through the same comparisons. Where an element can be
compared with every item of a list, the search finds an item that equals it if there is one, and the
removal keeps the other items in their order. Hence what has been added is found, what has been removed
is not, and a removal shortens exactly the lists in which the search succeeds.
-/

namespace ChainQuery

variable {items : List Value} {e : Value}

namespace Value

def isSame (e x : Value) : Bool :=
  (x.equals e).toOption == some true

/-- An element can be compared with every item of a list. On which side it stands does not matter, by
`Value.equals_comm`. -/
def Comparable (e : Value) (items : List Value) : Prop :=
  ∀ x ∈ items, ∃ same, x.equals e = .ok same

theorem isSame_of_equals {x : Value} {same : Bool} (h : x.equals e = .ok same) :
    e.isSame x = same := by
  rw [isSame, h]
  cases same <;> rfl

namespace Comparable

theorem of_cons {x : Value} (h : e.Comparable (x :: items)) : e.Comparable items :=
  fun y hy => h y (List.mem_cons_of_mem x hy)

theorem filter (h : e.Comparable items) (p : Value → Bool) : e.Comparable (items.filter p) :=
  fun x hx => h x ((List.mem_filter.mp hx).1)

theorem append (h : e.Comparable items) {others : List Value} (h' : e.Comparable others) :
    e.Comparable (items ++ others) :=
  fun x hx => (List.mem_append.mp hx).elim (h x) (h' x)

/-- A search has an answer, which is whether some item is the same as the element. -/
theorem memberOf_eq (h : e.Comparable items) : memberOf e items = .ok (items.any e.isSame) := by
  induction items with
  | nil => rfl
  | cons x items ih =>
    obtain ⟨same, hsame⟩ := h x List.mem_cons_self
    rw [memberOf, List.any_cons, hsame, isSame_of_equals hsame]
    cases same with
    | true => rfl
    | false => exact ih h.of_cons

end Comparable
end Value

namespace Builtin

open Value

/-- A removal keeps the items that are not the same as the element. -/
theorem without_eq (h : e.Comparable items) :
    without e items = .ok (items.filter fun x => !e.isSame x) := by
  induction items with
  | nil => rfl
  | cons x items ih =>
    obtain ⟨same, hsame⟩ := h x List.mem_cons_self
    rw [without, hsame, ih h.of_cons, List.filter_cons, isSame_of_equals hsame]
    cases same <;> rfl

theorem apply_contains (h : e.Comparable items) :
    contains.apply [.list items, e] = .ok (.bool (items.any e.isSame)) := by
  show (memberOf e items >>= fun found => .ok (.bool found)) = Except.ok (Value.bool _)
  rw [h.memberOf_eq]
  rfl

theorem apply_removeElement (h : e.Comparable items) :
    removeElement.apply [.list items, e] = .ok (.list (items.filter fun x => !e.isSame x)) := by
  show (without e items >>= fun kept => .ok (.list kept)) = Except.ok (Value.list _)
  rw [without_eq h]
  rfl

end Builtin

theorem any_eq_decide_length {α : Type} (p : α → Bool) (xs : List α) :
    xs.any p = decide ((xs.filter fun x => !p x).length < xs.length) := by
  rw [Bool.eq_iff_iff, List.any_eq_true, decide_eq_true_iff, List.length_filter_lt_length_iff_exists]
  simp

open Builtin in
/-- The methods on lists obey the laws of lists for every element that can be compared with the items
and equals itself: it is found where it has been added, it is not found where it has been removed,
the other items stay in their order, and it is found exactly in the lists that its removal shortens. -/
theorem list_laws (hitems : ∀ x ∈ items, ∃ same, x.equals e = .ok same)
    (hself : e.equals e = .ok true) :
    ∃ added removed : List Value, ∃ long short : Int,
      addElement.apply [.list items, e] = .ok (.list added) ∧
      contains.apply [.list added, e] = .ok (.bool true) ∧
      removeElement.apply [.list items, e] = .ok (.list removed) ∧
      removed = items.filter (fun x => (x.equals e).toOption = some false) ∧
      contains.apply [.list removed, e] = .ok (.bool false) ∧
      removeElement.apply [.list added, e] = .ok (.list removed) ∧
      removeElement.apply [.list removed, e] = .ok (.list removed) ∧
      length.apply [.list items] = .ok (Value.ofInt long) ∧
      length.apply [.list removed] = .ok (Value.ofInt short) ∧
      contains.apply [.list items, e] = .ok (.bool (decide (short < long))) := by
  have hcomparable : e.Comparable items := hitems
  have hadded : e.Comparable (items ++ [e]) := hcomparable.append fun x hx => by
    rw [List.mem_singleton.mp hx]
    exact ⟨true, hself⟩
  have hremoved := hcomparable.filter fun x => !e.isSame x
  refine ⟨items ++ [e], items.filter fun x => !e.isSame x, items.length,
    (items.filter fun x => !e.isSame x).length, rfl, ?_, apply_removeElement hcomparable, ?_, ?_, ?_,
    ?_, rfl, rfl, ?_⟩
  · rw [apply_contains hadded, List.any_append, List.any_cons, Value.isSame_of_equals hself]
    simp
  · refine List.filter_congr fun x hx => ?_
    obtain ⟨same, hsame⟩ := hitems x hx
    rw [Value.isSame_of_equals hsame, hsame]
    cases same <;> rfl
  · rw [apply_contains hremoved, List.any_filter]
    simp
  · rw [apply_removeElement hadded, List.filter_append, List.filter_cons,
      Value.isSame_of_equals hself]
    simp
  · rw [apply_removeElement hremoved, List.filter_filter]
    simp
  · rw [apply_contains hcomparable, any_eq_decide_length]
    simp only [Int.ofNat_lt]

/-- Lists as items, with an address in two spellings and an integer in both forms. -/
theorem list_laws_nested :
    ∃ removed, Builtin.removeElement.apply [.list [.list [.str "0xA", .int 1], .null,
        .list [.address "0xa", .bigInt "+01"], .list [.null, .int 1]], .list [.address "0xa", .int 1]] =
        .ok (.list removed) ∧ removed = [.null, .list [.null, .int 1]] ∧
      Builtin.contains.apply [.list removed, .list [.address "0xa", .int 1]] = .ok (.bool false) := by
  obtain ⟨added, removed, -, -, -, -, hremove, hremoved, hfound, -⟩ := @list_laws
    [.list [.str "0xA", .int 1], .null, .list [.address "0xa", .bigInt "+01"], .list [.null, .int 1]]
    (.list [.address "0xa", .int 1])
    (by
      simp only [List.forall_mem_cons]
      exact ⟨⟨true, rfl⟩, ⟨false, rfl⟩, ⟨true, rfl⟩, ⟨false, rfl⟩, nofun⟩)
    rfl
  exact ⟨removed, hremove, hremoved.trans (by decide +kernel), hfound⟩

end ChainQuery
