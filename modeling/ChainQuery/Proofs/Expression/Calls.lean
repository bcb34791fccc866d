import ChainQuery.Proofs.Expression.Arithmetic
import ChainQuery.Proofs.Results

/-!
# Resolved calls

A call is resolved by the types of its arguments. A resolved call has all its arguments, and where
their types are known it fails on a type in two cases only: an element of a list cannot be compared
with the second argument, or the seconds of a time are an integer that is held as a text.
-/

namespace ChainQuery

/-- The failures of a call that has too few arguments or one of a wrong type. -/
def ExecutionError.blamesArguments : ExecutionError → Bool
  | typeMismatch _ _ => true
  | method _ (.missingArgument _) => true
  | _ => false

namespace Value

variable {v : Value} {e : ExecutionError}

inductive IsInteger : Value → Prop
  | int {i : Int} : IsInteger (.int i)
  | bigInt {s : String} : IsInteger (.bigInt s)

theorem isInteger_of_accepts (h : ValueType.int.accepts v.type = true) (hv : v.type ≠ .any) :
    v.IsInteger := by
  cases v with
  | null => exact absurd rfl hv
  | int i => exact .int
  | bigInt s => exact .bigInt
  | list items => cases items <;> cases h
  | _ => cases h

theorem toText_of_accepts (h : ValueType.str.accepts v.type = true) (hv : v.type ≠ .any) :
    ∃ s, v.toText = .ok s := by
  cases v with
  | null => exact absurd rfl hv
  | str s => exact ⟨s, rfl⟩
  | address s => exact ⟨s, rfl⟩
  | list items => cases items <;> cases h
  | _ => cases h

theorem list_of_accepts (h : (ValueType.list .any).accepts v.type = true) (hv : v.type ≠ .any) :
    ∃ items, v = .list items := by
  cases v with
  | null => exact absurd rfl hv
  | list items => exact ⟨items, rfl⟩
  | _ => cases h

theorem IsInteger.blameless (hv : v.IsInteger) (h : v.toInt256 = .error e) :
    e.blamesArguments = false := by
  cases hv with
  | int => cases h
  | bigInt =>
    rw [toInt256] at h
    split at h
    · cases h
    · rw [← Except.error.inj h]
      rfl

section Comparisons
variable {name : String} {cause : MethodError}

theorem toInt256_ne_method (v : Value) : v.toInt256 ≠ .error (.method name cause) := by
  intro h
  cases v with
  | bigInt s =>
    rw [toInt256] at h
    split at h <;> cases h
  | _ => cases h

theorem equalIntegers_ne_method (a b : Value) :
    equalIntegers a b ≠ .error (.method name cause) := by
  intro h
  obtain h | ⟨m, -, h⟩ := except_bind_eq_error.1 h
  · exact toInt256_ne_method a h
  · obtain h | ⟨n, -, h⟩ := except_bind_eq_error.1 h
    · exact toInt256_ne_method b h
    · cases h

mutual

/-- A comparison fails as a comparison, not as a call. -/
theorem equals_ne_method : ∀ a b : Value, a.equals b ≠ .error (.method name cause)
  | list as, b => by
    intro h
    cases b with
    | list bs =>
      rw [equals] at h
      split at h
      · exact equalItems_ne_method as bs h
      · cases h
    | _ => cases h
  | int i, b => by
    intro h
    cases b with
    | bigInt t => exact equalIntegers_ne_method _ _ h
    | _ => cases h
  | bigInt s, b => by
    intro h
    cases b with
    | int j => exact equalIntegers_ne_method _ _ h
    | bigInt t => exact equalIntegers_ne_method _ _ h
    | _ => cases h
  | null, b | bool _, b | str _, b | bytes _, b | address _, b => by
    intro h
    cases b <;> cases h

theorem equalItems_ne_method : ∀ as bs : List Value, equalItems as bs ≠ .error (.method name cause)
  | a :: as, b :: bs => by
    intro h
    rw [equalItems] at h
    split at h
    · exact equalItems_ne_method as bs h
    · cases h
    · next he => exact equals_ne_method a b (he.trans h)
  | [], bs => by cases bs <;> intro h <;> cases h
  | a :: as, [] => by
    intro h
    cases h

end

end Comparisons

/-- A walk through a list comes to an element that cannot be compared with a given one. -/
inductive BreaksOff (passes : Value → Prop) (element : Value) (e : ExecutionError) :
    List Value → Prop
  | here {item : Value} {items : List Value} : item.equals element = .error e →
    BreaksOff passes element e (item :: items)
  | later {item : Value} {items : List Value} : passes item → BreaksOff passes element e items →
    BreaksOff passes element e (item :: items)

theorem BreaksOff.equals_eq_error {passes : Value → Prop} {element : Value} {items : List Value}
    (h : BreaksOff passes element e items) : ∃ item ∈ items, item.equals element = .error e := by
  induction h with
  | here h => exact ⟨_, List.mem_cons_self, h⟩
  | later _ _ ih =>
    obtain ⟨item, hmem, h⟩ := ih
    exact ⟨item, List.mem_cons_of_mem _ hmem, h⟩

/-- A search fails where it comes to an element that cannot be compared before it has found one. -/
theorem memberOf_eq_error {needle : Value} {items : List Value} :
    memberOf needle items = .error e ↔
      BreaksOff (fun v => v.equals needle = .ok false) needle e items := by
  induction items with
  | nil => exact ⟨nofun, nofun⟩
  | cons item items ih =>
    rw [memberOf]
    constructor
    · intro h
      split at h
      · cases h
      · next hitem => exact .later hitem (ih.1 h)
      · next hitem => exact .here (hitem.trans h)
    · intro h
      cases h with
      | here hitem => rw [hitem]
      | later hitem h =>
        rw [hitem]
        exact ih.2 h

end Value

namespace Builtin

open Value

/-- Elements are removed up to the first one that cannot be compared. -/
theorem without_eq_error {element : Value} {items : List Value} {e : ExecutionError} :
    without element items = .error e ↔
      BreaksOff (fun v => ∃ same, v.equals element = .ok same) element e items := by
  induction items with
  | nil => exact ⟨nofun, nofun⟩
  | cons item items ih =>
    rw [without, except_bind_eq_error]
    constructor
    · rintro (hitem | ⟨same, hsame, h⟩)
      · exact .here hitem
      · obtain h | ⟨rest, -, h⟩ := except_bind_eq_error.1 h
        · exact .later ⟨same, hsame⟩ (ih.1 h)
        · cases h
    · intro h
      cases h with
      | here hitem => exact .inl hitem
      | later hitem h =>
        obtain ⟨same, hsame⟩ := hitem
        exact .inr ⟨same, hsame, except_bind_eq_error.2 (.inl (ih.2 h))⟩

/-- A method comes to an element of its list that cannot be compared with its second argument. -/
inductive Compares : Builtin → List Value → ExecutionError → Prop
  | contains {items : List Value} {element : Value} {e : ExecutionError} :
    BreaksOff (fun v => v.equals element = .ok false) element e items →
    Compares .contains [.list items, element] e
  | removeElement {items : List Value} {element : Value} {e : ExecutionError} :
    BreaksOff (fun v => ∃ same, v.equals element = .ok same) element e items →
    Compares .removeElement [.list items, element] e

variable {m : Builtin} {args : List Value} {a b : Value} {e : ExecutionError}

theorem Compares.ne_method {name : String} {cause : MethodError} :
    ¬ m.Compares args (.method name cause) := by
  intro h
  cases h with
  | contains h | removeElement h =>
    obtain ⟨item, -, h⟩ := h.equals_eq_error
    exact equals_ne_method _ _ h

/-- A resolved call has the arguments that the method declares. -/
theorem forall₂_of_resolve {name : String} (h : resolve name (args.map Value.type) = .ok m) :
    List.Forall₂ (fun declared v => declared.accepts v.type = true) m.parameters args := by
  unfold resolve at h
  split at h
  · next m' hfind =>
    obtain rfl := Except.ok.inj h
    have hfound := List.find?_some hfind
    obtain ⟨-, htakes⟩ := Bool.and_eq_true_iff.1 hfound
    obtain ⟨hlength, hall⟩ := Bool.and_eq_true_iff.1 htakes
    have htypes : List.Forall₂ (fun declared actual => declared.accepts actual = true) m'.parameters
        (args.map Value.type) :=
      List.forall₂_iff_zip.2 ⟨eq_of_beq hlength, fun hmem => List.all_eq_true.1 hall _ hmem⟩
    exact List.forall₂_map_right_iff.1 htypes
  · cases h

theorem arithmetic_blameless (op : Int → Int → Int) (ha : a.IsInteger) (hb : b.IsInteger)
    (h : m.arithmetic [a, b] op = .error e) : e.blamesArguments = false := by
  rw [arithmetic_pair] at h
  obtain h | ⟨x, -, h⟩ := except_bind_eq_error.1 h
  · exact ha.blameless h
  · obtain h | ⟨y, -, h⟩ := except_bind_eq_error.1 h
    · exact hb.blameless h
    · split at h
      · cases h
      · rw [← Except.error.inj h]
        rfl

theorem divide_blameless (ha : a.IsInteger) (hb : b.IsInteger)
    (h : divide.apply [a, b] = .error e) : e.blamesArguments = false := by
  rw [apply_divide_pair] at h
  obtain h | ⟨divisor, -, h⟩ := except_bind_eq_error.1 h
  · exact hb.blameless h
  · split at h
    · rw [← Except.error.inj h]
      rfl
    · exact arithmetic_blameless _ ha hb h

theorem contains_eq_error {items : List Value} :
    contains.apply [.list items, b] = .error e ↔ contains.Compares [.list items, b] e := by
  have hpair : contains.apply [.list items, b] =
      (memberOf b items >>= fun found => .ok (.bool found)) := rfl
  rw [hpair, except_bind_eq_error, memberOf_eq_error]
  constructor
  · rintro (h | ⟨found, -, h⟩)
    · exact .contains h
    · cases h
  · rintro ⟨⟩
    exact .inl ‹_›

theorem removeElement_eq_error {items : List Value} :
    removeElement.apply [.list items, b] = .error e ↔
      removeElement.Compares [.list items, b] e := by
  have hpair : removeElement.apply [.list items, b] =
      (without b items >>= fun kept => .ok (.list kept)) := rfl
  rw [hpair, except_bind_eq_error, without_eq_error]
  constructor
  · rintro (h | ⟨kept, -, h⟩)
    · exact .removeElement h
    · cases h
  · rintro ⟨⟩
    exact .inl ‹_›

theorem fromUnix_blameless {i : Int} (h : fromUnix.apply [.int i] = .error e) :
    e.blamesArguments = false := by
  simp only [apply, argument, List.getElem?_cons_zero, bind, Except.bind, toInt] at h
  split at h
  · split at h
    · cases h
    · rw [← Except.error.inj h]
      rfl
  · rw [← Except.error.inj h]
    rfl

section Known

variable (hargs : List.Forall₂ (fun declared v => declared.accepts v.type = true) m.parameters args)
  (hknown : ∀ v ∈ args, v.type ≠ .any)
include hargs hknown

theorem argument_of_parameters {t : ValueType} (hm : m.parameters = [t]) :
    ∃ a, args = [a] ∧ t.accepts a.type = true ∧ a.type ≠ .any := by
  rw [hm] at hargs
  obtain ⟨a, rest, ha, hrest, rfl⟩ := List.forall₂_cons_left_iff.1 hargs
  obtain rfl := List.forall₂_nil_left_iff.1 hrest
  exact ⟨a, rfl, ha, hknown a List.mem_cons_self⟩

theorem arguments_of_parameters {t u : ValueType} (hm : m.parameters = [t, u]) :
    ∃ a b, args = [a, b] ∧ (t.accepts a.type = true ∧ a.type ≠ .any) ∧
      u.accepts b.type = true ∧ b.type ≠ .any := by
  rw [hm] at hargs
  obtain ⟨a, rest, ha, hrest, rfl⟩ := List.forall₂_cons_left_iff.1 hargs
  obtain ⟨b, tail, hb, htail, rfl⟩ := List.forall₂_cons_left_iff.1 hrest
  obtain rfl := List.forall₂_nil_left_iff.1 htail
  obtain ⟨hknowna, hknown⟩ := List.forall_mem_cons.1 hknown
  exact ⟨a, b, rfl, ⟨ha, hknowna⟩, hb, hknown b List.mem_cons_self⟩

/-- No method but three ever blames arguments that it takes. -/
theorem apply_blameless (hcontains : m ≠ .contains) (hremove : m ≠ .removeElement)
    (hunix : m ≠ .fromUnix) (h : m.apply args = .error e) : e.blamesArguments = false := by
  cases m with
  | add | subtract | multiply =>
    obtain ⟨a, b, rfl, ha, hb⟩ := arguments_of_parameters hargs hknown rfl
    exact arithmetic_blameless _ (isInteger_of_accepts ha.1 ha.2) (isInteger_of_accepts hb.1 hb.2) h
  | divide =>
    obtain ⟨a, b, rfl, ha, hb⟩ := arguments_of_parameters hargs hknown rfl
    exact divide_blameless (isInteger_of_accepts ha.1 ha.2) (isInteger_of_accepts hb.1 hb.2) h
  | concat =>
    obtain ⟨a, b, rfl, ha, hb⟩ := arguments_of_parameters hargs hknown rfl
    obtain ⟨s, hs⟩ := toText_of_accepts ha.1 ha.2
    obtain ⟨t, ht⟩ := toText_of_accepts hb.1 hb.2
    simp [apply, argument, hs, ht, bind, Except.bind, pure, Except.pure] at h
  | lower =>
    obtain ⟨a, rfl, ha⟩ := argument_of_parameters hargs hknown rfl
    obtain ⟨s, hs⟩ := toText_of_accepts ha.1 ha.2
    simp [apply, argument, hs, bind, Except.bind, pure, Except.pure] at h
  | toText =>
    obtain ⟨a, rfl, -⟩ := argument_of_parameters hargs hknown rfl
    cases h
  | addElement =>
    obtain ⟨a, b, rfl, ha, -⟩ := arguments_of_parameters hargs hknown rfl
    obtain ⟨items, rfl⟩ := list_of_accepts ha.1 ha.2
    cases h
  | length =>
    obtain ⟨a, rfl, ha⟩ := argument_of_parameters hargs hknown rfl
    obtain ⟨items, rfl⟩ := list_of_accepts ha.1 ha.2
    cases h
  | newList => cases h
  | contains => exact absurd rfl hcontains
  | removeElement => exact absurd rfl hremove
  | fromUnix => exact absurd rfl hunix

/-- When a call blames arguments that its method takes. -/
theorem apply_eq_error_iff (he : e.blamesArguments = true) :
    m.apply args = .error e ↔ m.Compares args e ∨
      m = .fromUnix ∧ (∃ s, args = [.bigInt s]) ∧ e = .typeMismatch "int" "int" := by
  have blameless {P : Prop} (h : e.blamesArguments = false) : P := nomatch he.symm.trans h
  by_cases hcontains : m = .contains
  · subst hcontains
    obtain ⟨a, element, rfl, ha, -⟩ := arguments_of_parameters hargs hknown rfl
    obtain ⟨items, rfl⟩ := list_of_accepts ha.1 ha.2
    rw [contains_eq_error, or_iff_left (fun h => nomatch h.1)]
  by_cases hremove : m = .removeElement
  · subst hremove
    obtain ⟨a, element, rfl, ha, -⟩ := arguments_of_parameters hargs hknown rfl
    obtain ⟨items, rfl⟩ := list_of_accepts ha.1 ha.2
    rw [removeElement_eq_error, or_iff_left (fun h => nomatch h.1)]
  have hcompares : ¬ m.Compares args e := by
    rintro ⟨⟩
    · exact hcontains rfl
    · exact hremove rfl
  rw [or_iff_right hcompares]
  by_cases hunix : m = .fromUnix
  · subst hunix
    obtain ⟨a, rfl, ha⟩ := argument_of_parameters hargs hknown rfl
    cases isInteger_of_accepts ha.1 ha.2 with
    | int => exact ⟨fun h => blameless (fromUnix_blameless h), fun ⟨_, ⟨s, hs⟩, _⟩ => nomatch hs⟩
    | @bigInt s =>
      have hfails : fromUnix.apply [.bigInt s] = .error (.typeMismatch "int" "int") := rfl
      rw [hfails]
      exact ⟨fun h => ⟨rfl, ⟨s, rfl⟩, (Except.error.inj h).symm⟩,
        fun ⟨_, _, h⟩ => congrArg Except.error h.symm⟩
  · exact ⟨fun h => blameless (apply_blameless hargs hknown hcontains hremove hunix h),
      fun h => absurd h.1 hunix⟩

end Known

end Builtin

/-- A resolved call whose arguments have known types finds all of them. It fails on a type exactly if
it comes to an element of a list that cannot be compared with the second argument, or if it is a time
whose seconds are held as a text. -/
theorem type_failures_of_resolved {name : String} {args : List Value} {m : Builtin}
    (hm : Builtin.resolve name (args.map Value.type) = .ok m)
    (hknown : ∀ v ∈ args, v.type ≠ .any) :
    (∀ (method : String) (index : Nat),
      m.apply args ≠ .error (.method method (.missingArgument index))) ∧
    (∀ expected got : String, m.apply args = .error (.typeMismatch expected got) ↔
      m.Compares args (.typeMismatch expected got) ∨
      m = .fromUnix ∧ (∃ s, args = [.bigInt s]) ∧ expected = "int" ∧ got = "int") := by
  have hargs := Builtin.forall₂_of_resolve hm
  refine ⟨fun method index h => ?_, fun expected got => ?_⟩
  · obtain h | ⟨-, -, h⟩ := (Builtin.apply_eq_error_iff hargs hknown rfl).1 h
    · exact h.ne_method
    · cases h
  · rw [Builtin.apply_eq_error_iff hargs hknown rfl, ExecutionError.typeMismatch.injEq]

/-- An element that is no integer stands in the way of the removal of one. -/
theorem type_failures_of_removal :
    Builtin.resolve "removeElement" [.list .int, .int] = .ok .removeElement ∧
    Builtin.removeElement.apply [.list [.int 1, .str "a"], .int 1] =
      .error (.typeMismatch "string" "int") := by
  have hm : Builtin.resolve "removeElement"
      ([Value.list [.int 1, .str "a"], .int 1].map Value.type) = .ok .removeElement := by decide
  exact ⟨hm, ((type_failures_of_resolved hm (by decide)).2 "string" "int").2
    (.inl (.removeElement (.later ⟨true, rfl⟩ (.here rfl))))⟩

/-- An integer that is held as a text is of the type that the call asks for, but it is not taken. -/
theorem wide_seconds_blamed :
    ¬ ∀ (name : String) (args : List Value) (m : Builtin),
      Builtin.resolve name (args.map Value.type) = .ok m → (∀ v ∈ args, v.type ≠ .any) →
      ∀ expected got : String, m.apply args = .error (.typeMismatch expected got) →
        m.Compares args (.typeMismatch expected got) := by
  intro h
  have hcompares := h "fromUnix" [.bigInt "170141183460469231731687303715884105728"] .fromUnix
    (by decide) (by decide) "int" "int" rfl
  cases hcompares

end ChainQuery
