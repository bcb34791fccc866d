import ChainQuery.Expression.Builtin
import ChainQuery.Expression.Term
import ChainQuery.Proofs.Results

/-!
# Types of values

What is known of the type of a value before the run: that of a name of the chain and that of what a
method gives. A type covers another one if it accepts whatever the other one accepts.
-/

namespace ChainQuery

namespace ValueType

/-- Whether every type that `other` accepts is accepted. -/
def covers (t other : ValueType) : Bool :=
  match t, other with
  | any, _ => true
  | _, any => false
  | list a, list b => a.covers b
  | str, address => true
  | a, b => a = b

theorem accepts_any (t : ValueType) : t.accepts .any = true := by
  cases t <;> rfl

theorem accepts_refl (t : ValueType) : t.accepts t = true := by
  induction t with
  | list element ih => exact ih
  | _ => rfl

theorem accepts_of_covers {t other u : ValueType} (h : t.covers other = true)
    (hu : other.accepts u = true) : t.accepts u = true := by
  induction t generalizing other u with
  | any => rfl
  | list a ih =>
    cases other with
    | list b =>
      cases u with
      | list c => exact ih h hu
      | any => rfl
      | _ => cases hu
    | _ => cases h
  | str =>
    cases other with
    | str => exact hu
    | address =>
      cases u with
      | address => rfl
      | any => rfl
      | _ => cases hu
    | _ => cases h
  | _ =>
    cases other <;> first | exact hu | cases h

/-- To cover a type is to accept whatever it accepts. -/
theorem covers_iff {t other : ValueType} :
    t.covers other = true ↔ ∀ u, other.accepts u = true → t.accepts u = true := by
  constructor
  · intro h u hu
    exact accepts_of_covers h hu
  · intro h
    have hself := h other other.accepts_refl
    induction t generalizing other with
    | any => rfl
    | list a ih =>
      cases other with
      | list b => exact ih (fun u hu => h (.list u) hu) hself
      | any => cases h .bool rfl
      | _ => cases hself
    | bool =>
      cases other with
      | bool => rfl
      | any => cases h .int rfl
      | _ => cases hself
    | _ =>
      -- `any` accepts a truth value, and the others accept themselves
      cases other <;> first | rfl | cases h .bool rfl | cases hself

end ValueType

namespace Value

theorem type_ofInt (i : Int) : (ofInt i).type = .int := by
  unfold ofInt
  split <;> rfl

theorem type_of_readInteger {cs : List Char} {v : Value} (h : readInteger? cs = some v) :
    v.type = .int := by
  unfold readInteger? at h
  split at h
  · cases h
    rfl
  · obtain ⟨n, -, rfl⟩ := Option.map_eq_some_iff.mp h
    rfl

end Value

theorem TransactionField.accepts_of_read {f : TransactionField} {t : Transaction} {v : Value}
    (h : f.read t = .ok v) : f.type.accepts v.type = true := by
  cases f with
  | recipient => rfl
  | amount =>
    rw [read] at h
    split at h
    · next hread =>
      cases h
      rw [Value.type_of_readInteger hread]
      rfl
    · cases h
  | gas | gasPrice | nonce | transactionIndex | blockNumber =>
    have hv := Except.ok.inj h
    rw [← hv, Value.type_ofInt]
    rfl
  | _ =>
    cases h
    rfl

theorem BlockField.accepts_read (f : BlockField) (b : Block) :
    f.type.accepts (f.read b).type = true := by
  cases f with
  | hash | parentHash | miner => rfl
  | _ =>
    rw [read, Value.type_ofInt]
    rfl

theorem LogField.accepts_read (f : LogField) (l : LogEntry) :
    f.type.accepts (f.read l).type = true := by
  cases f with
  | logIndex | blockNumber =>
    rw [read, Value.type_ofInt]
    rfl
  | _ => rfl

theorem ChainField.accepts_of_read {f : ChainField} {view : View} {v : Value}
    (h : f.read view = .ok v) : f.type.accepts v.type = true := by
  cases f with
  | block f =>
    rw [read] at h
    cases hb : view.block with
    | none =>
      rw [hb] at h
      cases h
    | some b =>
      rw [hb] at h
      rw [← Except.ok.inj h]
      exact f.accepts_read b
  | transaction f =>
    rw [read] at h
    cases ht : view.transaction with
    | none =>
      rw [ht] at h
      cases h
    | some t =>
      rw [ht] at h
      exact TransactionField.accepts_of_read h
  | logEntry f =>
    rw [read] at h
    cases hl : view.logEntry with
    | none =>
      rw [hl] at h
      cases h
    | some l =>
      rw [hl] at h
      rw [← Except.ok.inj h]
      exact f.accepts_read l

namespace Builtin

def result : Builtin → ValueType
  | add => .int
  | subtract => .int
  | multiply => .int
  | divide => .int
  | concat => .str
  | lower => .str
  | toText => .str
  | contains => .bool
  | addElement => .list .any
  | removeElement => .list .any
  | length => .int
  | newList => .list .any
  | fromUnix => .str

theorem type_of_arithmetic {m : Builtin} {args : List Value} {op : Int → Int → Int} {v : Value}
    (h : m.arithmetic args op = .ok v) : v.type = .int := by
  simp only [arithmetic, except_bind_eq_ok] at h
  obtain ⟨_, _, a, _, _, _, b, _, h⟩ := h
  split at h
  · cases h
    exact Value.type_ofInt (op a b)
  · cases h

theorem type_of_items {items : List Value} : ∃ t, (Value.list items).type = .list t := by
  cases items with
  | nil => exact ⟨.any, rfl⟩
  | cons item items => exact ⟨item.type, rfl⟩

/-- What a method gives is of its result type, a list being a list of something. -/
theorem type_of_apply {m : Builtin} {args : List Value} {v : Value} (h : m.apply args = .ok v) :
    v.type = m.result ∨ m.result = .list .any ∧ ∃ t, v.type = .list t := by
  cases m with
  | add => exact .inl (type_of_arithmetic h)
  | subtract => exact .inl (type_of_arithmetic h)
  | multiply => exact .inl (type_of_arithmetic h)
  | divide =>
    simp only [apply, except_bind_eq_ok] at h
    obtain ⟨_, _, divisor, _, h⟩ := h
    split at h
    · cases h
    · exact .inl (type_of_arithmetic h)
  | concat =>
    simp only [apply, except_bind_eq_ok] at h
    obtain ⟨_, _, _, _, _, _, _, _, h⟩ := h
    cases h
    exact .inl rfl
  | lower =>
    simp only [apply, except_bind_eq_ok] at h
    obtain ⟨_, _, _, _, h⟩ := h
    cases h
    exact .inl rfl
  | toText =>
    simp only [apply, except_bind_eq_ok] at h
    obtain ⟨_, _, h⟩ := h
    cases h
    exact .inl rfl
  | contains =>
    simp only [apply, except_bind_eq_ok] at h
    obtain ⟨_, _, _, _, _, _, h⟩ := h
    cases h
    exact .inl rfl
  | addElement =>
    simp only [apply, except_bind_eq_ok] at h
    obtain ⟨_, _, _, _, _, _, h⟩ := h
    cases h
    exact .inr ⟨rfl, type_of_items⟩
  | removeElement =>
    simp only [apply, except_bind_eq_ok] at h
    obtain ⟨_, _, _, _, _, _, _, _, h⟩ := h
    cases h
    exact .inr ⟨rfl, type_of_items⟩
  | length =>
    simp only [apply, except_bind_eq_ok] at h
    obtain ⟨_, _, items, _, h⟩ := h
    have hv : Value.ofInt (Int.ofNat items.length) = v := Except.ok.inj h
    rw [← hv]
    exact .inl (Value.type_ofInt _)
  | newList =>
    cases h
    exact .inl rfl
  | fromUnix =>
    simp only [apply, except_bind_eq_ok] at h
    obtain ⟨_, _, seconds, _, h⟩ := h
    split at h
    · cases hmoment : Time.Moment.ofUnix? seconds with
      | none =>
        rw [hmoment] at h
        cases h
      | some moment =>
        rw [hmoment] at h
        cases h
        exact .inl rfl
    · cases h

end Builtin

theorem ValueType.accepts_list_any {t element : ValueType} (h : t.accepts (.list element) = true) :
    t.accepts (.list .any) = true := by
  cases t with
  | list a => exact a.accepts_any
  | any => rfl
  | _ => cases h

theorem Builtin.accepts_of_apply {m : Builtin} {args : List Value} {v : Value}
    (h : m.apply args = .ok v) : m.result.accepts v.type = true := by
  obtain heq | ⟨hlist, element, heq⟩ := type_of_apply h
  · rw [heq]
    exact m.result.accepts_refl
  · rw [heq, hlist]
    rfl

/-- A type that refuses what is known of a method's result refuses every value that it gives. -/
theorem Builtin.refuses_of_result {m : Builtin} {args : List Value} {v : Value} {t : ValueType}
    (h : m.apply args = .ok v) (ht : t.accepts m.result = false) : t.accepts v.type = false := by
  obtain heq | ⟨hlist, element, heq⟩ := type_of_apply h
  · rw [heq]
    exact ht
  · rw [heq]
    cases haccepts : t.accepts (.list element) with
    | false => rfl
    | true =>
      rw [hlist, ValueType.accepts_list_any haccepts] at ht
      cases ht

end ChainQuery
