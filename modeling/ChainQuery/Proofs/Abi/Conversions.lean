import ChainQuery.Program.ContractRead
import ChainQuery.Proofs.Results
import ChainQuery.Proofs.Text.Decimal
import Mathlib.Algebra.Group.Int.Defs
import Mathlib.Algebra.Group.Nat.Defs
import Mathlib.Data.Nat.Cast.Order.Basic

/-!
# Ranges of converted integers

A query value becomes an argument of a declared type. An integer is then checked against the widest
integer type of its kind, not against the declared one. So the arguments are sure to lie in their
ranges exactly for the types whose integers are as wide as a word, apart from the types that nothing
is converted to.
-/

namespace ChainQuery

def Value.integer? : Value → Option Int
  | .int i => some i
  | .bigInt s => some (Text.groupedInteger s)
  | _ => none

/-- Whether the integers that a value holds as numbers have 128 bits, as those of every value that a
query computes with do. -/
def Value.wellSized : Value → Bool
  | .int i => fits128 i
  | .list items => allWellSized items
  | _ => true
where
  allWellSized : List Value → Bool
    | [] => true
    | v :: vs => v.wellSized && allWellSized vs

theorem Value.wellSized_list {items : List Value} :
    (Value.list items).wellSized = true ↔ ∀ v ∈ items, v.wellSized = true := by
  rw [wellSized]
  induction items with
  | nil => simp [wellSized.allWellSized]
  | cons v vs ih => simp [wellSized.allWellSized, ih]

namespace AbiType

mutual

/-- Whether every integer in a value lies in the range of the integer type that it is converted
to. -/
def InRange : AbiType → Value → Prop
  | uint bits, v => ∀ i ∈ v.integer?, 0 ≤ i ∧ i < 2 ^ bits
  | int bits, v => ∀ i ∈ v.integer?, -(2 ^ (bits - 1)) ≤ i ∧ i < 2 ^ (bits - 1)
  | array element, .list items => ∀ v ∈ items, element.InRange v
  | fixedArray element _, .list items => ∀ v ∈ items, element.InRange v
  | tuple fields, .list items => FieldsInRange fields items
  | _, _ => True

def FieldsInRange : List AbiType → List Value → Prop
  | field :: fields, v :: vs => field.InRange v ∧ FieldsInRange fields vs
  | _, _ => True

end

def convertible : AbiType → Bool
  | function => false
  | fixedArray element length => length == 0 || element.convertible
  | tuple fields => allConvertible fields
  | _ => true
where
  allConvertible : List AbiType → Bool
    | [] => true
    | field :: fields => field.convertible && allConvertible fields

/-- The types whose integers are as wide as a word, as far as values reach them. -/
def guardsRange : AbiType → Bool
  | int bits => 256 ≤ bits
  | uint bits => 256 ≤ bits
  | array element => element.guardsRange
  | fixedArray element length => length == 0 || element.guardsRange
  | tuple fields => !convertible.allConvertible fields || allGuard fields
  | _ => true
where
  allGuard : List AbiType → Bool
    | [] => true
    | field :: fields => field.guardsRange && allGuard fields

end AbiType

namespace Abi

variable {v : Value} {d : AbiValue}

theorem ofValue_of_scalar {t : AbiType} (h : ofValue t v = .ok d)
    (ht : ∀ items, v ≠ .list items) : scalar? t v = some d := by
  unfold ofValue at h
  split at h
  · exact absurd rfl (ht _)
  · exact absurd rfl (ht _)
  · exact absurd rfl (ht _)
  · split at h
    · next hd => exact hd.trans (congrArg some (Except.ok.inj h))
    · cases h

theorem ok_of_mapM {f : α → Except ε β} {as : List α} {bs : List β} (h : as.mapM f = .ok bs) :
    ∀ a ∈ as, ∃ b, f a = .ok b := by
  rw [except_mapM_eq_ok] at h
  induction h with
  | nil => simp
  | cons hb _ ih => exact List.forall_mem_cons.2 ⟨⟨_, hb⟩, ih⟩

theorem ofFields_cons {t : AbiType} {ts : List AbiType} {vs : List Value} {ds : List AbiValue}
    (h : ofFields (t :: ts) (v :: vs) = .ok ds) :
    ∃ d ds', ofValue t v = .ok d ∧ ofFields ts vs = .ok ds' ∧ ds = d :: ds' := by
  rw [ofFields, except_bind_eq_ok] at h
  obtain ⟨d, hd, h⟩ := h
  obtain ⟨ds', hds, h⟩ := except_bind_eq_ok.1 h
  exact ⟨d, ds', hd, hds, (Except.ok.inj h).symm⟩

theorem ofValue_array {element : AbiType} (h : ofValue (.array element) v = .ok d) :
    ∃ items ds, v = .list items ∧ items.mapM (ofValue element) = .ok ds ∧ d = .array ds := by
  cases v with
  | list items =>
    obtain ⟨ds, hds, rfl⟩ := except_map_eq_ok.1 h
    exact ⟨items, ds, rfl, hds, rfl⟩
  | _ => cases h

theorem ofValue_fixedArray {element : AbiType} {length : Nat}
    (h : ofValue (.fixedArray element length) v = .ok d) :
    ∃ items ds, v = .list items ∧ items.length = length ∧
      items.mapM (ofValue element) = .ok ds ∧ d = .fixedArray ds := by
  cases v with
  | list items =>
    rw [ofValue] at h
    split at h
    · next hlength =>
      obtain ⟨ds, hds, rfl⟩ := except_map_eq_ok.1 h
      exact ⟨items, ds, rfl, hlength, hds, rfl⟩
    · cases h
  | _ => cases h

theorem ofValue_tuple {fields : List AbiType} (h : ofValue (.tuple fields) v = .ok d) :
    ∃ items ds, v = .list items ∧ items.length = fields.length ∧
      ofFields fields items = .ok ds ∧ d = .tuple ds := by
  cases v with
  | list items =>
    rw [ofValue] at h
    split at h
    · next hlength =>
      obtain ⟨ds, hds, rfl⟩ := except_map_eq_ok.1 h
      exact ⟨items, ds, rfl, hlength, hds, rfl⟩
    · cases h
  | _ => cases h

mutual

theorem convertible_of_ofValue : ∀ {t : AbiType} {v : Value} {d : AbiValue},
    ofValue t v = .ok d → t.convertible = true
  | .function, v, d, h => by cases v <;> cases h
  | .fixedArray element length, v, d, h => by
    obtain ⟨items, ds, rfl, rfl, hds, rfl⟩ := ofValue_fixedArray h
    cases items with
    | nil => rfl
    | cons v vs =>
      obtain ⟨d, hd⟩ := ok_of_mapM hds v List.mem_cons_self
      simp [AbiType.convertible, convertible_of_ofValue hd]
  | .tuple fields, v, d, h => by
    obtain ⟨items, ds, rfl, hlength, hds, rfl⟩ := ofValue_tuple h
    exact allConvertible_of_ofFields hlength hds
  | .bool, _, _, _ | .int _, _, _, _ | .uint _, _, _, _ | .fixedBytes _, _, _, _
  | .address, _, _, _ | .bytes, _, _, _ | .string, _, _, _ | .array _, _, _, _ => rfl

theorem allConvertible_of_ofFields : ∀ {ts : List AbiType} {vs : List Value} {ds : List AbiValue},
    vs.length = ts.length → ofFields ts vs = .ok ds → AbiType.convertible.allConvertible ts = true
  | [], _, _, _, _ => rfl
  | t :: ts, [], ds, hlength, h => by cases hlength
  | t :: ts, v :: vs, ds, hlength, h => by
    obtain ⟨d, ds', hd, hds, rfl⟩ := ofFields_cons h
    simp [AbiType.convertible.allConvertible, convertible_of_ofValue hd,
      allConvertible_of_ofFields (Nat.succ.inj hlength) hds]

end

theorem bounds_of_ofValue_uint {bits : Nat} {i : Int} (hv : v.wellSized = true)
    (h : ofValue (.uint bits) v = .ok d) (hi : v.integer? = some i) : 0 ≤ i ∧ i < 2 ^ 256 := by
  cases v with
  | int j =>
    obtain rfl := Option.some.inj hi
    have hd := ofValue_of_scalar h (by simp)
    have hj : j < 2 ^ 127 := by simpa [fits128] using (Bool.and_eq_true_iff.1 hv).2
    rw [scalar?] at hd
    split at hd
    · next hpos => exact ⟨hpos, by omega⟩
    · cases hd
  | bigInt s =>
    obtain rfl := Option.some.inj hi
    obtain ⟨n, hn, -⟩ := Option.map_eq_some_iff.1 (ofValue_of_scalar h (by simp))
    have hlt : n < 2 ^ 256 := (Text.groupedNumber_of_readGrouped? hn).2
    rw [Text.groupedInteger_of_readGrouped? hn]
    omega
  | _ => cases hi

theorem bounds_of_ofValue_int {bits : Nat} {i : Int} (hv : v.wellSized = true)
    (h : ofValue (.int bits) v = .ok d) (hi : v.integer? = some i) :
    -(2 ^ 255) ≤ i ∧ i < 2 ^ 255 := by
  cases v with
  | int j =>
    obtain rfl := Option.some.inj hi
    have hj : -(2 ^ 127) ≤ j ∧ j < 2 ^ 127 := by simpa [fits128, Value.wellSized] using hv
    omega
  | bigInt s =>
    obtain rfl := Option.some.inj hi
    obtain ⟨j, hj, -⟩ := Option.map_eq_some_iff.1 (ofValue_of_scalar h (by simp))
    obtain ⟨hs, hfits⟩ := groupedInteger_of_readInt256? hj
    rw [hs]
    simpa [fits256] using hfits
  | _ => cases hi

mutual

theorem inRange_of_ofValue : ∀ {t : AbiType} {v : Value} {d : AbiValue}, t.guardsRange = true →
    v.wellSized = true → ofValue t v = .ok d → t.InRange v
  | .uint bits, v, d, ht, hv, h => by
    intro i hi
    have hb := bounds_of_ofValue_uint hv h hi
    have hp : (2 : Int) ^ 256 ≤ 2 ^ bits := by
      exact_mod_cast Nat.pow_le_pow_right (by decide) (of_decide_eq_true ht)
    omega
  | .int bits, v, d, ht, hv, h => by
    intro i hi
    have hb := bounds_of_ofValue_int hv h hi
    have hle : 256 ≤ bits := of_decide_eq_true ht
    have hp : (2 : Int) ^ 255 ≤ 2 ^ (bits - 1) := by
      exact_mod_cast Nat.pow_le_pow_right (by decide) (by omega)
    omega
  | .array element, v, d, ht, hv, h => by
    obtain ⟨items, ds, rfl, hds, rfl⟩ := ofValue_array h
    intro v hmem
    obtain ⟨d, hd⟩ := ok_of_mapM hds v hmem
    exact inRange_of_ofValue ht (Value.wellSized_list.1 hv v hmem) hd
  | .fixedArray element length, v, d, ht, hv, h => by
    obtain ⟨items, ds, rfl, rfl, hds, rfl⟩ := ofValue_fixedArray h
    intro v hmem
    obtain ⟨d, hd⟩ := ok_of_mapM hds v hmem
    have hne : items.length ≠ 0 := List.length_pos_of_mem hmem |>.ne'
    have ht : element.guardsRange = true := by simpa [AbiType.guardsRange, hne] using ht
    exact inRange_of_ofValue ht (Value.wellSized_list.1 hv v hmem) hd
  | .tuple fields, v, d, ht, hv, h => by
    have hconvertible : AbiType.convertible.allConvertible fields = true :=
      convertible_of_ofValue h
    obtain ⟨items, ds, rfl, hlength, hds, rfl⟩ := ofValue_tuple h
    have ht : AbiType.guardsRange.allGuard fields = true := by
      simpa [AbiType.guardsRange, hconvertible] using ht
    exact fieldsInRange_of_ofFields ht (Value.wellSized_list.1 hv) hds
  | .bool, v, _, _, _, _ | .fixedBytes _, v, _, _, _, _ | .address, v, _, _, _, _
  | .function, v, _, _, _, _ | .bytes, v, _, _, _, _ | .string, v, _, _, _, _ => by
    cases v <;> trivial

theorem fieldsInRange_of_ofFields : ∀ {ts : List AbiType} {vs : List Value} {ds : List AbiValue},
    AbiType.guardsRange.allGuard ts = true → (∀ v ∈ vs, v.wellSized = true) →
    ofFields ts vs = .ok ds → AbiType.FieldsInRange ts vs
  | [], vs, _, _, _, _ => by cases vs <;> trivial
  | _ :: _, [], _, _, _, _ => trivial
  | t :: ts, v :: vs, ds, ht, hv, h => by
    obtain ⟨d, ds', hd, hds, rfl⟩ := ofFields_cons h
    obtain ⟨ht, hts⟩ := Bool.and_eq_true_iff.1 ht
    obtain ⟨hv, hvs⟩ := List.forall_mem_cons.1 hv
    exact ⟨inRange_of_ofValue ht hv hd, fieldsInRange_of_ofFields hts hvs hds⟩

end

theorem ofValue_replicate {t : AbiType} (h : ofValue t v = .ok d) (n : Nat) :
    (List.replicate n v).mapM (ofValue t) = .ok (List.replicate n d) := by
  induction n with
  | zero => rfl
  | succ n ih =>
    rw [List.replicate_succ, List.mapM_cons, h, ih]
    rfl

theorem wellSized_replicate (hv : v.wellSized = true) (n : Nat) :
    (Value.list (List.replicate n v)).wellSized = true :=
  Value.wellSized_list.2 fun _ hw => List.eq_of_mem_replicate hw ▸ hv

theorem ofValue_fixedArray_replicate {t : AbiType} (h : ofValue t v = .ok d) (n : Nat) :
    ofValue (.fixedArray t n) (.list (List.replicate n v)) =
      .ok (.fixedArray (List.replicate n d)) := by
  rw [ofValue, if_pos List.length_replicate, ofValue_replicate h]
  rfl

theorem ofValue_tuple_of_fields {ts : List AbiType} {vs : List Value} {ds : List AbiValue}
    (hlength : vs.length = ts.length) (h : ofFields ts vs = .ok ds) :
    ofValue (.tuple ts) (.list vs) = .ok (.tuple ds) := by
  rw [ofValue, if_pos hlength, h]
  rfl

theorem ofFields_cons_of {t : AbiType} {ts : List AbiType} {vs : List Value} {ds : List AbiValue}
    (h : ofValue t v = .ok d) (hs : ofFields ts vs = .ok ds) :
    ofFields (t :: ts) (v :: vs) = .ok (d :: ds) := by
  rw [ofFields, h, hs]
  rfl

mutual

theorem exists_ofValue : ∀ {t : AbiType}, t.convertible = true →
    ∃ v d, v.wellSized = true ∧ ofValue t v = .ok d
  | .bool, _ => ⟨.bool true, .bool true, rfl, rfl⟩
  | .int bits, _ => ⟨.int 0, .int 0 bits, rfl, rfl⟩
  | .uint bits, _ => ⟨.int 0, .uint 0 bits, rfl, rfl⟩
  | .fixedBytes size, _ =>
    ⟨.bytes [], .fixedBytes (padRight 32 []) size, rfl, by simp [ofValue, scalar?]⟩
  | .address, _ => by
    have hread : readAddress? (String.ofList (List.replicate 40 '0')) =
        some (List.replicate 20 0) := by decide
    exact ⟨.str (String.ofList (List.replicate 40 '0')), .address (List.replicate 20 0), rfl,
      by rw [ofValue, scalar?, hread] <;> simp⟩
  | .bytes, _ => ⟨.bytes [], .bytes [], rfl, rfl⟩
  | .string, _ => ⟨.str "", .string "", rfl, rfl⟩
  | .array _, _ => ⟨.list [], .array [], rfl, rfl⟩
  | .fixedArray element length, ht => by
    rcases Bool.or_eq_true_iff.1 ht with hzero | ht
    · obtain rfl : length = 0 := by simpa using hzero
      exact ⟨.list [], .fixedArray [], rfl, rfl⟩
    · obtain ⟨v, d, hv, h⟩ := exists_ofValue ht
      exact ⟨_, _, wellSized_replicate hv length, ofValue_fixedArray_replicate h length⟩
  | .tuple fields, ht => by
    obtain ⟨vs, ds, hlength, hvs, h⟩ := exists_ofFields ht
    exact ⟨_, _, Value.wellSized_list.2 hvs, ofValue_tuple_of_fields hlength h⟩

theorem exists_ofFields : ∀ {ts : List AbiType}, AbiType.convertible.allConvertible ts = true →
    ∃ vs ds, vs.length = ts.length ∧ (∀ v ∈ vs, v.wellSized = true) ∧ ofFields ts vs = .ok ds
  | [], _ => ⟨[], [], rfl, by simp, rfl⟩
  | t :: ts, hts => by
    obtain ⟨ht, hts⟩ := Bool.and_eq_true_iff.1 hts
    obtain ⟨v, d, hv, h⟩ := exists_ofValue ht
    obtain ⟨vs, ds, hlength, hvs, hs⟩ := exists_ofFields hts
    exact ⟨v :: vs, d :: ds, congrArg (· + 1) hlength, List.forall_mem_cons.2 ⟨hv, hvs⟩,
      ofFields_cons_of h hs⟩

end

theorem readGrouped?_decimal {n : Nat} (h : n < 2 ^ 256) :
    Text.readGrouped? 10 wordBound (Text.decimal n).toList = some n := by
  rw [Text.decimal, String.toList_ofList, Text.readGrouped?_render]
  exact if_pos h

theorem readInt256?_decimal {n : Nat} (h : n < 2 ^ 255) :
    readInt256? (Text.decimal n) = some (n : Int) := by
  rw [← Text.signedDecimal, readInt256?_signedDecimal, if_pos]
  · rfl
  · simp only [fits256, Nat.pow_eq, Bool.and_eq_true, decide_eq_true_eq, Int.ofNat_eq_natCast]
    omega

mutual

/-- A type with a narrow integer that values reach has a value that is converted although that
integer is out of range. -/
theorem exists_out_of_range : ∀ {t : AbiType}, t.guardsRange = false →
    ∃ v d, v.wellSized = true ∧ ofValue t v = .ok d ∧ ¬ t.InRange v
  | .uint bits, ht => by
    have hbits : bits < 256 := Nat.lt_of_not_le (of_decide_eq_false ht)
    have hread := readGrouped?_decimal (Nat.pow_lt_pow_right (by decide) hbits)
    refine ⟨.bigInt (Text.decimal (2 ^ bits)), .uint (2 ^ bits) bits, rfl, ?_, ?_⟩
    · simp [ofValue, scalar?, hread]
    · simp [AbiType.InRange, Value.integer?, Text.groupedInteger_of_readGrouped? hread]
  | .int bits, ht => by
    have hbits : bits < 256 := Nat.lt_of_not_le (of_decide_eq_false ht)
    have hlt : 2 ^ (bits - 1) < 2 ^ 255 := Nat.pow_lt_pow_right (by decide) (by omega)
    have hread := readInt256?_decimal hlt
    refine ⟨.bigInt (Text.decimal (2 ^ (bits - 1))), .int (2 ^ (bits - 1) : Nat) bits, rfl, ?_, ?_⟩
    · simp [ofValue, scalar?, hread]
    · simp [AbiType.InRange, Value.integer?, (groupedInteger_of_readInt256? hread).1]
  | .array element, ht => by
    have ht : element.guardsRange = false := ht
    obtain ⟨v, d, hv, h, hrange⟩ := exists_out_of_range ht
    refine ⟨.list [v], .array [d], by simpa [Value.wellSized_list] using hv, ?_, ?_⟩
    · rw [ofValue, List.mapM_cons, h]
      rfl
    · simpa [AbiType.InRange] using hrange
  | .fixedArray element length, ht => by
    obtain ⟨hlength, ht⟩ := Bool.or_eq_false_iff.1 ht
    obtain ⟨v, d, hv, h, hrange⟩ := exists_out_of_range ht
    refine ⟨_, _, wellSized_replicate hv length, ofValue_fixedArray_replicate h length, ?_⟩
    intro hall
    exact hrange (hall v (List.mem_replicate.2 ⟨by simpa using hlength, rfl⟩))
  | .tuple fields, ht => by
    obtain ⟨hconvertible, ht⟩ := Bool.or_eq_false_iff.1 ht
    obtain ⟨vs, ds, hlength, hvs, h, hrange⟩ :=
      exists_fields_out_of_range (by simpa using hconvertible) ht
    exact ⟨_, _, Value.wellSized_list.2 hvs, ofValue_tuple_of_fields hlength h, hrange⟩

theorem exists_fields_out_of_range : ∀ {ts : List AbiType},
    AbiType.convertible.allConvertible ts = true → AbiType.guardsRange.allGuard ts = false →
    ∃ vs ds, vs.length = ts.length ∧ (∀ v ∈ vs, v.wellSized = true) ∧ ofFields ts vs = .ok ds ∧
      ¬ AbiType.FieldsInRange ts vs
  | t :: ts, hconvertible, hts => by
    obtain ⟨hc, hcs⟩ := Bool.and_eq_true_iff.1 hconvertible
    by_cases ht : t.guardsRange = true
    · have hts : AbiType.guardsRange.allGuard ts = false := by
        simpa [AbiType.guardsRange.allGuard, ht] using hts
      obtain ⟨v, d, hv, h⟩ := exists_ofValue hc
      obtain ⟨vs, ds, hlength, hvs, hs, hrange⟩ := exists_fields_out_of_range hcs hts
      exact ⟨v :: vs, d :: ds, congrArg (· + 1) hlength, List.forall_mem_cons.2 ⟨hv, hvs⟩,
        ofFields_cons_of h hs, fun hall => hrange hall.2⟩
    · obtain ⟨v, d, hv, h, hrange⟩ := exists_out_of_range (Bool.eq_false_iff.2 ht)
      obtain ⟨vs, ds, hlength, hvs, hs⟩ := exists_ofFields hcs
      exact ⟨v :: vs, d :: ds, congrArg (· + 1) hlength, List.forall_mem_cons.2 ⟨hv, hvs⟩,
        ofFields_cons_of h hs, fun hall => hrange hall.1⟩

end

end Abi

namespace ContractRead

variable {view : View} {r : ContractRead} {data : List UInt8}

theorem ofValue_of_encodeCall (h : r.encodeCall view = .ok data) {a : Argument}
    (ha : a ∈ r.inputs) {v : Value} (hv : a.term.eval view = .ok v) :
    ∃ d, Abi.ofValue a.type v = .ok d := by
  obtain ⟨arguments, harguments, -⟩ := except_bind_eq_ok.1 h
  obtain ⟨d, hd⟩ := Abi.ok_of_mapM harguments a ha
  obtain ⟨w, hw, hd⟩ := except_bind_eq_ok.1 hd
  cases hw.symm.trans hv
  exact ⟨d, hd⟩

theorem encodeCall_literal {t : AbiType} {v : Value} {d : AbiValue} (h : Abi.ofValue t v = .ok d)
    (view : View) (name : String) (outputs : List Parameter) :
    ∃ data, encodeCall view ⟨name, [⟨.literal v, t⟩], outputs⟩ = .ok data := by
  refine ⟨_, except_bind_eq_ok.2 ⟨[d], ?_, rfl⟩⟩
  simp [List.mapM_cons, Argument.eval, Term.eval, h, bind, Except.bind, pure, Except.pure]

end ContractRead

/-- The integers of converted values and of the arguments of calls are sure to lie in the ranges of
their declared types exactly for the types whose integers, as far as values reach them, are as wide
as a word. -/
theorem arguments_in_range_iff (t : AbiType) :
    ((∀ v d, v.wellSized = true → Abi.ofValue t v = .ok d → t.InRange v) ↔
      t.guardsRange = true) ∧
    ((∀ (r : ContractRead) (view : View) (a : Argument) (v : Value), a ∈ r.inputs → a.type = t →
        a.term.eval view = .ok v → v.wellSized = true → ¬ t.InRange v →
        ∃ e, r.encodeCall view = .error e) ↔
      t.guardsRange = true) := by
  refine ⟨⟨fun h => ?_, fun ht v d hv h => Abi.inRange_of_ofValue ht hv h⟩, fun h => ?_, ?_⟩
  · by_contra ht
    obtain ⟨v, d, hv, hd, hrange⟩ := Abi.exists_out_of_range (Bool.eq_false_iff.2 ht)
    exact hrange (h v d hv hd)
  · by_contra ht
    obtain ⟨v, d, hv, hd, hrange⟩ := Abi.exists_out_of_range (Bool.eq_false_iff.2 ht)
    obtain ⟨e, he⟩ := h ⟨"", [⟨.literal v, t⟩], []⟩ default ⟨.literal v, t⟩ v List.mem_cons_self
      rfl rfl hv hrange
    obtain ⟨data, hdata⟩ := ContractRead.encodeCall_literal hd default "" []
    cases he.symm.trans hdata
  · rintro ht r view a v ha rfl hv hsized hrange
    cases hcall : r.encodeCall view with
    | error e => exact ⟨e, rfl⟩
    | ok data =>
      obtain ⟨d, hd⟩ := ContractRead.ofValue_of_encodeCall hcall ha hv
      exact absurd (Abi.inRange_of_ofValue ht hsized hd) hrange

/-- A nested argument of wide integers: the call is refused for the negative one. -/
theorem arguments_in_range_iff_nested :
    ∃ e, ContractRead.encodeCall default ⟨"sum",
      [⟨.literal (.list [.int 1, .list [.int (-1)]]), .tuple [.int 256, .array (.uint 256)]⟩],
      []⟩ = .error e := by
  have hguards : (AbiType.tuple [.int 256, .array (.uint 256)]).guardsRange = true := by decide
  refine (arguments_in_range_iff _).2.2 hguards _ _ _ _ List.mem_cons_self rfl rfl (by decide) ?_
  simp [AbiType.InRange, AbiType.FieldsInRange, Value.integer?]

/-- The integer 300 is converted to one of eight bits. -/
theorem narrow_argument_out_of_range :
    ¬ ∀ (t : AbiType) (v : Value) (d : AbiValue), v.wellSized = true → Abi.ofValue t v = .ok d →
      t.InRange v := by
  intro h
  have hrange := h (.uint 8) (.int 300) (.uint 300 8) (by decide) rfl
  exact absurd (hrange 300 rfl).2 (by decide)

end ChainQuery
