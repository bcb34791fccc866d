import ChainQuery.Proofs.Abi.Addresses
import ChainQuery.Proofs.Abi.Conversions
import ChainQuery.Proofs.Abi.Words
import ChainQuery.Proofs.Value.Integers

/-!
# Conversions there and back

A value of the contract interface is given back when it is made a query value and then converted to its
own type. A query value that is converted comes back as one that stands for the same thing: its integers
in the form of their own, its addresses with their checksum, and its bytes filled up with zeros.
-/

namespace ChainQuery

namespace Value

/-- Whether all integers that a value holds as texts are a sign, which may be missing, and digits. -/
def isPlain : Value → Bool
  | bigInt s => (Text.readSigned? s.toList).isSome
  | list items => allPlain items
  | _ => true
where
  allPlain : List Value → Bool
    | [] => true
    | v :: vs => v.isPlain && allPlain vs

theorem isPlain_list {items : List Value} :
    (list items).isPlain = true ↔ ∀ v ∈ items, v.isPlain = true := by
  rw [isPlain]
  induction items with
  | nil => simp [isPlain.allPlain]
  | cons v vs ih => simp [isPlain.allPlain, ih]

/-- The addresses that texts and addresses name. -/
inductive Names : Value → List UInt8 → Prop
  | str {s : String} {raw : List UInt8} : Abi.SpellsAddress s raw → Names (.str s) raw
  | address {s : String} {raw : List UInt8} : Abi.SpellsAddress s raw → Names (.address s) raw

end Value

namespace AbiType

/-- The types without a function type in them; byte strings of a fixed size have at most a word. -/
def isInvertible : AbiType → Bool
  | function => false
  | fixedBytes size => size ≤ 32
  | array element => element.isInvertible
  | fixedArray element _ => element.isInvertible
  | tuple fields => allInvertible fields
  | _ => true
where
  allInvertible : List AbiType → Bool
    | [] => true
    | field :: fields => field.isInvertible && allInvertible fields

mutual

/-- The well-formed values of a type: as for `Has`, but with lists of any length, because nothing is
encoded. -/
inductive Admits : AbiType → AbiValue → Prop
  | bool {b : Bool} : Admits .bool (.bool b)
  | int {i : Int} {bits : Nat} : bits ≤ 256 → -(2 ^ (bits - 1)) ≤ i → i < 2 ^ (bits - 1) →
    Admits (.int bits) (.int i bits)
  | uint {n bits : Nat} : bits ≤ 256 → n < 2 ^ bits → Admits (.uint bits) (.uint n bits)
  | fixedBytes {data : List UInt8} :
    Admits (.fixedBytes data.length) (.fixedBytes (Abi.padRight 32 data) data.length)
  | address {raw : List UInt8} : raw.length = 20 → Admits .address (.address raw)
  | function {raw : List UInt8} : raw.length = 24 → Admits .function (.function raw)
  | bytes {data : List UInt8} : Admits .bytes (.bytes data)
  | string {s : String} : Admits .string (.string s)
  | array {element : AbiType} {items : List AbiValue} : (∀ d ∈ items, Admits element d) →
    Admits (.array element) (.array items)
  | fixedArray {element : AbiType} {items : List AbiValue} : (∀ d ∈ items, Admits element d) →
    Admits (.fixedArray element items.length) (.fixedArray items)
  | tuple {fields : List AbiType} {ds : List AbiValue} : AllAdmit fields ds →
    Admits (.tuple fields) (.tuple ds)

inductive AllAdmit : List AbiType → List AbiValue → Prop
  | nil : AllAdmit [] []
  | cons {t : AbiType} {d : AbiValue} {ts : List AbiType} {ds : List AbiValue} : Admits t d →
    AllAdmit ts ds → AllAdmit (t :: ts) (d :: ds)

end

mutual

theorem Has.admits : ∀ {t : AbiType} {d : AbiValue}, t.Has d → t.Admits d
  | _, _, .bool => .bool
  | _, _, .int hbits hlow hhigh => .int hbits hlow hhigh
  | _, _, .uint hbits hn => .uint hbits hn
  | _, _, .fixedBytes _ => .fixedBytes
  | _, _, .address hraw => .address hraw
  | _, _, .function hraw => .function hraw
  | _, _, .bytes => .bytes
  | _, _, .string => .string
  | _, _, .array _ hitems => .array fun d hd => (hitems d hd).admits
  | _, _, .fixedArray _ hitems => .fixedArray fun d hd => (hitems d hd).admits
  | _, _, .tuple hfields => .tuple hfields.allAdmit

theorem AllHave.allAdmit : ∀ {ts : List AbiType} {ds : List AbiValue}, AllHave ts ds →
    AllAdmit ts ds
  | _, _, .nil => .nil
  | _, _, .cons hd hds => .cons hd.admits hds.allAdmit

end

mutual

/-- Two query values that stand for the same value of a type, the second one with as many bytes as a
byte string of its type has. -/
def Equates : AbiType → Value → Value → Prop
  | int _, v, w => ∃ i, v.Holds i ∧ w.Holds i
  | uint _, v, w => ∃ i, v.Holds i ∧ w.Holds i
  | address, v, w => ∃ raw, v.Names raw ∧ w.Names raw
  | fixedBytes size, .bytes data, .bytes padded =>
    data.length ≤ size ∧ padded = Abi.padRight size data
  | array element, .list vs, .list ws => List.Forall₂ element.Equates vs ws
  | fixedArray element length, .list vs, .list ws =>
    vs.length = length ∧ List.Forall₂ element.Equates vs ws
  | tuple fields, .list vs, .list ws => FieldsEquate fields vs ws
  | bool, v, w | bytes, v, w | string, v, w => v = w
  | _, _, _ => False

def FieldsEquate : List AbiType → List Value → List Value → Prop
  | [], [], [] => True
  | field :: fields, v :: vs, w :: ws => field.Equates v w ∧ FieldsEquate fields vs ws
  | _, _, _ => False

end

end AbiType

theorem AbiValue.toValues_eq_map (ds : List AbiValue) : toValues ds = ds.map toValue := by
  induction ds with
  | nil => rfl
  | cons d ds ih => rw [toValues, ih, List.map_cons]

theorem AbiValue.toValue_eq_int {d : AbiValue} {i : Int} :
    d.toValue = .int i ↔ d.Carries i ∧ -(2 ^ 127) ≤ i ∧ i < 2 ^ 127 := by
  constructor
  · intro h
    cases d with
    | int j bits =>
      obtain ⟨rfl, hi⟩ := Value.ofInt_eq_int.1 h
      exact ⟨.int (fits256_iff.2 (by omega)), hi⟩
    | uint n bits =>
      obtain ⟨rfl, hi⟩ := Value.ofInt_eq_int.1 h
      refine ⟨.uint ?_, hi⟩
      simp only [wordBound, Nat.pow_eq, Int.ofNat_eq_natCast] at *
      omega
    | _ => cases h
  · rintro ⟨hcarries, hi⟩
    rw [hcarries.toValue_eq]
    exact Value.ofInt_eq_int.2 ⟨rfl, hi⟩

namespace Abi

theorem ofValue_int_ofInt {bits : Nat} {i : Int} (h : fits256 i) :
    ofValue (.int bits) (Value.ofInt i) = .ok (.int i bits) := by
  rw [Value.ofInt]
  split
  · rfl
  · simp [ofValue, scalar?, readInt256?_signedDecimal, h]

theorem ofValue_uint_ofInt {bits n : Nat} (h : n < 2 ^ 256) :
    ofValue (.uint bits) (Value.ofInt n) = .ok (.uint n bits) := by
  rw [Value.ofInt]
  split
  · simp [ofValue, scalar?]
  · simp [ofValue, scalar?, Text.signedDecimal, readGrouped?_decimal h]

theorem length_toValues (ds : List AbiValue) : (AbiValue.toValues ds).length = ds.length := by
  rw [AbiValue.toValues_eq_map, List.length_map]

theorem mapM_toValues {t : AbiType} {ds : List AbiValue}
    (h : ∀ d ∈ ds, ofValue t d.toValue = .ok d) :
    (AbiValue.toValues ds).mapM (ofValue t) = .ok ds := by
  rw [AbiValue.toValues_eq_map, except_mapM_eq_ok, List.forall₂_map_left_iff, List.forall₂_same]
  exact h

mutual

/-- Each well-formed value is converted back from what it is to a query. -/
theorem ofValue_toValue : ∀ {t : AbiType} {d : AbiValue}, t.isInvertible = true → t.Admits d →
    ofValue t d.toValue = .ok d
  | .bool, _, _, .bool | .bytes, _, _, .bytes | .string, _, _, .string => rfl
  | .int bits, _, _, .int hbits hlow hhigh => by
    obtain ⟨hfits⟩ := AbiValue.carries_int hbits ⟨hlow, hhigh⟩
    exact ofValue_int_ofInt hfits
  | .uint bits, _, _, .uint hbits hn =>
    ofValue_uint_ofInt (Nat.lt_of_lt_of_le hn (Nat.pow_le_pow_right (by decide) hbits))
  | .fixedBytes _, _, ht, .fixedBytes => by
    have hword := take_padRight (Nat.le_refl _) (of_decide_eq_true ht)
    simp [AbiValue.toValue, hword, padRight_self, ofValue, scalar?]
  | .address, _, _, .address hraw => by
    simp [AbiValue.toValue, ofValue, scalar?, readAddress?_of_spells (spellsAddress_checksumText hraw)]
  | .array element, _, ht, .array hitems => by
    have ht : element.isInvertible = true := ht
    rw [AbiValue.toValue, ofValue, mapM_toValues fun d hd => ofValue_toValue ht (hitems d hd)]
    rfl
  | .fixedArray element _, _, ht, .fixedArray hitems => by
    have ht : element.isInvertible = true := ht
    rw [AbiValue.toValue, ofValue, if_pos (length_toValues _),
      mapM_toValues fun d hd => ofValue_toValue ht (hitems d hd)]
    rfl
  | .tuple fields, _, ht, .tuple hfields => by
    obtain ⟨hlength, h⟩ := ofFields_toValues ht hfields
    exact ofValue_tuple_of_fields hlength h

theorem ofFields_toValues : ∀ {ts : List AbiType} {ds : List AbiValue},
    AbiType.isInvertible.allInvertible ts = true → AbiType.AllAdmit ts ds →
    (AbiValue.toValues ds).length = ts.length ∧ ofFields ts (AbiValue.toValues ds) = .ok ds
  | [], _, _, .nil => ⟨rfl, rfl⟩
  | t :: ts, _, hts, .cons hd hds => by
    obtain ⟨ht, hts⟩ := Bool.and_eq_true_iff.1 hts
    obtain ⟨hlength, h⟩ := ofFields_toValues hts hds
    exact ⟨congrArg (· + 1) hlength, ofFields_cons_of (ofValue_toValue ht hd) h⟩

end

variable {v : Value} {d : AbiValue}

theorem holds_of_ofValue_int {bits : Nat} (hv : v.isPlain = true)
    (h : ofValue (.int bits) v = .ok d) : ∃ i, v.Holds i ∧ d.toValue.Holds i := by
  cases v with
  | int i =>
    obtain rfl := Except.ok.inj h
    exact ⟨i, .int, Value.holds_ofInt i⟩
  | bigInt s =>
    obtain ⟨i, hi, rfl⟩ := Option.map_eq_some_iff.1 (ofValue_of_scalar h (by simp))
    obtain ⟨j, hj⟩ := Option.isSome_iff_exists.1 hv
    obtain rfl : j = i :=
      (Text.groupedInteger_of_readSigned? hj).symm.trans (groupedInteger_of_readInt256? hi).1
    exact ⟨j, .bigInt hj, Value.holds_ofInt j⟩
  | _ => cases h

theorem holds_of_ofValue_uint {bits : Nat} (hv : v.isPlain = true)
    (h : ofValue (.uint bits) v = .ok d) : ∃ i, v.Holds i ∧ d.toValue.Holds i := by
  cases v with
  | int i =>
    have hd := ofValue_of_scalar h (by simp)
    rw [scalar?] at hd
    split at hd
    · next hpos =>
      obtain rfl := Option.some.inj hd
      have hnat : Int.ofNat i.toNat = i := Int.toNat_of_nonneg hpos
      rw [AbiValue.toValue, hnat]
      exact ⟨i, .int, Value.holds_ofInt i⟩
    · cases hd
  | bigInt s =>
    obtain ⟨n, hn, rfl⟩ := Option.map_eq_some_iff.1 (ofValue_of_scalar h (by simp))
    obtain ⟨j, hj⟩ := Option.isSome_iff_exists.1 hv
    obtain rfl : j = n :=
      (Text.groupedInteger_of_readSigned? hj).symm.trans (Text.groupedInteger_of_readGrouped? hn)
    exact ⟨n, .bigInt hj, Value.holds_ofInt n⟩
  | _ => cases h

theorem names_of_ofValue_address (h : ofValue .address v = .ok d) :
    ∃ raw, v.Names raw ∧ d.toValue.Names raw := by
  have shown {raw : List UInt8} {s : String} (hraw : SpellsAddress s raw) :
      (AbiValue.address raw).toValue.Names raw :=
    .address (spellsAddress_checksumText hraw.1)
  cases v with
  | str s =>
    obtain ⟨raw, hraw, rfl⟩ := Option.map_eq_some_iff.1 (ofValue_of_scalar h (by simp))
    have hs := spellsAddress_of_readAddress? hraw
    exact ⟨raw, .str hs, shown hs⟩
  | address s =>
    obtain ⟨raw, hraw, rfl⟩ := Option.map_eq_some_iff.1 (ofValue_of_scalar h (by simp))
    have hs := spellsAddress_of_readAddress? hraw
    exact ⟨raw, .address hs, shown hs⟩
  | _ => cases h

theorem equates_of_ofValue_fixedBytes {size : Nat} (hsize : size ≤ 32)
    (h : ofValue (.fixedBytes size) v = .ok d) : (AbiType.fixedBytes size).Equates v d.toValue := by
  cases v with
  | bytes data =>
    have hd := ofValue_of_scalar h (by simp)
    rw [scalar?] at hd
    split at hd
    · next hlength =>
      obtain rfl := Option.some.inj hd
      exact ⟨hlength, take_padRight hlength hsize⟩
    · cases hd
  | _ => cases h

theorem equates_items {t : AbiType} {items : List Value} {ds : List AbiValue}
    (hitems : ∀ v ∈ items, v.isPlain = true) (h : items.mapM (ofValue t) = .ok ds)
    (hequates : ∀ {v d}, v.isPlain = true → ofValue t v = .ok d → t.Equates v d.toValue) :
    List.Forall₂ t.Equates items (AbiValue.toValues ds) := by
  rw [AbiValue.toValues_eq_map, List.forall₂_map_right_iff]
  have hpairs := (List.forall₂_and_left items ds).2 ⟨hitems, except_mapM_eq_ok.1 h⟩
  exact hpairs.imp fun v d ⟨hv, hd⟩ => hequates hv hd

mutual

/-- A converted value comes back as one that stands for the same. -/
theorem equates_of_ofValue : ∀ {t : AbiType} {v : Value} {d : AbiValue}, t.isInvertible = true →
    v.isPlain = true → ofValue t v = .ok d → t.Equates v d.toValue
  | .bool, v, d, _, _, h | .bytes, v, d, _, _, h | .string, v, d, _, _, h => by
    cases v <;> cases h
    rfl
  | .int bits, v, d, _, hv, h => holds_of_ofValue_int hv h
  | .uint bits, v, d, _, hv, h => holds_of_ofValue_uint hv h
  | .address, v, d, _, _, h => names_of_ofValue_address h
  | .fixedBytes size, v, d, ht, _, h => equates_of_ofValue_fixedBytes (of_decide_eq_true ht) h
  | .array element, v, d, ht, hv, h => by
    obtain ⟨items, ds, rfl, hds, rfl⟩ := ofValue_array h
    have ht : element.isInvertible = true := ht
    exact equates_items (Value.isPlain_list.1 hv) hds fun hv hd => equates_of_ofValue ht hv hd
  | .fixedArray element length, v, d, ht, hv, h => by
    obtain ⟨items, ds, rfl, hlength, hds, rfl⟩ := ofValue_fixedArray h
    have ht : element.isInvertible = true := ht
    exact ⟨hlength,
      equates_items (Value.isPlain_list.1 hv) hds fun hv hd => equates_of_ofValue ht hv hd⟩
  | .tuple fields, v, d, ht, hv, h => by
    obtain ⟨items, ds, rfl, hlength, hds, rfl⟩ := ofValue_tuple h
    exact fieldsEquate_of_ofFields ht hlength (Value.isPlain_list.1 hv) hds

theorem fieldsEquate_of_ofFields : ∀ {ts : List AbiType} {vs : List Value} {ds : List AbiValue},
    AbiType.isInvertible.allInvertible ts = true → vs.length = ts.length →
    (∀ v ∈ vs, v.isPlain = true) → ofFields ts vs = .ok ds →
    AbiType.FieldsEquate ts vs (AbiValue.toValues ds)
  | [], [], ds, _, _, _, h => by
    obtain rfl := Except.ok.inj h
    trivial
  | t :: ts, v :: vs, ds, hts, hlength, hvs, h => by
    obtain ⟨d, ds', hd, hds, rfl⟩ := ofFields_cons h
    obtain ⟨ht, hts⟩ := Bool.and_eq_true_iff.1 hts
    obtain ⟨hv, hvs⟩ := List.forall_mem_cons.1 hvs
    exact ⟨equates_of_ofValue ht hv hd, fieldsEquate_of_ofFields hts (Nat.succ.inj hlength) hvs hds⟩

end

end Abi

/-- For a type without functions the two conversions are inverse to each other: its well-formed values
are given back, and every converted value comes back as one that stands for the same, a number being an
integer of 128 bits. -/
theorem conversions_inverse {t : AbiType} (ht : t.isInvertible = true) :
    (∀ d, t.Admits d → Abi.ofValue t d.toValue = .ok d) ∧
    (∀ v d, v.isPlain = true → Abi.ofValue t v = .ok d → t.Equates v d.toValue) ∧
    ∀ d i, AbiValue.toValue d = .int i ↔ d.Carries i ∧ -(2 ^ 127) ≤ i ∧ i < 2 ^ 127 :=
  ⟨fun _ hd => Abi.ofValue_toValue ht hd, fun _ _ hv h => Abi.equates_of_ofValue ht hv h,
    fun _ _ => AbiValue.toValue_eq_int⟩

def orderType : AbiType :=
  .tuple [.uint 256, .array .address, .fixedBytes 4]

def orderArgument : Value :=
  .list [.bigInt "0340282366920938463463374607431768211456",
    .list [.str "0Xaaaaaaaaaaaaaaaaaaaaaaaaaaaaaaaaaaaaaaaa"], .bytes [1, 2]]

def orderValue : AbiValue :=
  .tuple [.uint (2 ^ 128) 256, .array [.address (List.replicate 20 0xaa)],
    .fixedBytes (Abi.padRight 32 [1, 2, 0, 0]) 4]

theorem orderValue_has : orderType.Has orderValue := by
  have haddress : AbiType.address.Has (.address (List.replicate 20 0xaa)) := .address rfl
  have hmark : (AbiType.fixedBytes 4).Has (.fixedBytes (Abi.padRight 32 [1, 2, 0, 0]) 4) :=
    @AbiType.Has.fixedBytes [1, 2, 0, 0] (by decide)
  exact .tuple (.cons (.uint (by decide) (by decide)) (.cons (.array (by decide)
    (by simpa using haddress)) (.cons hmark .nil)))

/-- The amount comes back without its leading zero, the maker with a checksum, the mark filled up. -/
theorem conversions_inverse_order :
    Abi.ofValue orderType orderValue.toValue = .ok orderValue ∧
      orderType.Equates orderArgument orderValue.toValue ∧
      (AbiValue.uint (2 ^ 127 - 1) 256).toValue = .int (2 ^ 127 - 1) := by
  have h := conversions_inverse (t := orderType) (by decide)
  refine ⟨h.1 orderValue orderValue_has.admits, h.2.1 orderArgument orderValue (by decide) rfl, ?_⟩
  exact (h.2.2 _ _).2 ⟨.uint (by decide), by decide, by decide⟩

end ChainQuery
