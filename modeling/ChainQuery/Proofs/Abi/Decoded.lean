import ChainQuery.Abi.Event
import ChainQuery.Program.ContractRead
import ChainQuery.Proofs.Abi.Keywords
import ChainQuery.Proofs.Value.Types
import Mathlib.Data.List.Forall2

/-!
# What decoding gives

Whatever the data, a value that is decoded for a type is one that the declared type of a parameter of
that type accepts. A matching log entry gives such a value for each of its parameters, or fails
because of a topic or of the data. One kind of event fails otherwise: if the types of its data hold no
data at all, the data are decoded to no values, and one is missing for the first parameter.
-/

namespace ChainQuery

namespace AbiType

theorem accepts_any_of_declared {t : AbiType} (h : t.keywordType? = none) (u : ValueType) :
    t.declared.accepts u = true := by
  rw [declared, h]
  rfl

theorem accepts_list {element t : AbiType} {vs : List AbiValue}
    (ht : t.keywordType? = element.keywordType?.map .list)
    (h : ∀ v ∈ vs, element.declared.accepts v.toValue.type = true) :
    t.declared.accepts (Value.list (AbiValue.toValues vs)).type = true := by
  cases helement : element.keywordType? with
  | none => exact accepts_any_of_declared (by rw [ht, helement]; rfl) _
  | some k =>
    rw [declared, ht, helement]
    cases vs with
    | nil => exact k.accepts_any
    | cons v vs =>
      have hv := h v List.mem_cons_self
      rwa [declared, helement] at hv

end AbiType

namespace Abi

variable {depth pos next count : Nat} {frame data : List UInt8} {v : AbiValue}
  {vs : List AbiValue} {t : AbiType} {ts : List AbiType}

theorem decodeAt?_word (ht : t.isReference = false) :
    decodeAt? depth frame pos t =
      (wordAt? frame pos).bind fun w => (ofWord? t w).map fun v => (v, pos + 32) := by
  rw [decodeAt?]
  -- the equation is that of the types for which the earlier cases do not hold
  all_goals
    intros
    subst t
    cases ht

theorem accepts_of_ofWord? {w : List UInt8} (h : ofWord? t w = some v) :
    t.declared.accepts v.toValue.type = true := by
  cases t with
  | int bits | uint bits =>
    obtain rfl := Option.some.inj h
    rw [AbiValue.toValue, Value.type_ofInt]
    rfl
  | bool | fixedBytes | address | function =>
    obtain rfl := Option.some.inj h
    rfl
  | _ => cases h

theorem forall_of_decodeItems? {P : AbiValue → Prop}
    (hP : ∀ {pos v next}, decodeAt? depth frame pos t = some (v, next) → P v)
    (h : decodeItems? depth frame pos t count = some (vs, next)) : ∀ v ∈ vs, P v := by
  induction count generalizing pos vs next with
  | zero =>
    rw [decodeItems?] at h
    cases h
    simp
  | succ count ih =>
    rw [decodeItems?] at h
    split at h
    · cases h
    · next v after hv =>
      obtain ⟨⟨vs', last⟩, hvs, heq⟩ := Option.map_eq_some_iff.1 h
      cases heq
      exact List.forall_mem_cons.2 ⟨hP hv, ih hvs⟩

theorem forall₂_of_decodeFields? {P : AbiType → AbiValue → Prop}
    (hP : ∀ {t pos v next}, decodeAt? depth frame pos t = some (v, next) → P t v)
    (h : decodeFields? depth frame pos ts = some (vs, next)) : List.Forall₂ P ts vs := by
  induction ts generalizing pos vs next with
  | nil =>
    rw [decodeFields?] at h
    cases h
    exact .nil
  | cons t ts ih =>
    rw [decodeFields?] at h
    split at h
    · cases h
    · next v after hv =>
      obtain ⟨⟨vs', last⟩, hvs, heq⟩ := Option.map_eq_some_iff.1 h
      cases heq
      exact .cons (hP hv) (ih hvs)

theorem accepts_of_decodeAt? : ∀ {t : AbiType} {depth pos next : Nat} {frame : List UInt8}
    {v : AbiValue}, decodeAt? depth frame pos t = some (v, next) →
    t.declared.accepts v.toValue.type = true
  | .bytes, _, _, _, _, _, h | .string, _, _, _, _, _, h => by
    rw [decodeAt?] at h
    obtain ⟨data, -, heq⟩ := Option.map_eq_some_iff.1 h
    cases heq
    rfl
  | .array element, _, _, _, _, _, h => by
    rw [decodeAt?] at h
    split at h
    · cases h
    · split at h
      · cases h
      · split at h
        · cases h
          exact AbiType.accepts_list rfl (by simp)
        · split at h
          · cases h
          · split at h
            · cases h
            · split at h
              · next hitems =>
                cases h
                exact AbiType.accepts_list rfl (forall_of_decodeItems? accepts_of_decodeAt? hitems)
              · cases h
  | .fixedArray element length, _, _, _, _, _, h => by
    rw [decodeAt?] at h
    split at h
    · split at h
      · cases h
      · split at h
        · next hitems =>
          cases h
          exact AbiType.accepts_list rfl (forall_of_decodeItems? accepts_of_decodeAt? hitems)
        · cases h
    · split at h
      · split at h
        · next hitems =>
          cases h
          exact AbiType.accepts_list rfl (forall_of_decodeItems? accepts_of_decodeAt? hitems)
        · cases h
      · cases h
  | .tuple fields, _, _, _, _, _, _ => AbiType.accepts_any_of_declared rfl _
  | .bool, _, _, _, _, _, h | .int _, _, _, _, _, _, h | .uint _, _, _, _, _, _, h
  | .fixedBytes _, _, _, _, _, _, h | .address, _, _, _, _, _, h
  | .function, _, _, _, _, _, h => by
    rw [decodeAt?_word rfl] at h
    obtain ⟨w, -, h⟩ := Option.bind_eq_some_iff.1 h
    obtain ⟨d, hd, heq⟩ := Option.map_eq_some_iff.1 h
    cases heq
    exact accepts_of_ofWord? hd

theorem decode?_word (ht : t.isReference = false) :
    decode? t data = (decodeAt? 0 data 0 t).map (·.1) := by
  have hollow : hollowValue? t = none := by
    cases t <;> first | rfl | cases ht
  rw [decode?, hollow, Option.none_or]

theorem accepts_of_decode? (ht : t.isReference = false) (h : decode? t data = some v) :
    t.declared.accepts v.toValue.type = true := by
  rw [decode?_word ht] at h
  obtain ⟨⟨v', next⟩, hv, rfl⟩ := Option.map_eq_some_iff.1 h
  exact accepts_of_decodeAt? hv

/-- Data are decoded to one value for each type, or to none if the types hold no data. -/
theorem forall₂_of_decodeAll? (h : decodeAll? ts data = some vs) :
    ts.all AbiType.isHollow = true ∧ vs = [] ∨
      ts.all AbiType.isHollow = false ∧
        List.Forall₂ (fun t v => t.declared.accepts v.toValue.type = true) ts vs := by
  rw [decodeAll?] at h
  split at h
  · next hollow => exact .inl ⟨hollow, (Option.some.inj h).symm⟩
  · next hollow =>
    obtain ⟨⟨vs', next⟩, hvs, rfl⟩ := Option.map_eq_some_iff.1 h
    exact .inr ⟨by simpa using hollow, forall₂_of_decodeFields? accepts_of_decodeAt? hvs⟩

end Abi

end ChainQuery
