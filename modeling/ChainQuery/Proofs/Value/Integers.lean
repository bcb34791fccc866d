import ChainQuery.Abi.Convert
import ChainQuery.Abi.Decode
import ChainQuery.Expression.Predicate
import ChainQuery.Proofs.Text.Decimal
import Mathlib.Algebra.Group.Int.Defs
import Mathlib.Algebra.Group.Nat.Defs

/-!
# Integers in values

A value holds an integer as a number or as a decimal text, which may have a sign and leading zeros.
Every integer has one form of its own: a number within 128 bits and its shortest text beyond them.

A decoded integer has up to 256 bits with a sign or without one, and values are compared with 256
bits and a sign. So decoded integers compare as the numbers they carry as long as both lie below
`2 ^ 255`. Any other one can be compared with no integer: each comparison then fails, and the error
names the first operand that is too large.
-/

namespace ChainQuery

theorem fits256_iff {i : Int} : fits256 i ↔ -(2 ^ 255) ≤ i ∧ i < 2 ^ 255 := by
  simp [fits256]

theorem fits128_iff {i : Int} : fits128 i ↔ -(2 ^ 127) ≤ i ∧ i < 2 ^ 127 := by
  simp [fits128]

namespace Value

/-- The integer that a value holds; its text is an optional sign and digits. -/
inductive Holds : Value → Int → Prop
  | int {i : Int} : Holds (.int i) i
  | bigInt {s : String} {i : Int} : Text.readSigned? s.toList = some i → Holds (.bigInt s) i

theorem holds_ofInt (i : Int) : (ofInt i).Holds i := by
  unfold ofInt
  split
  · exact .int
  · exact .bigInt (Text.readSigned?_signedDecimal i)

theorem ofInt_eq (i : Int) :
    ofInt i = if -(2 ^ 127) ≤ i ∧ i < 2 ^ 127 then .int i else .bigInt (Text.signedDecimal i) := by
  unfold ofInt
  simp only [fits128_iff]

theorem ofInt_eq_int {i j : Int} : ofInt j = .int i ↔ j = i ∧ -(2 ^ 127) ≤ i ∧ i < 2 ^ 127 := by
  rw [ofInt_eq]
  constructor
  · intro h
    split at h
    · next hrange =>
      obtain rfl := int.inj h
      exact ⟨rfl, hrange⟩
    · cases h
  · rintro ⟨rfl, hrange⟩
    rw [if_pos hrange]

theorem toBlockNumber_int {i : Int} (hi : 0 ≤ i) (hbound : i < blockNumberBound) :
    (int i).toBlockNumber = .ok i.toNat := by
  rw [toBlockNumber, toInt]
  exact if_pos ⟨hi, hbound⟩

namespace Holds

variable {v : Value} {i : Int}

theorem type_eq (h : v.Holds i) : v.type = .int := by
  cases h <;> rfl

theorem toInt256_eq (h : v.Holds i) (hi : -(2 ^ 255) ≤ i ∧ i < 2 ^ 255) : v.toInt256 = .ok i := by
  cases h with
  | int => rfl
  | bigInt hs => rw [toInt256, readInt256?_of_readSigned? hs, if_pos (fits256_iff.2 hi)]

end Holds
end Value

/-- The integers that a value of the contract interface can carry: those of a word, in two's
complement or without sign. -/
inductive AbiValue.Carries : AbiValue → Int → Prop
  | int {i : Int} {bits : Nat} : fits256 i → Carries (.int i bits) i
  | uint {n bits : Nat} : n < wordBound → Carries (.uint n bits) n

theorem AbiValue.carries_int {i : Int} {bits : Nat} (hb : bits ≤ 256)
    (h : -(2 ^ (bits - 1)) ≤ i ∧ i < 2 ^ (bits - 1)) : Carries (.int i bits) i := by
  have hp : 2 ^ (bits - 1) ≤ 2 ^ 255 := Nat.pow_le_pow_right (by decide) (by omega)
  have hp : (2 : Int) ^ (bits - 1) ≤ 2 ^ 255 := by exact_mod_cast hp
  exact .int (fits256_iff.2 (by omega))

theorem AbiValue.carries_uint {n bits : Nat} (hb : bits ≤ 256) (h : n < 2 ^ bits) :
    Carries (.uint n bits) n := by
  have hp : 2 ^ bits ≤ 2 ^ 256 := Nat.pow_le_pow_right (by decide) hb
  exact .uint (Nat.lt_of_lt_of_le h hp)

namespace AbiValue.Carries

variable {v : AbiValue} {m : Int}

theorem toValue_eq (h : v.Carries m) : v.toValue = Value.ofInt m := by
  cases h <;> simp [AbiValue.toValue]

theorem bounds (h : v.Carries m) : -(2 ^ 255) ≤ m ∧ m < 2 ^ 256 := by
  cases h with
  | int h =>
    have := fits256_iff.1 h
    omega
  | uint h =>
    simp only [wordBound, Nat.pow_eq] at h
    omega

theorem fits256_iff_lt (h : v.Carries m) : fits256 m ↔ m < 2 ^ 255 := by
  rw [fits256_iff, and_iff_right h.bounds.1]

/-- With 256 bits and a sign, the value of a carried integer is that integer or nothing. -/
theorem toInt256_eq (h : v.Carries m) :
    v.toValue.toInt256 =
      if m < 2 ^ 255 then .ok m else .error (.decode (.notInteger (Text.signedDecimal m))) := by
  have hb := h.bounds
  rw [h.toValue_eq, Value.ofInt]
  split
  · rename_i hm
    have hm : m < 2 ^ 127 := by simpa [fits128] using (Bool.and_eq_true_iff.1 hm).2
    rw [if_pos (by omega), Value.toInt256]
  · simp only [Value.toInt256, readInt256?_signedDecimal, h.fits256_iff_lt]
    by_cases hm : m < 2 ^ 255
    · rw [if_pos hm, if_pos hm]
    · rw [if_neg hm, if_neg hm]

end AbiValue.Carries

namespace Value

/-- Values that hold integers are compared as the integers that both of them are read as. -/
theorem compare_ofInt (m n : Int) :
    (ofInt m).compare (ofInt n) =
      (do return Ord.compare (← (ofInt m).toInt256) (← (ofInt n).toInt256)) := by
  unfold ofInt
  split <;> split <;> rfl

theorem equals_ofInt (m n : Int) :
    (ofInt m).equals (ofInt n) =
      (do return (← (ofInt m).toInt256) == (← (ofInt n).toInt256)) := by
  unfold ofInt
  split <;> split <;> rfl

end Value

theorem compare_beq_lt (m n : Int) : (Ord.compare m n == .lt) = decide (m < n) := by
  rw [Bool.eq_iff_iff, beq_iff_eq, decide_eq_true_iff, Int.compare_eq_lt]

theorem compare_beq_gt (m n : Int) : (Ord.compare m n == .gt) = decide (n < m) := by
  rw [Bool.eq_iff_iff, beq_iff_eq, decide_eq_true_iff, Int.compare_eq_gt]

/-- The relation between integers that a comparator stands for; `member` stands for none. -/
def Comparator.relates : Comparator → Int → Int → Bool
  | equal, m, n => m = n
  | unequal, m, n => m ≠ n
  | greater, m, n => m > n
  | atLeast, m, n => m ≥ n
  | less, m, n => m < n
  | atMost, m, n => m ≤ n
  | member, _, _ => false

/-- Two values compare as two integers do, under every comparator between integers. -/
structure Value.ComparesAs (a b : Value) (m n : Int) : Prop where
  order : a.compare b = .ok (Ord.compare m n)
  equality : a.equals b = .ok (decide (m = n))
  holds : ∀ c : Comparator, c ≠ .member → c.holds a b = .ok (c.relates m n)

/-- Every comparison of two values as integers fails, and with the same error. -/
structure Value.Incomparable (a b : Value) (e : ExecutionError) : Prop where
  order : a.compare b = .error e
  equality : a.equals b = .error e
  holds : ∀ c : Comparator, c ≠ .member → c.holds a b = .error e

namespace Value

variable {a b : Value}

theorem ComparesAs.of_order {m n : Int} (ho : a.compare b = .ok (Ord.compare m n))
    (he : a.equals b = .ok (decide (m = n))) : ComparesAs a b m n where
  order := ho
  equality := he
  holds c hc := by
    have lt := compare_beq_lt m n
    have gt := compare_beq_gt m n
    cases c with
    | equal => simp [Comparator.holds, Comparator.relates, he]
    | unequal => simp [Comparator.holds, Comparator.relates, Except.map, he]
    | greater => simp [Comparator.holds, Comparator.relates, Except.map, ho, gt]
    | atLeast => simp [Comparator.holds, Comparator.relates, Except.map, ho, bne, lt, ← decide_not]
    | less => simp [Comparator.holds, Comparator.relates, Except.map, ho, lt]
    | atMost => simp [Comparator.holds, Comparator.relates, Except.map, ho, bne, gt, ← decide_not]
    | member => exact absurd rfl hc

theorem Incomparable.of_order {e : ExecutionError} (ho : a.compare b = .error e)
    (he : a.equals b = .error e) : Incomparable a b e where
  order := ho
  equality := he
  holds c hc := by
    cases c <;> first | exact absurd rfl hc | simp [Comparator.holds, ho, he, Except.map]

end Value

namespace AbiValue.Carries

variable {v w : AbiValue} {m n : Int}

theorem comparesAs (hv : v.Carries m) (hw : w.Carries n) (hm : m < 2 ^ 255) (hn : n < 2 ^ 255) :
    Value.ComparesAs v.toValue w.toValue m n := by
  have hm : (Value.ofInt m).toInt256 = .ok m := by rw [← hv.toValue_eq, hv.toInt256_eq, if_pos hm]
  have hn : (Value.ofInt n).toInt256 = .ok n := by rw [← hw.toValue_eq, hw.toInt256_eq, if_pos hn]
  rw [hv.toValue_eq, hw.toValue_eq]
  refine .of_order ?_ ?_
  · rw [Value.compare_ofInt, hm, hn]
    rfl
  · rw [Value.equals_ofInt, hm, hn]
    rfl

theorem incomparable_left (hv : v.Carries m) (hw : w.Carries n) (hm : 2 ^ 255 ≤ m) :
    Value.Incomparable v.toValue w.toValue (.decode (.notInteger (Text.signedDecimal m))) := by
  have hm : (Value.ofInt m).toInt256 = .error (.decode (.notInteger (Text.signedDecimal m))) := by
    rw [← hv.toValue_eq, hv.toInt256_eq, if_neg (by omega)]
  rw [hv.toValue_eq, hw.toValue_eq]
  refine .of_order ?_ ?_
  · rw [Value.compare_ofInt, hm]
    rfl
  · rw [Value.equals_ofInt, hm]
    rfl

theorem incomparable_right (hv : v.Carries m) (hw : w.Carries n) (hm : m < 2 ^ 255)
    (hn : 2 ^ 255 ≤ n) :
    Value.Incomparable v.toValue w.toValue (.decode (.notInteger (Text.signedDecimal n))) := by
  have hm : (Value.ofInt m).toInt256 = .ok m := by rw [← hv.toValue_eq, hv.toInt256_eq, if_pos hm]
  have hn : (Value.ofInt n).toInt256 = .error (.decode (.notInteger (Text.signedDecimal n))) := by
    rw [← hw.toValue_eq, hw.toInt256_eq, if_neg (by omega)]
  rw [hv.toValue_eq, hw.toValue_eq]
  refine .of_order ?_ ?_
  · rw [Value.compare_ofInt, hm, hn]
    rfl
  · rw [Value.equals_ofInt, hm, hn]
    rfl

end AbiValue.Carries

/-- Decoded integers compare as the numbers they carry exactly when both are below `2 ^ 255`. With
any other one every comparison fails, and the error names the first operand that is too large. -/
theorem decoded_integers_compare {v w : AbiValue} {m n : Int} (hv : v.Carries m)
    (hw : w.Carries n) :
    (Value.ComparesAs v.toValue w.toValue m n ↔ m < 2 ^ 255 ∧ n < 2 ^ 255) ∧
    (2 ^ 255 ≤ m →
      Value.Incomparable v.toValue w.toValue (.decode (.notInteger (Text.signedDecimal m)))) ∧
    (m < 2 ^ 255 → 2 ^ 255 ≤ n →
      Value.Incomparable v.toValue w.toValue (.decode (.notInteger (Text.signedDecimal n)))) := by
  refine ⟨⟨fun h => ?_, fun h => hv.comparesAs hw h.1 h.2⟩, hv.incomparable_left hw,
    hv.incomparable_right hw⟩
  have faithful {e} : ¬ Value.Incomparable v.toValue w.toValue e := fun he => by
    have := h.order.symm.trans he.order
    contradiction
  by_cases hm : m < 2 ^ 255
  · refine ⟨hm, Int.not_le.1 fun hn => faithful (hv.incomparable_right hw hm hn)⟩
  · exact absurd (hv.incomparable_left hw (Int.not_lt.1 hm)) faithful

/-- The largest and the smallest integer that can be compared, in the two forms that values have. -/
theorem decoded_integers_compare_extremes :
    (AbiValue.uint (2 ^ 255 - 1) 256).Carries (2 ^ 255 - 1) ∧
    (AbiValue.int (-(2 ^ 255)) 256).Carries (-(2 ^ 255)) ∧
    Value.ComparesAs (AbiValue.uint (2 ^ 255 - 1) 256).toValue
      (AbiValue.int (-(2 ^ 255)) 256).toValue (2 ^ 255 - 1) (-(2 ^ 255)) :=
  have hv := AbiValue.carries_uint (Nat.le_refl 256) (n := 2 ^ 255 - 1) (by decide)
  have hw := AbiValue.carries_int (Nat.le_refl 256) (i := -(2 ^ 255)) (by decide)
  ⟨hv, hw, (decoded_integers_compare hv hw).1.2 (by decide)⟩

/-- The unsigned integer `2 ^ 255`, which 256 bits can carry, compares with no integer. -/
theorem unsigned_compare_fails :
    ¬ ∀ (v w : AbiValue) (m n : Int), v.Carries m → w.Carries n →
      Value.ComparesAs v.toValue w.toValue m n := by
  intro h
  have hv : (AbiValue.uint (2 ^ 255) 256).Carries (2 ^ 255) :=
    AbiValue.carries_uint (Nat.le_refl 256) (by decide)
  have hw : (AbiValue.uint 1 256).Carries 1 := AbiValue.carries_uint (Nat.le_refl 256) (by decide)
  have := (h _ _ _ _ hv hw).order.symm.trans (hv.incomparable_left hw (Int.le_refl _)).order
  contradiction

end ChainQuery
