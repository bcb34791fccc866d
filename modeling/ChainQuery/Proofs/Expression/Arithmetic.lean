import ChainQuery.Expression.Builtin
import ChainQuery.Proofs.Value.Integers

/-!
# Exact arithmetic

The arithmetic methods compute with integers in either form that values hold them in. What they give
is the exact result if it has 256 bits with its sign, in the form that it would be decoded in, and it
can be an argument again; any other result is refused.
-/

namespace ChainQuery

namespace Builtin

/-- The exact result of an arithmetic method, a quotient being cut off towards zero. -/
inductive Computes : Builtin → Int → Int → Int → Prop
  | add {m n : Int} : Computes .add m n (m + n)
  | subtract {m n : Int} : Computes .subtract m n (m - n)
  | multiply {m n : Int} : Computes .multiply m n (m * n)
  | divide {m n : Int} : n ≠ 0 → Computes .divide m n (m.tdiv n)

variable {f : Builtin} {a b : Value} {m n r : Int}

theorem arithmetic_pair (f : Builtin) (a b : Value) (op : Int → Int → Int) :
    f.arithmetic [a, b] op = (do
      let x ← a.toInt256
      let y ← b.toInt256
      if fits256 (op x y) then return Value.ofInt (op x y)
      else throw (ExecutionError.method f.name (.overflow x y))) :=
  rfl

theorem apply_divide_pair (a b : Value) :
    divide.apply [a, b] = (do
      let divisor ← b.toInt256
      if divisor = 0 then throw (ExecutionError.method divide.name .divisionByZero)
      else divide.arithmetic [a, b] Int.tdiv) :=
  rfl

theorem arithmetic_eq (f : Builtin) (op : Int → Int → Int) (ha : a.toInt256 = .ok m)
    (hb : b.toInt256 = .ok n) :
    f.arithmetic [a, b] op = if fits256 (op m n) then .ok (Value.ofInt (op m n))
      else .error (.method f.name (.overflow m n)) := by
  rw [arithmetic_pair, ha, hb]
  rfl

theorem apply_divide (a : Value) (hb : b.toInt256 = .ok n) :
    divide.apply [a, b] = if n = 0 then .error (.method divide.name .divisionByZero)
      else divide.arithmetic [a, b] Int.tdiv := by
  rw [apply_divide_pair, hb]
  rfl

/-- A result is refused exactly if it leaves the word. -/
theorem apply_of_computes (h : Computes f m n r) (ha : a.toInt256 = .ok m)
    (hb : b.toInt256 = .ok n) :
    f.apply [a, b] = if fits256 r then .ok (Value.ofInt r)
      else .error (.method f.name (.overflow m n)) := by
  cases h with
  | add | subtract | multiply => exact arithmetic_eq _ _ ha hb
  | divide hn =>
    rw [apply_divide a hb, if_neg hn]
    exact arithmetic_eq _ _ ha hb

theorem resolve_of_computes (h : Computes f m n r) (ha : a.type = .int) (hb : b.type = .int) :
    resolve f.name [a.type, b.type] = .ok f := by
  rw [ha, hb]
  cases h <;> rfl

/-- A quotient leaves the word in one case only. -/
theorem fits256_tdiv_iff (hm : fits256 m) (hn : n ≠ 0) :
    fits256 (m.tdiv n) ↔ ¬ (m = -(2 ^ 255) ∧ n = -1) := by
  have hm := fits256_iff.1 hm
  rw [fits256_iff]
  by_cases hone : n.natAbs = 1
  · obtain rfl | rfl : n = 1 ∨ n = -1 := by omega
    · rw [Int.tdiv_one]
      omega
    · rw [Int.tdiv_neg, Int.tdiv_one]
      omega
  · have hhalf : (m.tdiv n).natAbs ≤ m.natAbs / 2 := by
      rw [Int.natAbs_tdiv]
      exact Nat.div_le_div_left (by omega) (by decide)
    omega

end Builtin

open Builtin in
/-- Arithmetic with held integers of 256 bits is exact. A result of 256 bits is given, and in the
form of its own, and any other result is refused; a division fails only for a divisor of zero and for
the smallest integer divided by minus one. -/
theorem arithmetic_exact {a b : Value} {m n : Int} (ha : a.Holds m)
    (hm : -(2 ^ 255) ≤ m ∧ m < 2 ^ 255) (hb : b.Holds n) (hn : -(2 ^ 255) ≤ n ∧ n < 2 ^ 255) :
    (∀ (f : Builtin) (r : Int), Computes f m n r →
      resolve f.name [a.type, b.type] = .ok f ∧
      (-(2 ^ 255) ≤ r ∧ r < 2 ^ 255 → ∃ v, f.apply [a, b] = .ok v ∧ v.Holds r ∧
        v = if -(2 ^ 127) ≤ r ∧ r < 2 ^ 127 then .int r else .bigInt (Text.signedDecimal r)) ∧
      (¬ (-(2 ^ 255) ≤ r ∧ r < 2 ^ 255) →
        f.apply [a, b] = .error (.method f.name (.overflow m n)))) ∧
    (n = 0 → divide.apply [a, b] = .error (.method "divide" .divisionByZero)) ∧
    ((∃ v, divide.apply [a, b] = .ok v) ↔ n ≠ 0 ∧ ¬ (m = -(2 ^ 255) ∧ n = -1)) := by
  have hma := ha.toInt256_eq hm
  have hnb := hb.toInt256_eq hn
  refine ⟨fun f r h => ⟨resolve_of_computes h ha.type_eq hb.type_eq, fun hr => ?_, fun hr => ?_⟩,
    fun hzero => ?_, ?_⟩
  · refine ⟨Value.ofInt r, ?_, Value.holds_ofInt r, Value.ofInt_eq r⟩
    rw [apply_of_computes h hma hnb, if_pos (fits256_iff.2 hr)]
  · rw [apply_of_computes h hma hnb, if_neg (mt fits256_iff.1 hr)]
  · rw [apply_divide a hnb, if_pos hzero]
    rfl
  · rw [apply_divide a hnb]
    by_cases hzero : n = 0
    · simp [hzero]
    · rw [if_neg hzero, arithmetic_eq divide Int.tdiv hma hnb,
        ← fits256_tdiv_iff (fits256_iff.2 hm) hzero]
      split
      · next hfits => exact ⟨fun _ => ⟨hzero, hfits⟩, fun _ => ⟨_, rfl⟩⟩
      · next hfits => exact ⟨fun ⟨_, hv⟩ => (nomatch hv), fun h => absurd h.2 hfits⟩

/-- The largest number of 128 bits doubled, and the one quotient that leaves the word. -/
theorem arithmetic_exact_edges :
    (∃ v, Builtin.multiply.apply [.int (2 ^ 127 - 1), .bigInt "+002"] = .ok v ∧
      v.Holds (2 ^ 128 - 2) ∧ v = .bigInt "340282366920938463463374607431768211454") ∧
    Builtin.divide.apply [.bigInt
      "-57896044618658097711785492504343953926634992332820282019728792003956564819968", .int (-1)] =
      .error (.method "divide" (.overflow (-(2 ^ 255)) (-1))) := by
  have hwide : (Value.int (2 ^ 127 - 1)).Holds (2 ^ 127 - 1) := .int
  have htwo : (Value.bigInt "+002").Holds 2 := .bigInt (by decide)
  have hleast : (Value.bigInt
      "-57896044618658097711785492504343953926634992332820282019728792003956564819968").Holds
      (-(2 ^ 255)) := .bigInt (by decide +kernel)
  have htext : Text.signedDecimal (2 ^ 128 - 2) = "340282366920938463463374607431768211454" := by
    decide +kernel
  constructor
  · rw [← htext]
    exact ((arithmetic_exact hwide (by decide) htwo (by decide)).1 .multiply (2 ^ 128 - 2)
      .multiply).2.1 (by decide)
  · exact ((arithmetic_exact hleast (by decide) .int (by decide)).1 .divide (2 ^ 255)
      (.divide (by decide))).2.2 (by decide)

end ChainQuery
