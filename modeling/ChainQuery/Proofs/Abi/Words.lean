import ChainQuery.Abi.Decode
import ChainQuery.Abi.Encode
import ChainQuery.Proofs.Value.Integers

/-!
# Well-typed values and their words

What it is for a value of the contract interface to be of a type. A value that is no reference is encoded
as one word, and the value is decoded from that word.
-/

namespace ChainQuery

mutual

/-- The values of a type: integers in the range of their width, byte strings of the size of their type,
filled up with zeros where they stand in a word, and lists with as many members as a length of 64 bits
can count. -/
inductive AbiType.Has : AbiType → AbiValue → Prop
  | bool {b : Bool} : Has .bool (.bool b)
  | int {i : Int} {bits : Nat} : bits ≤ 256 → -(2 ^ (bits - 1)) ≤ i → i < 2 ^ (bits - 1) →
    Has (.int bits) (.int i bits)
  | uint {n bits : Nat} : bits ≤ 256 → n < 2 ^ bits → Has (.uint bits) (.uint n bits)
  | fixedBytes {data : List UInt8} : data.length ≤ 32 →
    Has (.fixedBytes data.length) (.fixedBytes (Abi.padRight 32 data) data.length)
  | address {raw : List UInt8} : raw.length = 20 → Has .address (.address raw)
  | function {raw : List UInt8} : raw.length = 24 → Has .function (.function raw)
  | bytes {data : List UInt8} : Has .bytes (.bytes data)
  | string {s : String} : Has .string (.string s)
  | array {element : AbiType} {items : List AbiValue} : items.length < 2 ^ 64 →
    (∀ v ∈ items, Has element v) → Has (.array element) (.array items)
  | fixedArray {element : AbiType} {items : List AbiValue} : items ≠ [] →
    (∀ v ∈ items, Has element v) → Has (.fixedArray element items.length) (.fixedArray items)
  | tuple {fields : List AbiType} {vs : List AbiValue} : AllHave fields vs →
    Has (.tuple fields) (.tuple vs)

inductive AbiType.AllHave : List AbiType → List AbiValue → Prop
  | nil : AllHave [] []
  | cons {t : AbiType} {v : AbiValue} {ts : List AbiType} {vs : List AbiValue} : Has t v →
    AllHave ts vs → AllHave (t :: ts) (v :: vs)

end

namespace Abi

theorem bigEndian_append_singleton (bytes : List UInt8) (b : UInt8) :
    bigEndian (bytes ++ [b]) = bigEndian bytes * 256 + b.toNat := by
  rw [bigEndian, List.foldl_append]
  rfl

theorem bigEndian_bytesOf (size n : Nat) : bigEndian (bytesOf size n) = n % 256 ^ size := by
  induction size generalizing n with
  | zero => simp [bytesOf, bigEndian, Nat.mod_one]
  | succ size ih =>
    have hb : (UInt8.ofNat (n % 256)).toNat = n % 256 := by simp
    rw [bytesOf, bigEndian_append_singleton, ih, hb, Nat.pow_succ', Nat.mod_mul]
    omega

theorem drop_bytesOf (front size n : Nat) : (bytesOf (front + size) n).drop front = bytesOf size n := by
  induction size generalizing n with
  | zero =>
    rw [List.drop_eq_nil_of_le (by simp [length_bytesOf])]
    rfl
  | succ size ih =>
    rw [← Nat.add_assoc, bytesOf, List.drop_append_of_le_length (by simp [length_bytesOf]), ih]
    rfl

theorem length_word (n : Nat) : (word n).length = 32 :=
  length_bytesOf 32 n

theorem bigEndian_word {n : Nat} (h : n < 2 ^ 256) : bigEndian (word n) = n := by
  rw [word, bigEndian_bytesOf]
  exact Nat.mod_eq_of_lt h

theorem bigEndian_drop_word {n : Nat} (h : n < 2 ^ 64) : bigEndian ((word n).drop 24) = n := by
  rw [word, drop_bytesOf 24 8, bigEndian_bytesOf]
  exact Nat.mod_eq_of_lt h

theorem signed_signedWord {i : Int} (h : -(2 ^ 255) ≤ i ∧ i < 2 ^ 255) :
    signed (bigEndian (signedWord i)) = i := by
  have hmod : (0 : Int) ≤ i % 2 ^ 256 ∧ i % 2 ^ 256 < 2 ^ 256 := by omega
  have hsize : Int.ofNat (Nat.pow 2 256) = 2 ^ 256 := by simp
  have hword : bigEndian (signedWord i) = (i % 2 ^ 256).toNat := by
    rw [signedWord, hsize, bigEndian_word (by omega)]
  simp only [signed, hword, Nat.pow_eq, Int.ofNat_eq_natCast]
  split <;> omega

theorem length_padRight {size : Nat} {bytes : List UInt8} (h : bytes.length ≤ size) :
    (padRight size bytes).length = size := by
  rw [padRight, List.length_append, List.length_replicate]
  omega

theorem padRight_self (data : List UInt8) : padRight data.length data = data := by
  simp [padRight]

/-- The bytes of a word that count are those that it is made of, filled up to their size. -/
theorem take_padRight {data : List UInt8} {size : Nat} (hdata : data.length ≤ size)
    (hsize : size ≤ 32) : (padRight 32 data).take (min size 32) = padRight size data := by
  have hfill : min (size - data.length) (32 - data.length) = size - data.length := by omega
  rw [Nat.min_eq_left hsize, padRight, padRight, List.take_append, List.take_of_length_le hdata,
    List.take_replicate, hfill]

theorem length_padLeft {size : Nat} {bytes : List UInt8} (h : bytes.length ≤ size) :
    (padLeft size bytes).length = size := by
  rw [padLeft, List.length_append, List.length_replicate]
  omega

theorem length_encode_word {t : AbiType} {v : AbiValue} (h : t.Has v)
    (ht : t.isReference = false) : (encode v).length = 32 := by
  cases h with
  | bool | int | uint => exact length_word _
  | fixedBytes hdata => exact length_padRight hdata
  | address hraw => exact length_padLeft (by omega)
  | function hraw => exact length_padRight (by omega)
  | _ => cases ht

theorem ofWord?_encode {t : AbiType} {v : AbiValue} (h : t.Has v) (ht : t.isReference = false) :
    ofWord? t (encode v) = some v := by
  cases h with
  | @bool b =>
    rw [encode, ofWord?, bigEndian_word (by cases b <;> decide)]
    cases b <;> rfl
  | int hbits hlow hhigh =>
    obtain ⟨hfits⟩ := AbiValue.carries_int hbits ⟨hlow, hhigh⟩
    rw [encode, ofWord?, signed_signedWord (fits256_iff.1 hfits)]
  | uint hbits hn =>
    have hword := Nat.lt_of_lt_of_le hn (Nat.pow_le_pow_right (by decide) hbits)
    rw [encode, ofWord?, bigEndian_word hword]
  | fixedBytes hdata => rfl
  | address hraw =>
    rw [encode, ofWord?, padLeft, hraw]
    rfl
  | function hraw =>
    rw [encode, ofWord?, padRight, List.take_append_of_le_length (by omega),
      List.take_of_length_le (by omega)]
  | _ => cases ht

end Abi

end ChainQuery
