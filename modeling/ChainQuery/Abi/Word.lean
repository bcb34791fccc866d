/-!
# Words of 32 bytes

Everything in an encoding is made of words, read as numbers with the most significant byte first.
-/

namespace ChainQuery.Abi

/-- The number that bytes denote, most significant first. -/
def bigEndian (bytes : List UInt8) : Nat :=
  bytes.foldl (fun n b => n * 256 + b.toNat) 0

/-- The last `size` bytes of a number, the greatest one first. -/
def bytesOf : Nat → Nat → List UInt8
  | 0, _ => []
  | size + 1, n => bytesOf size (n / 256) ++ [UInt8.ofNat (n % 256)]

def word (n : Nat) : List UInt8 :=
  bytesOf 32 n

/-- The word of an integer in two's complement. -/
def signedWord (i : Int) : List UInt8 :=
  word (i % Int.ofNat (Nat.pow 2 256)).toNat

/-- The integer that a word stands for in two's complement. -/
def signed (n : Nat) : Int :=
  if n < Nat.pow 2 255 then Int.ofNat n else Int.ofNat n - Int.ofNat (Nat.pow 2 256)

def padRight (size : Nat) (bytes : List UInt8) : List UInt8 :=
  bytes ++ List.replicate (size - bytes.length) 0

def padLeft (size : Nat) (bytes : List UInt8) : List UInt8 :=
  List.replicate (size - bytes.length) 0 ++ bytes

theorem length_bytesOf (size n : Nat) : (bytesOf size n).length = size := by
  induction size generalizing n with
  | zero => rfl
  | succ size ih => simp [bytesOf, ih]

end ChainQuery.Abi
