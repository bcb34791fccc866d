/-!
# Keccak-256

The hash that names events and functions: the Keccak sponge with a rate of 136 bytes and the
padding that appends the bit 1 alone. A state is 25 words, the word of column `x` and row `y` at
index `5 * y + x`, and bytes enter a word from its low end.
-/

namespace ChainQuery.Keccak

abbrev State := Vector UInt64 25

def rotate (w : UInt64) (n : Nat) : UInt64 :=
  (w <<< UInt64.ofNat n) ||| (w >>> UInt64.ofNat ((64 - n) % 64))

/-- The word in a column and a row, both taken modulo five. -/
def word (s : State) (x y : Nat) : UInt64 :=
  s.get ⟨5 * (y % 5) + x % 5, by omega⟩

def column (s : State) (x : Nat) : UInt64 :=
  word s x 0 ^^^ word s x 1 ^^^ word s x 2 ^^^ word s x 3 ^^^ word s x 4

/-- Adds to each word the two neighbouring column sums. -/
def theta (s : State) : State :=
  let sums := Vector.ofFn fun x : Fin 5 => column s x.val
  Vector.ofFn fun i : Fin 25 =>
    s[i] ^^^ sums.get ⟨(i.val + 4) % 5, by omega⟩ ^^^ rotate (sums.get ⟨(i.val + 1) % 5, by omega⟩) 1

def turns : Vector Nat 25 :=
  #v[0, 1, 62, 28, 27, 36, 44, 6, 55, 20, 3, 10, 43, 25, 39, 41, 45, 15, 21, 8, 18, 2, 61, 56, 14]

/-- Turns every word and moves column `x`, row `y` to column `y`, row `2 * x + 3 * y`. -/
def turnAndMove (s : State) : State :=
  Vector.ofFn fun i : Fin 25 =>
    let x := (i.val % 5 + 3 * (i.val / 5)) % 5
    let y := i.val % 5
    have h : 5 * y + x < 25 := by
      have : i.val % 5 < 5 := Nat.mod_lt _ (by decide)
      have : (i.val % 5 + 3 * (i.val / 5)) % 5 < 5 := Nat.mod_lt _ (by decide)
      omega
    rotate s[5 * y + x] turns[5 * y + x]

/-- Adds to each word the product of the next but one with the complement of the next. -/
def chi (s : State) : State :=
  Vector.ofFn fun i : Fin 25 =>
    let x := i.val % 5
    let y := i.val / 5
    s[i] ^^^ ((~~~ word s (x + 1) y) &&& word s (x + 2) y)

def roundConstants : List UInt64 := [
  0x0000000000000001, 0x0000000000008082, 0x800000000000808a, 0x8000000080008000,
  0x000000000000808b, 0x0000000080000001, 0x8000000080008081, 0x8000000000008009,
  0x000000000000008a, 0x0000000000000088, 0x0000000080008009, 0x000000008000000a,
  0x000000008000808b, 0x800000000000008b, 0x8000000000008089, 0x8000000000008003,
  0x8000000000008002, 0x8000000000000080, 0x000000000000800a, 0x800000008000000a,
  0x8000000080008081, 0x8000000000008080, 0x0000000080000001, 0x8000000080008008]

def permute (s : State) : State :=
  roundConstants.foldl
    (fun s c =>
      let s := chi (turnAndMove (theta s))
      s.set 0 (s[0] ^^^ c))
    s

def rate : Nat := 136

def littleEndian (bytes : List UInt8) : UInt64 :=
  bytes.foldr (fun b n => n * 256 + b.toUInt64) 0

def absorb (s : State) (block : List UInt8) : State :=
  permute <| Vector.ofFn fun i : Fin 25 =>
    s[i] ^^^ littleEndian ((block.drop (8 * i.val)).take 8)

/-- The bytes that fill up a message to a multiple of the rate. -/
def padding (length : Nat) : List UInt8 :=
  let missing := rate - length % rate
  if missing = 1 then [0x81] else 0x01 :: List.replicate (missing - 2) 0 ++ [0x80]

def absorbBlocks (s : State) (bytes : List UInt8) : Nat → State
  | 0 => s
  | n + 1 => absorbBlocks (absorb s (bytes.take rate)) (bytes.drop rate) n

def wordBytes (w : UInt64) : List UInt8 :=
  (List.range 8).map fun i => (w >>> UInt64.ofNat (8 * i)).toUInt8

end ChainQuery.Keccak

namespace ChainQuery

/-- The Keccak-256 hash of a message: 32 bytes. -/
def keccak256 (message : List UInt8) : List UInt8 :=
  let padded := message ++ Keccak.padding message.length
  let s := Keccak.absorbBlocks (Vector.replicate 25 0) padded (padded.length / Keccak.rate)
  (s.toList.take 4).flatMap Keccak.wordBytes

end ChainQuery
