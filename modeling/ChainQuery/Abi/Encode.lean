import ChainQuery.Abi.Value
import ChainQuery.Abi.Word
import ChainQuery.Text.Utf8

/-!
# Encoding values

A sequence of values is encoded as heads followed by tails. The head of a static value is its
encoding; the head of a dynamic one is a word with the distance from the first head to its encoding,
which is a tail.
-/

namespace ChainQuery.Abi

/-- The encoding of one member of a sequence, and whether it goes to the tails. -/
structure Part where
  dynamic : Bool
  content : List UInt8

/-- A dynamic part has a distance as its head, any other one its whole content. -/
def Part.headLength (p : Part) : Nat :=
  if p.dynamic then 32 else p.content.length

/-- The heads of a sequence whose next tail starts at `offset`. -/
def heads (offset : Nat) : List Part → List UInt8
  | [] => []
  | p :: ps =>
    if p.dynamic then word offset ++ heads (offset + p.content.length) ps
    else p.content ++ heads offset ps

def headsLength : List Part → Nat
  | [] => 0
  | p :: ps => p.headLength + headsLength ps

def tails : List Part → List UInt8
  | [] => []
  | p :: ps => if p.dynamic then p.content ++ tails ps else tails ps

/-- The heads in order, then the contents of the dynamic parts in order. -/
def layout (ps : List Part) : List UInt8 :=
  heads (headsLength ps) ps ++ tails ps

/-- The encoding of a byte string: its length, and its bytes filled up to whole words. -/
def encodeBytes (data : List UInt8) : List UInt8 :=
  word data.length ++ padRight ((data.length + 31) / 32 * 32) data

mutual

def encode : AbiValue → List UInt8
  | .bool b => word (if b then 1 else 0)
  | .int i _ => signedWord i
  | .uint n _ => word n
  | .fixedBytes w _ => w
  | .address bytes => padLeft 32 bytes
  | .function bytes => padRight 32 bytes
  | .bytes data => encodeBytes data
  | .string s => encodeBytes (Text.utf8 s)
  | .array items => word items.length ++ layout (parts items)
  | .fixedArray items => layout (parts items)
  | .tuple fields => layout (parts fields)

def parts : List AbiValue → List Part
  | [] => []
  | v :: vs => ⟨v.isDynamic, encode v⟩ :: parts vs

end

/-- The arguments of a call, which are laid out like the fields of a tuple. -/
def encodeAll (vs : List AbiValue) : List UInt8 :=
  layout (parts vs)

end ChainQuery.Abi
