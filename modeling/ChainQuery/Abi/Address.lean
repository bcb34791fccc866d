import ChainQuery.Keccak
import ChainQuery.Text.Hex
import ChainQuery.Text.Utf8

/-!
# The spelling of addresses

An address is written with a checksum in the case of its letters: a letter is a capital when the
digit at its place in the hash of the small spelling is at least eight. Reading ignores the case, also
in the mark `0x`, which may be missing.
-/

namespace ChainQuery.Abi

def halfBytes (bytes : List UInt8) : List Nat :=
  bytes.flatMap fun b => [b.toNat / 16, b.toNat % 16]

/-- The text of an address. A letter is a capital where the hash of the small text has a digit of at
least eight. -/
def checksumText (bytes : List UInt8) : String :=
  let small := Text.hexChars bytes
  let hash := halfBytes (keccak256 (Text.utf8 (String.ofList small)))
  String.ofList <|
    '0' :: 'x' :: (small.zip hash).map fun (c, n) => if 8 ≤ n then c.toUpper else c

/-- The characters after a leading `0x` or `0X`, or all of them. -/
def dropAddressMark : List Char → List Char
  | '0' :: 'x' :: cs => cs
  | '0' :: 'X' :: cs => cs
  | cs => cs

/-- The twenty bytes that a text writes, with a mark or without one. -/
def readAddress? (s : String) : Option (List UInt8) :=
  (Text.readHex? (dropAddressMark s.toList)).filter fun bytes => bytes.length == 20

end ChainQuery.Abi
