import ChainQuery.Text.Digits

/-!
# Bytes as hexadecimal text

Two digits a byte. Writing uses small letters; reading takes letters of either case and nothing
but pairs of digits.
-/

namespace ChainQuery.Text

def hexPair (b : UInt8) : List Char :=
  [digitChar (b.toNat / 16), digitChar (b.toNat % 16)]

def hexChars (bytes : List UInt8) : List Char :=
  bytes.flatMap hexPair

def hex (bytes : List UInt8) : String :=
  String.ofList (hexChars bytes)

/-- Reads pairs of hexadecimal digits; an odd digit or another character is refused. -/
def readHex? : List Char → Option (List UInt8)
  | [] => some []
  | [_] => none
  | a :: b :: cs =>
    match digitBelow? 16 a, digitBelow? 16 b, readHex? cs with
    | some x, some y, some bytes => some (UInt8.ofNat (x * 16 + y) :: bytes)
    | _, _, _ => none

def dropHexMark (cs : List Char) : List Char :=
  (dropStart? ['0', 'x'] cs).getD cs

end ChainQuery.Text
