/-!
# Text from bytes that may not be UTF-8

Byte strings decoded from contract data are read as UTF-8. Where the bytes are not valid, each
longest run that starts like a character and goes wrong is replaced by one U+FFFD.
-/

namespace ChainQuery.Text

/-- The character that stands for bytes which are no text. -/
def replacement : Char := '\uFFFD'

def isContinuation (b : UInt8) : Bool :=
  0x80 ≤ b && b ≤ 0xBF

/-- The second bytes that may follow the first byte of a character of three bytes. -/
def continuesThree (first second : UInt8) : Bool :=
  if first == 0xE0 then 0xA0 ≤ second && second ≤ 0xBF
  else if first == 0xED then 0x80 ≤ second && second ≤ 0x9F
  else isContinuation second

/-- The second bytes that may follow the first byte of a character of four bytes. -/
def continuesFour (first second : UInt8) : Bool :=
  if first == 0xF0 then 0x90 ≤ second && second ≤ 0xBF
  else if first == 0xF4 then 0x80 ≤ second && second ≤ 0x8F
  else isContinuation second

def assemble (payload : Nat) (rest : List UInt8) : Char :=
  Char.ofNat (rest.foldl (fun n b => n * 64 + b.toNat % 64) payload)

def decodeUtf8 : List UInt8 → List Char
  | [] => []
  | b :: bs =>
    if b < 0x80 then Char.ofNat b.toNat :: decodeUtf8 bs
    else if 0xC2 ≤ b && b ≤ 0xDF then
      match bs with
      | [] => [replacement]
      | c :: cs =>
        if isContinuation c then assemble (b.toNat % 32) [c] :: decodeUtf8 cs
        else replacement :: decodeUtf8 (c :: cs)
    else if 0xE0 ≤ b && b ≤ 0xEF then
      match bs with
      | [] => [replacement]
      | c :: cs =>
        if continuesThree b c then
          match cs with
          | [] => [replacement]
          | d :: ds =>
            if isContinuation d then assemble (b.toNat % 16) [c, d] :: decodeUtf8 ds
            else replacement :: decodeUtf8 (d :: ds)
        else replacement :: decodeUtf8 (c :: cs)
    else if 0xF0 ≤ b && b ≤ 0xF4 then
      match bs with
      | [] => [replacement]
      | c :: cs =>
        if continuesFour b c then
          match cs with
          | [] => [replacement]
          | d :: ds =>
            if isContinuation d then
              match ds with
              | [] => [replacement]
              | e :: es =>
                if isContinuation e then assemble (b.toNat % 8) [c, d, e] :: decodeUtf8 es
                else replacement :: decodeUtf8 (e :: es)
            else replacement :: decodeUtf8 (d :: ds)
        else replacement :: decodeUtf8 (c :: cs)
    else replacement :: decodeUtf8 bs

def utf8 (s : String) : List UInt8 :=
  s.toUTF8.toList

def ofUtf8 (bytes : List UInt8) : String :=
  String.ofList (decodeUtf8 bytes)

end ChainQuery.Text
