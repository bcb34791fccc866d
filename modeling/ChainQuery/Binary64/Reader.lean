import ChainQuery.Binary64.Basic
import ChainQuery.Text.Digits

/-!
# Reading a double

An optional sign, then `inf`, `infinity` or `nan` in any case, or digits with an optional point
among, before or after them and an optional exponent. The result is the double nearest to the
decimal that is written.
-/

namespace ChainQuery.Binary64

def spanDigits (cs : List Char) : List Char × List Char :=
  (cs.takeWhile Char.isDigit, cs.dropWhile Char.isDigit)

def digitsNat (ds : List Char) : Nat :=
  Text.ofDigits 10 (ds.map fun c => c.toNat - '0'.toNat)

def readExponent? : List Char → Option Int
  | [] => some 0
  | c :: cs =>
    if c = 'e' ∨ c = 'E' then
      match cs with
      | '-' :: ds => (run? ds).map fun n => -Int.ofNat n
      | '+' :: ds => (run? ds).map Int.ofNat
      | ds => (run? ds).map Int.ofNat
    else none
where
  run? (ds : List Char) : Option Nat :=
    if ds.isEmpty || !ds.all Char.isDigit then none else some (digitsNat ds)

def readDecimal? (negative : Bool) (cs : List Char) : Option Binary64 :=
  let whole := spanDigits cs
  let part : List Char × List Char :=
    match whole.2 with
    | '.' :: rest => spanDigits rest
    | rest => ([], rest)
  if whole.1.isEmpty && part.1.isEmpty then none
  else (readExponent? part.2).map fun e =>
    ofDecimal negative (digitsNat (whole.1 ++ part.1)) (e - Int.ofNat part.1.length)

def readUnsigned? (negative : Bool) (cs : List Char) : Option Binary64 :=
  let folded := cs.map Char.toLower
  if folded = ['i', 'n', 'f'] ∨ folded = ['i', 'n', 'f', 'i', 'n', 'i', 't', 'y'] then
    some (infinite negative)
  else if folded = ['n', 'a', 'n'] then some nan
  else readDecimal? negative cs

/-- Reads a number, an infinity or `nan`, after one optional sign. -/
def read? (s : String) : Option Binary64 :=
  match s.toList with
  | '-' :: cs => readUnsigned? true cs
  | '+' :: cs => readUnsigned? false cs
  | cs => readUnsigned? false cs

end ChainQuery.Binary64
