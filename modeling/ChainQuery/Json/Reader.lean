import ChainQuery.Json.Basic

/-!
# Reading JSON

A reader for whole documents. Blanks are space, tab, line feed and carriage return; strings hold no
control characters; numbers have no leading zeros. Every step takes at least one character, so the
number of characters bounds the depth of the recursion.
-/

namespace ChainQuery.Json

def isSpace (c : Char) : Bool :=
  c == ' ' || c == '\n' || c == '\t' || c == '\r'

def skipSpace (cs : List Char) : List Char :=
  cs.dropWhile isSpace

/-- A piece of a string: a character, or a number given by an escape of four digits. -/
inductive Piece where
  | char (c : Char)
  | unit (n : Nat)

/-- The characters of a string's pieces; none when a surrogate is without its partner. -/
def joinPieces : List Piece → Option (List Char)
  | [] => some []
  | .char c :: rest => (joinPieces rest).map (c :: ·)
  | .unit n :: rest =>
    if 0xD800 ≤ n ∧ n < 0xDC00 then
      match rest with
      | .unit m :: rest =>
        if 0xDC00 ≤ m ∧ m < 0xE000 then
          (joinPieces rest).map
            (Char.ofNat (0x10000 + (n - 0xD800) * 0x400 + (m - 0xDC00)) :: ·)
        else none
      | _ => none
    else if 0xDC00 ≤ n ∧ n < 0xE000 then none
    else (joinPieces rest).map (Char.ofNat n :: ·)

def escaped? (c : Char) : Option Char :=
  match c with
  | '"' => some '"'
  | '\\' => some '\\'
  | '/' => some '/'
  | 'b' => some '\x08'
  | 'f' => some '\x0c'
  | 'n' => some '\n'
  | 'r' => some '\r'
  | 't' => some '\t'
  | _ => none

def readPieces? : List Char → Option (List Piece × List Char)
  | [] => none
  | '"' :: cs => some ([], cs)
  | '\\' :: 'u' :: a :: b :: c :: d :: cs =>
    match Text.readRun? 16 [a, b, c, d], readPieces? cs with
    | some n, some (pieces, rest) => some (.unit n :: pieces, rest)
    | _, _ => none
  | '\\' :: e :: cs =>
    match escaped? e, readPieces? cs with
    | some c, some (pieces, rest) => some (.char c :: pieces, rest)
    | _, _ => none
  | c :: cs =>
    if c.toNat < 0x20 then none
    else
      match readPieces? cs with
      | some (pieces, rest) => some (.char c :: pieces, rest)
      | none => none

def readString? (cs : List Char) : Option (Json × List Char) :=
  (readPieces? cs).map fun (pieces, rest) =>
    match joinPieces pieces with
    | some text => (string (String.ofList text), rest)
    | none => (unpaired, rest)

def readDigits? (cs : List Char) : Option (List Char × List Char) :=
  let ds := cs.takeWhile Char.isDigit
  if ds.isEmpty then none else some (ds, cs.dropWhile Char.isDigit)

/-- Reads the digits before the point: zero alone, or a run that does not start with zero. -/
def readWhole? : List Char → Option (List Char × List Char)
  | '0' :: cs =>
    match cs with
    | [] => some (['0'], [])
    | c :: rest => if c.isDigit then none else some (['0'], c :: rest)
  | cs => readDigits? cs

def readExponent? : List Char → Option (Option Int × List Char)
  | [] => some (none, [])
  | c :: cs =>
    if c = 'e' ∨ c = 'E' then
      match cs with
      | '-' :: cs => (readDigits? cs).bind fun (ds, rest) =>
        (Text.readRun? 10 ds).map fun n => (some (-Int.ofNat n), rest)
      | '+' :: cs => (readDigits? cs).bind fun (ds, rest) =>
        (Text.readRun? 10 ds).map fun n => (some (Int.ofNat n), rest)
      | cs => (readDigits? cs).bind fun (ds, rest) =>
        (Text.readRun? 10 ds).map fun n => (some (Int.ofNat n), rest)
    else some (none, c :: cs)

/-- Reads a number after its sign and keeps its digits as they are. -/
def readNumeral? (negative : Bool) (cs : List Char) : Option (Json × List Char) := do
  let (whole, cs) ← readWhole? cs
  let (fraction, cs) ←
    match cs with
    | '.' :: cs => (readDigits? cs).map fun (ds, rest) => (some ds, rest)
    | cs => some (none, cs)
  let (exponent, cs) ← readExponent? cs
  return (number { negative, whole, fraction, exponent }, cs)

mutual

/-- Reads a value and returns what follows it. The fuel bounds the steps into values and on to
further items. -/
def readValue? : Nat → List Char → Option (Json × List Char)
  | 0, _ => none
  | fuel + 1, cs =>
    match skipSpace cs with
    | 'n' :: 'u' :: 'l' :: 'l' :: rest => some (null, rest)
    | 't' :: 'r' :: 'u' :: 'e' :: rest => some (bool true, rest)
    | 'f' :: 'a' :: 'l' :: 's' :: 'e' :: rest => some (bool false, rest)
    | '"' :: rest => readString? rest
    | '-' :: rest => readNumeral? true rest
    | '[' :: rest =>
      match skipSpace rest with
      | ']' :: rest => some (array [], rest)
      | rest => (readItems? fuel rest).map fun (items, rest) => (array items, rest)
    | '\x7b' :: rest =>
      match skipSpace rest with
      | '\x7d' :: rest => some (object [], rest)
      | rest => (readFields? fuel rest).map fun (fields, rest) => (object fields, rest)
    | rest => readNumeral? false rest

def readItems? : Nat → List Char → Option (List Json × List Char)
  | 0, _ => none
  | fuel + 1, cs =>
    match readValue? fuel cs with
    | none => none
    | some (item, rest) =>
      match skipSpace rest with
      | ',' :: rest => (readItems? fuel rest).map fun (items, rest) => (item :: items, rest)
      | ']' :: rest => some ([item], rest)
      | _ => none

def readFields? : Nat → List Char → Option (List (String × Json) × List Char)
  | 0, _ => none
  | fuel + 1, cs =>
    match skipSpace cs with
    | '"' :: rest =>
      match readString? rest with
      | some (string name, rest) =>
        match skipSpace rest with
        | ':' :: rest =>
          match readValue? fuel rest with
          | none => none
          | some (value, rest) =>
            match skipSpace rest with
            | ',' :: rest =>
              (readFields? fuel rest).map fun (fields, rest) => ((name, value) :: fields, rest)
            | '\x7d' :: rest => some ([(name, value)], rest)
            | _ => none
        | _ => none
      | _ => none
    | _ => none

end

/-- Reads a document that fills the text. No text of that length needs more fuel. -/
def read? (s : String) : Option Json :=
  let cs := s.toList
  match readValue? (2 * cs.length + 2) cs with
  | some (value, rest) => if (skipSpace rest).isEmpty then some value else none
  | none => none

end ChainQuery.Json
