import ChainQuery.Text.Blank
import ChainQuery.Text.Digits

/-!
# Contract types

The types of the contract interface: their canonical names, from which events and functions take
their hashes, and a reader for the names that queries write. `uint` and `int` are short for their
widest forms, widths may carry leading zeros, a tuple may be introduced by `tuple` and may end in a
comma, and an identifier with a dot, after which another one may stand, names an enumeration, which
is a small number. Types that are nested too deep are refused.
-/

namespace ChainQuery

inductive AbiType where
  | bool
  | int (bits : Nat)
  | uint (bits : Nat)
  | fixedBytes (size : Nat)
  | address
  | function
  | bytes
  | string
  | array (element : AbiType)
  | fixedArray (element : AbiType) (length : Nat)
  | tuple (fields : List AbiType)
deriving Repr, Inhabited, BEq

namespace AbiType

mutual

/-- The canonical name of a type. A tuple with one field ends in a comma. -/
def name : AbiType → String
  | bool => "bool"
  | int bits => "int" ++ Text.decimal bits
  | uint bits => "uint" ++ Text.decimal bits
  | fixedBytes size => "bytes" ++ Text.decimal size
  | address => "address"
  | function => "function"
  | bytes => "bytes"
  | string => "string"
  | array element => element.name ++ "[]"
  | fixedArray element length => element.name ++ "[" ++ Text.decimal length ++ "]"
  | tuple [field] => "(" ++ field.name ++ ",)"
  | tuple fields => "(" ++ ",".intercalate (names fields) ++ ")"

def names : List AbiType → List String
  | [] => []
  | field :: fields => field.name :: names fields

end

/-- Whether the values of the type are encoded behind a distance. -/
def isDynamic : AbiType → Bool
  | bytes => true
  | string => true
  | array _ => true
  | fixedArray element _ => element.isDynamic
  | tuple fields => anyDynamic fields
  | _ => false
where
  anyDynamic : List AbiType → Bool
    | [] => false
    | field :: fields => field.isDynamic || anyDynamic fields

/-- The types whose values hold no data: empty tuples, and lists and tuples of such types. -/
def isHollow : AbiType → Bool
  | array element => element.isHollow
  | fixedArray element length => length == 0 || element.isHollow
  | tuple fields => allHollow fields
  | _ => false
where
  allHollow : List AbiType → Bool
    | [] => true
    | field :: fields => field.isHollow && allHollow fields

/-- The fewest words that an encoding takes at the place where it stands, references followed no
further. -/
def leastWords : AbiType → Nat
  | fixedArray element length => length * element.leastWords
  | tuple fields => leastSum fields
  | _ => 1
where
  leastSum : List AbiType → Nat
    | [] => 0
    | field :: fields => field.leastWords + leastSum fields

/-- The types that an event stores as a hash when they are indexed. -/
def isReference : AbiType → Bool
  | bytes => true
  | string => true
  | array _ => true
  | fixedArray _ _ => true
  | tuple _ => true
  | _ => false

def startsName (c : Char) : Bool :=
  c.isAlpha || c == '_' || c == '$'

def continuesName (c : Char) : Bool :=
  c.isAlphanum || c == '_' || c == '$'

/-- A width in bits: a positive multiple of eight up to 256. -/
def bits? (ds : List Char) : Option Nat :=
  (Text.readRun? 10 ds).filter fun n => n ≠ 0 && n ≤ 256 && n % 8 == 0

def ofWord? (word : List Char) : Option AbiType :=
  if word = "address".toList then some address
  else if word = "function".toList then some function
  else if word = "bool".toList then some bool
  else if word = "string".toList then some string
  else if word = "bytes".toList then some bytes
  else if word = "uint".toList then some (uint 256)
  else if word = "int".toList then some (int 256)
  else
    match Text.dropStart? "bytes".toList word, Text.dropStart? "uint".toList word,
        Text.dropStart? "int".toList word with
    | some ds, _, _ =>
      ((Text.readRun? 10 ds).filter fun n => n ≠ 0 && n ≤ 32).map fixedBytes
    | none, some ds, _ => (bits? ds).map uint
    | none, none, some ds => (bits? ds).map int
    | none, none, none => none

def readIdentifier? (cs : List Char) : Option (List Char × List Char) :=
  match cs with
  | [] => none
  | c :: rest =>
    if startsName c then some (c :: rest.takeWhile continuesName, rest.dropWhile continuesName)
    else none

def skipIdentifier (cs : List Char) : List Char :=
  match readIdentifier? cs with
  | some (_, rest) => rest
  | none => cs

/-- Reads a name at the start of a text. An identifier and a dot name an enumeration, together with
the identifier that may follow; a second dot is not part of the name, nor is a digit right after the
dot. -/
def readName? (cs : List Char) : Option (AbiType × List Char) :=
  match readIdentifier? cs with
  | none => none
  | some (_, '.' :: rest) => some (uint 8, skipIdentifier rest)
  | some (word, rest) => (ofWord? word).map fun t => (t, rest)

/-- Reads up to `count` brackets after a type. A length is a positive number of 64 bits. -/
def readLengths? (element : AbiType) (count : Nat) (cs : List Char) :
    Option (AbiType × List Char) :=
  match count, cs with
  | count + 1, '[' :: rest =>
    let ds := rest.takeWhile Char.isDigit
    match rest.dropWhile Char.isDigit with
    | ']' :: rest =>
      if ds.isEmpty then readLengths? (array element) count rest
      else
        match (Text.readRun? 10 ds).filter fun n => n ≠ 0 && n < Nat.pow 2 64 with
        | some length => readLengths? (fixedArray element length) count rest
        | none => none
    | _ => none
  | _, cs => some (element, cs)

def skipGap (cs : List Char) : List Char :=
  cs.dropWhile fun c => c == ' ' || c == '\t'

def readFields? (field? : List Char → Option (AbiType × List Char)) :
    Nat → List Char → Option (List AbiType × List Char)
  | 0, _ => none
  | count + 1, cs =>
    match field? cs with
    | none => none
    | some (field, ',' :: rest) =>
      match skipGap rest with
      | ')' :: rest => some ([field], rest)
      | rest => (readFields? field? count rest).map fun (fields, rest) => (field :: fields, rest)
    | some (field, rest) =>
      match skipGap rest with
      | ')' :: rest => some ([field], rest)
      | _ => none

/-- Reads a type at the start of a text, with types nested at most `depth` deep. The length of the
rest bounds the fields and the brackets, because each takes a character at least. -/
def readType? : Nat → List Char → Option (AbiType × List Char)
  | 0, _ => none
  | depth + 1, cs =>
    match Text.dropStart? "tuple(".toList cs, Text.dropStart? ['('] cs with
    | some rest, _ | none, some rest =>
      match skipGap rest with
      | ')' :: rest => readLengths? (tuple []) rest.length rest
      | rest =>
        match readFields? (readType? depth) rest.length rest with
        | some (fields, rest) => readLengths? (tuple fields) rest.length rest
        | none => none
    | none, none =>
      match readName? cs with
      | some (t, rest) => readLengths? t rest.length rest
      | none => none

/-- The deepest nesting of a type that is read: a type that stands in no tuple has the first level,
the fields of a tuple the next one. An empty tuple has no further level. -/
def nestingLimit : Nat := 80

/-- The type with a given name, blanks around it skipped. -/
def read? (s : String) : Option AbiType :=
  match readType? nestingLimit (Text.trimBlank s.toList) with
  | some (t, []) => some t
  | _ => none

end AbiType
end ChainQuery
