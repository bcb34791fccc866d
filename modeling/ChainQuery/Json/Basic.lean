import ChainQuery.Text.Digits

/-!
# JSON documents

A document keeps the fields of an object in their order, repeated names included, and keeps a
number as it was written, for what a number may be is up to the reader of the field.
-/

namespace ChainQuery

/-- A number as written: its sign, the digits before and after the point, and the exponent. -/
structure Numeral where
  negative : Bool
  whole : List Char
  fraction : Option (List Char)
  exponent : Option Int
deriving DecidableEq, Repr, Inhabited

/-- A document as it is written: numbers keep their digits, and objects all their fields in order. -/
inductive Json where
  | null
  | bool (b : Bool)
  | number (n : Numeral)
  | string (s : String)
  /-- A string with half of a surrogate pair, which stands for no text. -/
  | unpaired
  | array (items : List Json)
  | object (fields : List (String × Json))
deriving Repr, Inhabited

namespace Numeral

def wholeNat (n : Numeral) : Nat :=
  Text.ofDigits 10 (n.whole.map fun c => c.toNat - '0'.toNat)

def isInteger (n : Numeral) : Bool :=
  n.fraction.isNone && n.exponent.isNone

/-- A natural number below `2 ^ bits`, written without a sign. -/
def toNat? (bits : Nat) (n : Numeral) : Option Nat :=
  if n.isInteger && !n.negative && n.wholeNat < Nat.pow 2 bits then some n.wholeNat else none

def toInt? (bits : Nat) (n : Numeral) : Option Int :=
  let i : Int := if n.negative then -Int.ofNat n.wholeNat else Int.ofNat n.wholeNat
  let bound := Int.ofNat (Nat.pow 2 (bits - 1))
  if n.isInteger && -bound ≤ i && i < bound then some i else none

/-- Minus zero, which is not among the integers of a fixed width. -/
def isMinusZero (n : Numeral) : Bool :=
  n.negative && n.wholeNat == 0

def ofInt (i : Int) : Numeral :=
  { negative := i < 0
    whole := Text.render 10 i.natAbs
    fraction := none
    exponent := none }

end Numeral

namespace Json

def ofInt (i : Int) : Json :=
  .number (Numeral.ofInt i)

def ofNat (n : Nat) : Json :=
  ofInt (Int.ofNat n)

/-- The value of the last field with a name, which replaces those before it. -/
def lastField? (name : String) (fields : List (String × Json)) : Option Json :=
  (fields.reverse.find? fun f => f.1 == name).map (·.2)

/-- The value of a field, `null` when it is missing. -/
def field (name : String) : Json → Json
  | object fields => (lastField? name fields).getD null
  | _ => null

def string? : Json → Option String
  | string s => some s
  | _ => none

def bool? : Json → Option Bool
  | bool b => some b
  | _ => none

def array? : Json → Option (List Json)
  | array items => some items
  | _ => none

def nat? (bits : Nat) : Json → Option Nat
  | number n => n.toNat? bits
  | _ => none

def int? (bits : Nat) : Json → Option Int
  | number n => if n.isMinusZero then none else n.toInt? bits
  | _ => none

/-- The greatest number of lists and objects around a value inside. -/
def nesting : Json → Nat
  | array items => nestingItems items + 1
  | object fields => nestingFields fields + 1
  | _ => 0
where
  nestingItems : List Json → Nat
    | [] => 0
    | item :: items => max (nesting item) (nestingItems items)
  nestingFields : List (String × Json) → Nat
    | [] => 0
    | (_, value) :: fields => max (nesting value) (nestingFields fields)

/-- The values of a record with the given field names: an object whose unknown fields are skipped
and whose known fields stand once each, or an array of values in the order of the names. -/
def record? (names : List String) : Json → Option (List (Option Json))
  | object fields =>
    names.mapM fun name =>
      match fields.filter fun f => f.1 == name with
      | [] => some none
      | [f] => some (some f.2)
      | _ => none
  | array items =>
    if items.length ≤ names.length then
      some (items.map some ++ List.replicate (names.length - items.length) none)
    else none
  | _ => none

/-- A field that may be missing: its default, or what `read` makes of its value. -/
def orDefault (default : α) (read : Json → Option α) : Option Json → Option α
  | none => some default
  | some value => read value

/-- A field that may be missing or `null`. -/
def optional (read : Json → Option α) : Option Json → Option (Option α)
  | none => some none
  | some null => some none
  | some value => (read value).map some

end Json
end ChainQuery
