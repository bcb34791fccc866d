import ChainQuery.Json.Number
import ChainQuery.Binary64.Shortest

/-!
# Documents held in memory

A document whose purpose is not known when it is read is held in a common form: the fields of an
object are sorted by name and the last of one name counts, and a number is an integer of 64 bits or
else the double it stands for. A document that has no such form is refused.
-/

namespace ChainQuery

namespace Numeral

/-- A double as a numeral: positional from `1e-5` up to `1e16`, with an exponent outside, and always
with a fraction or an exponent. -/
def ofBinary64 : Binary64 → Numeral
  | .finite s m e =>
    let d := if m = 0 then (0, (0 : Int)) else Binary64.shortest m e
    let ds := Text.render 10 d.1
    let point : Int := Int.ofNat ds.length + d.2
    if 0 ≤ d.2 ∧ point ≤ 16 then
      { negative := s
        whole := Binary64.positional d.1 d.2
        fraction := some ['0']
        exponent := none }
    else if -5 < point ∧ point ≤ 16 then
      let cs := Binary64.positional d.1 d.2
      { negative := s
        whole := cs.takeWhile (· ≠ '.')
        fraction := some ((cs.dropWhile (· ≠ '.')).drop 1)
        exponent := none }
    else
      { negative := s
        whole := ds.take 1
        fraction := if ds.length ≤ 1 then none else some (ds.drop 1)
        exponent := some (point - 1) }
  | _ => ofInt 0

def held? (n : Numeral) : Option Numeral :=
  match n.toNat? 64, n.toInt? 64 with
  | some k, _ => some (ofInt (Int.ofNat k))
  | none, some i => if n.isMinusZero then n.toBinary64?.map ofBinary64 else some (ofInt i)
  | none, none => n.toBinary64?.map ofBinary64

end Numeral

namespace Json

/-- Puts a field to its place in the order of the names. It replaces one of the same name. -/
def insertField (name : String) (value : Json) : List (String × Json) → List (String × Json)
  | [] => [(name, value)]
  | f :: fields =>
    if name == f.1 then (name, value) :: fields
    else if name < f.1 then (name, value) :: f :: fields
    else f :: insertField name value fields

/-- Fields sorted by name, the last of each name. -/
def sortFields (fields : List (String × Json)) : List (String × Json) :=
  fields.foldl (fun sorted f => insertField f.1 f.2 sorted) []

mutual

/-- The document as it is held in memory: numbers in one of three forms, and each name of an object
once. -/
def held? : Json → Option Json
  | null => some null
  | bool b => some (bool b)
  | number n => n.held?.map number
  | string s => some (string s)
  | unpaired => none
  | array items => (heldItems? items).map array
  | object fields => (heldFields? fields).map fun fields => object (sortFields fields)

def heldItems? : List Json → Option (List Json)
  | [] => some []
  | item :: items => (held? item).bind fun item => (heldItems? items).map (item :: ·)

def heldFields? : List (String × Json) → Option (List (String × Json))
  | [] => some []
  | (name, value) :: fields =>
    (held? value).bind fun value => (heldFields? fields).map ((name, value) :: ·)

end

/-- The deepest nesting of a document whose parts are all looked at. -/
def nestingLimit : Nat := 127

/-- A document that is nested too deep is refused. -/
def heldWithin? (depth : Nat) (j : Json) : Option Json :=
  if j.nesting ≤ depth then j.held? else none

end Json
end ChainQuery
