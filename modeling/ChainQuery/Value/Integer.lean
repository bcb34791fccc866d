import ChainQuery.Value.Basic
import ChainQuery.Execution.Error

/-!
# Widths of integers

Three widths matter: 128 bits with sign, which a value holds as a number, 256 bits with sign, in
which values are compared and computed with, and 256 bits without sign, which literals and
transferred amounts may use.
-/

namespace ChainQuery

def fits128 (i : Int) : Bool :=
  -(Int.ofNat (Nat.pow 2 127)) ≤ i && i < Int.ofNat (Nat.pow 2 127)

def fits256 (i : Int) : Bool :=
  -(Int.ofNat (Nat.pow 2 255)) ≤ i && i < Int.ofNat (Nat.pow 2 255)

def wordBound : Nat := Nat.pow 2 256

/-- Reads an integer of 128 bits: one optional sign and decimal digits. -/
def readInt128? (cs : List Char) : Option Int :=
  (Text.readSigned? cs).filter fits128

/-- Reads an integer of 256 bits with sign: one optional sign and digits in the grouped grammar. -/
def readInt256? (s : String) : Option Int :=
  let signed : Bool × List Char := match s.toList with
    | '+' :: cs => (false, cs)
    | '-' :: cs => (true, cs)
    | cs => (false, cs)
  ((Text.readGrouped? 10 wordBound signed.2).map fun n =>
    if signed.1 then -Int.ofNat n else Int.ofNat n).filter fits256

namespace Value

/-- The value of an integer: a number within 128 bits, else its decimal text. -/
def ofInt (i : Int) : Value :=
  if fits128 i then int i else bigInt (Text.signedDecimal i)

/-- Reads an integer that is written in decimal: within 128 bits with a sign, and beyond them up to
256 bits in the grouped grammar. -/
def readInteger? (cs : List Char) : Option Value :=
  match readInt128? cs with
  | some i => some (int i)
  | none => (Text.readGrouped? 10 wordBound cs).map fun n => bigInt (Text.decimal n)

/-- The integer of a value for comparing and computing. -/
def toInt256 : Value → Except ExecutionError Int
  | int i => .ok i
  | bigInt s =>
    match readInt256? s with
    | some i => .ok i
    | none => .error (.decode (.notInteger s))
  | v => .error (.typeMismatch "int" v.typeText)

def toBool : Value → Except ExecutionError Bool
  | bool b => .ok b
  | v => .error (.typeMismatch "bool" v.typeText)

/-- The integer of a value that is held as a number. -/
def toInt : Value → Except ExecutionError Int
  | int i => .ok i
  | v => .error (.typeMismatch "int" v.typeText)

def blockNumberBound : Nat := Nat.pow 2 64

/-- A block number has 64 bits. -/
def toBlockNumber (v : Value) : Except ExecutionError Nat := do
  let i ← v.toInt
  if 0 ≤ i ∧ i < blockNumberBound then return i.toNat
  else throw (.typeMismatch "block number" (Text.signedDecimal i))

def toText : Value → Except ExecutionError String
  | str s => .ok s
  | address s => .ok s
  | v => .error (.typeMismatch "string" v.typeText)

def toList : Value → Except ExecutionError (List Value)
  | list items => .ok items
  | v => .error (.typeMismatch "list" v.typeText)

end Value
end ChainQuery
