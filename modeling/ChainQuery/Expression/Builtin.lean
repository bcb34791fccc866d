import ChainQuery.Query.Error
import ChainQuery.Text.Lowercase
import ChainQuery.Time.Moment
import ChainQuery.Value.Compare

/-!
# Built-in methods

The methods that a query can call. A call is resolved by name, number and types of the arguments,
`any` standing for a type that is not known before the run. Arithmetic is exact within 256 bits and
fails outside.
-/

namespace ChainQuery

inductive Builtin where
  | add
  | subtract
  | multiply
  | divide
  | concat
  | lower
  | toText
  | contains
  | addElement
  | removeElement
  | length
  | newList
  | fromUnix
deriving DecidableEq, Repr, Inhabited

namespace Builtin

def all : List Builtin := [add, subtract, multiply, divide, concat, lower, toText, contains,
  addElement, removeElement, length, newList, fromUnix]

def name : Builtin → String
  | add => "add"
  | subtract => "subtract"
  | multiply => "multiply"
  | divide => "divide"
  | concat => "concat"
  | lower => "lower"
  | toText => "toString"
  | contains => "contains"
  | addElement => "addElement"
  | removeElement => "removeElement"
  | length => "length"
  | newList => "newList"
  | fromUnix => "fromUnix"

def parameters : Builtin → List ValueType
  | add => [.int, .int]
  | subtract => [.int, .int]
  | multiply => [.int, .int]
  | divide => [.int, .int]
  | concat => [.str, .str]
  | lower => [.str]
  | toText => [.any]
  | contains => [.list .any, .any]
  | addElement => [.list .any, .any]
  | removeElement => [.list .any, .any]
  | length => [.list .any]
  | newList => []
  | fromUnix => [.int]

def takes (m : Builtin) (types : List ValueType) : Bool :=
  m.parameters.length == types.length &&
    (m.parameters.zip types).all fun (declared, actual) => declared.accepts actual

/-- The method of a name for arguments of known types. -/
def resolve (name : String) (types : List ValueType) : Except BuildError Builtin :=
  match all.find? fun m => m.name == name && m.takes types with
  | some m => .ok m
  | none => .error (.unknownMethod name types)

/-- The argument at a place, counted from zero. -/
def argument (m : Builtin) (args : List Value) (index : Nat) : Except ExecutionError Value :=
  match args[index]? with
  | some v => .ok v
  | none => .error (.method m.name (.missingArgument index))

/-- Computes with integers of 256 bits; the result must be one as well. -/
def arithmetic (m : Builtin) (args : List Value) (op : Int → Int → Int) :
    Except ExecutionError Value := do
  let a ← (← m.argument args 0).toInt256
  let b ← (← m.argument args 1).toInt256
  if fits256 (op a b) then return Value.ofInt (op a b)
  else throw (.method m.name (.overflow a b))

/-- The items that do not equal an element. Each of them must be comparable with it. -/
def without (element : Value) : List Value → Except ExecutionError (List Value)
  | [] => .ok []
  | item :: items => do
    let same ← item.equals element
    let rest ← without element items
    return if same then rest else item :: rest

def apply (m : Builtin) (args : List Value) : Except ExecutionError Value :=
  match m with
  | add => m.arithmetic args (· + ·)
  | subtract => m.arithmetic args (· - ·)
  | multiply => m.arithmetic args (· * ·)
  | divide => do
    let divisor ← (← m.argument args 1).toInt256
    if divisor = 0 then throw (.method m.name .divisionByZero)
    else m.arithmetic args Int.tdiv
  | concat => do
    let a ← (← m.argument args 0).toText
    let b ← (← m.argument args 1).toText
    return .str (a ++ b)
  | lower => do
    let s ← (← m.argument args 0).toText
    return .str (Text.lower s)
  | toText => do
    let v ← m.argument args 0
    return .str v.text
  | contains => do
    let list ← m.argument args 0
    let element ← m.argument args 1
    return .bool (← list.contains element)
  | addElement => do
    let items ← (← m.argument args 0).toList
    let element ← m.argument args 1
    return .list (items ++ [element])
  | removeElement => do
    let element ← m.argument args 1
    let items ← (← m.argument args 0).toList
    return .list (← without element items)
  | length => do
    let items ← (← m.argument args 0).toList
    return Value.ofInt (Int.ofNat items.length)
  | newList => return .list []
  | fromUnix => do
    let seconds ← (← m.argument args 0).toInt
    if -(Int.ofNat (Nat.pow 2 63)) ≤ seconds ∧ seconds < Int.ofNat (Nat.pow 2 63) then
      match Time.Moment.ofUnix? seconds with
      | some moment => return .str moment.text
      | none => throw (.method m.name (.outOfRange seconds))
    else throw (.method m.name (.outOfRange seconds))

end Builtin
end ChainQuery
