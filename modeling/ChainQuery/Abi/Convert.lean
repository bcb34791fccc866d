import ChainQuery.Abi.Address
import ChainQuery.Abi.Type
import ChainQuery.Abi.Value
import ChainQuery.Abi.Word
import ChainQuery.Value.Integer

/-!
# Query values and interface values

What a decoded interface value is to a query, and how a query value becomes an argument of a declared
type. Both directions keep numbers, texts and bytes; fixed and dynamic lists and tuples are lists.
-/

namespace ChainQuery

mutual

/-- A query does not see the width of a number, nor the zeros that fill up fixed bytes. -/
def AbiValue.toValue : AbiValue → Value
  | .bool b => .bool b
  | .int i _ => Value.ofInt i
  | .uint n _ => Value.ofInt (Int.ofNat n)
  | .fixedBytes word size => .bytes (word.take (min size 32))
  | .address raw => .address (Abi.checksumText raw)
  | .function raw => .bytes raw
  | .bytes data => .bytes data
  | .string s => .str s
  | .array items => .list (AbiValue.toValues items)
  | .fixedArray items => .list (AbiValue.toValues items)
  | .tuple fields => .list (AbiValue.toValues fields)

def AbiValue.toValues : List AbiValue → List Value
  | [] => []
  | v :: vs => v.toValue :: AbiValue.toValues vs

end

namespace Abi

def mismatch (t : AbiType) (v : Value) : ExecutionError :=
  .typeMismatch t.name v.typeText

/-- A number is not held against the bits of its type, while fixed bytes must not exceed their size. -/
def scalar? : AbiType → Value → Option AbiValue
  | .bool, .bool b => some (.bool b)
  | .uint bits, .int i => if 0 ≤ i then some (.uint i.toNat bits) else none
  | .uint bits, .bigInt s =>
    (Text.readGrouped? 10 wordBound s.toList).map fun n => .uint n bits
  | .int bits, .int i => some (.int i bits)
  | .int bits, .bigInt s => (readInt256? s).map fun i => .int i bits
  | .address, .address s => (readAddress? s).map .address
  | .address, .str s => (readAddress? s).map .address
  | .string, .str s => some (.string s)
  | .bytes, .bytes data => some (.bytes data)
  | .fixedBytes size, .bytes data =>
    if data.length ≤ size then some (.fixedBytes (padRight 32 data) size) else none
  | _, _ => none

mutual

/-- The interface value of a declared type that a query value stands for. -/
def ofValue (t : AbiType) (v : Value) : Except ExecutionError AbiValue :=
  match t, v with
  | .array element, .list items => (items.mapM (ofValue element)).map .array
  | .fixedArray element length, .list items =>
    if items.length = length then (items.mapM (ofValue element)).map .fixedArray
    else .error (mismatch (.fixedArray element length) (.list items))
  | .tuple fields, .list items =>
    if items.length = fields.length then (ofFields fields items).map .tuple
    else .error (mismatch (.tuple fields) (.list items))
  | t, v =>
    match scalar? t v with
    | some d => .ok d
    | none => .error (mismatch t v)

def ofFields (ts : List AbiType) (vs : List Value) : Except ExecutionError (List AbiValue) :=
  match ts, vs with
  | t :: ts, v :: vs => do
    let d ← ofValue t v
    let ds ← ofFields ts vs
    return d :: ds
  | _, _ => .ok []

end

end Abi
end ChainQuery
