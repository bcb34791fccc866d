import ChainQuery.Abi.Type

/-!
# Values of the contract interface

A value carries as much of its type as its encoding needs.
-/

namespace ChainQuery

/-- A decoded value, or one that is to be encoded, with the width of its type. -/
inductive AbiValue where
  | bool (b : Bool)
  | int (i : Int) (bits : Nat)
  | uint (n : Nat) (bits : Nat)
  /-- A word of 32 bytes of which the first `size` count. -/
  | fixedBytes (word : List UInt8) (size : Nat)
  | address (bytes : List UInt8)
  | function (bytes : List UInt8)
  | bytes (data : List UInt8)
  | string (s : String)
  | array (items : List AbiValue)
  | fixedArray (items : List AbiValue)
  | tuple (fields : List AbiValue)
deriving Repr, Inhabited, BEq

namespace AbiValue

/-- The values whose encoding stands apart from the place that refers to it. -/
def isDynamic : AbiValue → Bool
  | bytes _ => true
  | string _ => true
  | array _ => true
  | fixedArray items => anyDynamic items
  | tuple fields => anyDynamic fields
  | _ => false
where
  anyDynamic : List AbiValue → Bool
    | [] => false
    | item :: items => item.isDynamic || anyDynamic items

end AbiValue
end ChainQuery
