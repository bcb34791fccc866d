import ChainQuery.Abi.Type
import ChainQuery.Query.Error

/-!
# Parameters

The named parameters of events and the named results of functions.
-/

namespace ChainQuery

/-- A parameter. An indexed one stands in a topic of its own. -/
structure Parameter where
  name : String
  type : AbiType
  indexed : Bool := false
deriving Repr, Inhabited, BEq

def AbiType.read (text : String) : Except BuildError AbiType :=
  match AbiType.read? text with
  | some t => .ok t
  | none => .error (.unsupportedType text)

namespace Parameter

def make (name typeText : String) (indexed : Bool := false) : Except BuildError Parameter :=
  (AbiType.read typeText).map fun t => { name := name, type := t, indexed := indexed }

/-- The static type of the parameter in a query, `any` for a type without a keyword. -/
def valueType (p : Parameter) : ValueType :=
  (ValueType.ofKeyword? p.type.name).getD .any

end Parameter

/-- The name of a function or an event with the types of its parameters, from which it is hashed. -/
def signatureText (name : String) (types : List AbiType) : String :=
  name ++ "(" ++ ",".intercalate (types.map AbiType.name) ++ ")"

end ChainQuery
