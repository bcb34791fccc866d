import ChainQuery.Abi.Convert
import ChainQuery.Abi.Decode
import ChainQuery.Abi.Encode
import ChainQuery.Abi.Parameter
import ChainQuery.Expression.Term

/-!
# Reads of a contract

A read is the call of a function: its arguments are encoded after the first four bytes of the hash of
its signature, and its results are bound to names. A variable of a contract is read through the
function of its name.
-/

namespace ChainQuery

/-- An argument with the type that it is encoded at. -/
structure Argument where
  term : Term
  type : AbiType
deriving Repr, Inhabited, BEq

namespace Argument

def make (typeText : String) (t : Term) : Except BuildError Argument :=
  (AbiType.read typeText).map fun type => ⟨t, type⟩

def eval (view : View) (a : Argument) : Except ExecutionError AbiValue := do
  Abi.ofValue a.type (← a.term.eval view)

end Argument

/-- A function of a contract, whose results are bound by their names. -/
structure ContractRead where
  name : String
  inputs : List Argument
  outputs : List Parameter
deriving Repr, Inhabited, BEq

namespace ContractRead

/-- The read of a function, which has to have a result. -/
def ofFunction (name : String) (inputs : List Argument) (outputs : List Parameter) :
    Except BuildError ContractRead :=
  if outputs.isEmpty then .error (.withoutOutputs name) else .ok ⟨name, inputs, outputs⟩

/-- The read of a variable, bound under its own name. -/
def ofVariable (p : Parameter) : ContractRead :=
  ⟨p.name, [], [p]⟩

/-- The four bytes that tell the function. -/
def selector (r : ContractRead) : List UInt8 :=
  (keccak256 (Text.utf8 (signatureText r.name (r.inputs.map Argument.type)))).take 4

/-- The selector of the function and its arguments. -/
def encodeCall (view : View) (r : ContractRead) : Except ExecutionError (List UInt8) := do
  let arguments ← r.inputs.mapM (Argument.eval view)
  return r.selector ++ Abi.encodeAll arguments

def decodeResult (r : ContractRead) (data : List UInt8) :
    Except ExecutionError (List (String × Value)) :=
  match Abi.decodeAll? (r.outputs.map Parameter.type) data with
  | some values =>
    .ok ((r.outputs.zip values).map fun (p, value) => (p.name, value.toValue))
  | none => .error (.decode (.result r.name))

end ContractRead
end ChainQuery
