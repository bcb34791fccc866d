import ChainQuery.Expression.View
import ChainQuery.Text.Ascii
import ChainQuery.Value.Integer

/-!
# Address criteria

Which senders, recipients or contracts a filter lets through: all of them, those of a list, or those
that a variable holds. Without regard to the case of letters, and a missing address passes only the
criterion that asks for nothing.
-/

namespace ChainQuery

inductive AddressCriterion where
  | any
  | listed (addresses : List String)
  | held (variableName : String)
deriving DecidableEq, Repr, Inhabited

namespace AddressCriterion

/-- Whether an address is among values, each of which has to be a text up to the first match. -/
def amongValues (address : String) : List Value → Except ExecutionError Bool
  | [] => .ok false
  | v :: vs => do
    let text ← v.toText
    if Text.equalFold text address then return true else amongValues address vs

/-- Whether an address passes, or the missing one of a transaction that creates a contract. -/
def accepts (c : AddressCriterion) (bindings : NameMap Value) (address : Option String) :
    Except ExecutionError Bool :=
  match c, address with
  | any, _ => .ok true
  | _, none => .ok false
  | listed addresses, some a => .ok (addresses.any fun b => Text.equalFold b a)
  | held name, some a =>
    match bindings.get? name with
    | none => .error (.unknownVariable name)
    | some (.list items) => amongValues a items
    | some v => amongValues a [v]

end AddressCriterion
end ChainQuery
