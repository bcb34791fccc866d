import ChainQuery.Text.Digits

/-!
# Failures of a chain

What can go wrong when a chain is asked for its head, a block or the answer to a call.
-/

namespace ChainQuery

inductive ChainError where
  | rpc (reason : String)
  | blockNotFound (number : Nat)
  | callFailed (contract reason : String)
  | notConnected
  | invalidResponse (reason : String)
deriving DecidableEq, Repr, Inhabited

def ChainError.message : ChainError → String
  | rpc reason => "RPC error: " ++ reason
  | blockNotFound number => "block " ++ Text.decimal number ++ " not found"
  | callFailed contract reason => "contract call to " ++ contract ++ " failed: " ++ reason
  | notConnected => "not connected to a chain"
  | invalidResponse reason => "invalid response: " ++ reason

end ChainQuery
