import ChainQuery.Chain.Error
import ChainQuery.Json.Held
import ChainQuery.Json.Printer
import ChainQuery.Json.Reader

/-!
# Remote calls

The envelope of calls to a node and of its answers. A call fails on the way, with an error of the
node, or with an answer that is no envelope; only a failure on the way may pass when the call is made
again.
-/

namespace ChainQuery

structure RpcError where
  code : Int
  message : String
  data : Option Json := none
deriving Repr, Inhabited

/-- Why a request has no result. -/
inductive TransportError where
  | unreachable
  | status (code : Nat) (body : String)
  | rpc (e : RpcError)
  | malformed (reason : String)
deriving Repr, Inhabited

namespace TransportError

def message : TransportError → String
  | unreachable => "HTTP error: no answer"
  | status code body => "HTTP error: HTTP " ++ Text.decimal code ++ ": " ++ body
  | rpc e => "JSON-RPC error " ++ Text.signedDecimal e.code ++ ": " ++ e.message
  | malformed reason => "malformed response: " ++ reason

/-- A reply of success settles a request, whatever it says. -/
def isRetryable : TransportError → Bool
  | unreachable => true
  | status _ _ => true
  | _ => false

def toChain : TransportError → ChainError
  | malformed reason => .invalidResponse reason
  | e => .rpc e.message

end TransportError

namespace Rpc

def requestText (id : Nat) (method : String) (params : Json) : String :=
  (Json.object [("jsonrpc", .string "2.0"), ("id", .ofNat id), ("method", .string method),
    ("params", params)]).text

def readError? (j : Json) : Option RpcError := do
  match ← j.record? ["code", "message", "data"] with
  | [some code, some message, data] =>
    return {
      code := ← code.int? 64
      message := ← message.string?
      data := ← Json.optional (Json.heldWithin? (Json.nestingLimit - 2)) data }
  | _ => none

/-- Reads an answer: an error if it holds one, else its result, which may be missing. -/
def readResponse? (text : String) : Option (Except RpcError Json) := do
  match ← (← Json.read? text).record? ["result", "error"] with
  | [result, error] =>
    let result ← Json.optional (Json.heldWithin? (Json.nestingLimit - 1)) result
    let error ← Json.optional readError? error
    match error with
    | some e => return .error e
    | none => return .ok (result.getD .null)
  | _ => none

end Rpc
end ChainQuery
