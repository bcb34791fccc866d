import ChainQuery.Chain.Source
import ChainQuery.Config
import ChainQuery.Node.Convert
import ChainQuery.Node.Rpc
import ChainQuery.Wire

/-!
# Clients of a node

A client makes calls to the node at one address and numbers them. A call that fails on the way is
made again as often as the settings say, each time under a new number. A block is put together from
two calls, one for the block and one for its log entries.
-/

namespace ChainQuery

structure NodeClient where
  url : String
  retry : RetryConfig
  /-- The number of the next send. It stands for a counter of 64 bits that wraps around, and is exact as
  long as there are fewer than `2 ^ 64` sends. -/
  nextId : Nat := 1
  wire : Wire := {}

/-- Requests to a node, which leave a client behind also when they fail. -/
abbrev Talk (ε : Type) := ExceptT ε (StateM NodeClient)

namespace NodeClient

def usualTimeout : Nat := 30000

def config? (j : Json) : Option RequestConfig :=
  RequestConfig.ofJson? usualTimeout j

def start (url : String) (config : RequestConfig) (wire : Wire) : NodeClient :=
  { url := url, retry := config.retry, wire := wire }

/-- The result that a reply gives. Nothing is read from one whose status is no success. -/
def readReply : Reply → Except TransportError Json
  | .dropped => .error .unreachable
  | .answered status body =>
    if 200 ≤ status ∧ status < 300 then
      match Rpc.readResponse? body with
      | some (.ok result) => .ok result
      | some (.error e) => .error (.rpc e)
      | none => .error (.malformed "not an answer")
    else .error (.status status body)

/-- Posts a request once. Each post has a number of its own, also when it repeats another one. -/
def send (c : NodeClient) (method : String) (params : Json) :
    Except TransportError Json × NodeClient :=
  let (wire, reply) := c.wire.send ⟨c.url, Rpc.requestText c.nextId method params⟩
  (readReply reply, { c with nextId := c.nextId + 1, wire := wire })

/-- Makes a call, and up to `retries` times again while it fails on the way. -/
def sendUpTo (c : NodeClient) (method : String) (params : Json) :
    Nat → Except TransportError Json × NodeClient
  | 0 => c.send method params
  | retries + 1 =>
    match c.send method params with
    | (.ok result, c) => (.ok result, c)
    | (.error e, c) => if e.isRetryable then sendUpTo c method params retries else (.error e, c)

/-- Posts a request until it is settled, at most as often as the settings say. -/
def request (method : String) (params : Json) : Talk TransportError Json :=
  ExceptT.mk fun c => c.sendUpTo method params c.retry.maxRetries

def ask (method : String) (params : Json) : Talk ChainError Json :=
  ExceptT.adapt TransportError.toChain (request method params)

/-- An answer that cannot be read is an invalid response. -/
def understand (e : Except AnswerError α) : Talk ChainError α :=
  ExceptT.mk (pure (e.mapError fun e => .invalidResponse e.message))

def answerText (method : String) (answer : Json) : Except AnswerError String :=
  match answer.string? with
  | some s => .ok s
  | none => .error (.unexpected method answer.text)

def head : Talk ChainError Nat := do
  let answer ← ask "eth_blockNumber" (.array [])
  let text ← understand (answerText "eth_blockNumber" answer)
  understand (Quantity.read64 text)

def logsOf (tag : String) : Talk ChainError (List LogEntry) := do
  let range := Json.object [("fromBlock", .string tag), ("toBlock", .string tag)]
  let answer ← ask "eth_getLogs" (.array [range])
  match answer.array? with
  | some items => understand (Node.readItems Node.readLogEntry items)
  | none => understand (.error .logsNotListed)

/-- The block of a number with its logs, which are a request of their own. There is none when the
answer is `null`. -/
def block (number : Nat) : Talk ChainError (Option Block) := do
  let tag := Quantity.text number
  match ← ask "eth_getBlockByNumber" (.array [.string tag, .bool true]) with
  | .null => return none
  | answer => do
    let b ← understand (Node.readBlock answer)
    let logs ← logsOf tag
    return some (Node.attachLogs b logs)

/-- An error that the node reports is one of the contract, any other one is not. -/
def callFailure (contract : String) : TransportError → ChainError
  | .rpc e => .callFailed contract e.message
  | e => e.toChain

/-- The bytes that a contract returns, at a block or else at the head. -/
def call (contract : String) (data : List UInt8) (block : Option Nat) :
    Talk ChainError (List UInt8) := do
  let tag := (block.map Quantity.text).getD "latest"
  let text := String.ofList ('0' :: 'x' :: Text.hexChars data)
  let what := Json.object [("to", .string contract), ("data", .string text)]
  let answer ← ExceptT.adapt (callFailure contract)
    (request "eth_call" (.array [what, .string tag]))
  let text ← understand (answerText "eth_call" answer)
  understand (Quantity.readData text)

def after (c : NodeClient) : Inquiry → NodeClient
  | .head => (head.run c).2
  | .block number => ((block number).run c).2
  | .call contract data number => ((call contract data number).run c).2
  | .connect _ => c

def afterAll (c : NodeClient) (start : Nat) (asked : History) : NodeClient :=
  (asked.take (asked.length - start)).foldr (fun i c => c.after i) c

/-- The chain that a client reads, from its state after the first `start` questions. -/
def toSource (c : NodeClient) (start : Nat) : ChainSource :=
  { head := fun asked => (head.run (c.afterAll start asked)).1
    block := fun asked number => ((block number).run (c.afterAll start asked)).1
    call := fun asked contract data number =>
      ((call contract data number).run (c.afterAll start asked)).1 }

def isAddress (url : String) : Bool :=
  url.startsWith "http://" || url.startsWith "https://"

/-- Opens a client and asks for the head to see that the node answers. -/
def connect (config : RequestConfig) (peer : Peer) (url : String) :
    Except ChainError NodeClient :=
  if isAddress url then
    match head.run (start url config { peer := peer }) with
    | (.ok _, c) => .ok c
    | (.error e, _) => .error e
  else .error (.rpc ("unsupported connection url '" ++ url ++ "'"))

/-- Connects to nodes. The client at an address has answered all questions since it was connected. -/
def connector (config : RequestConfig) (peer : Peer) : Connector := fun asked url =>
  (connect config peer url).map fun c => c.toSource (asked.length + 1)

end NodeClient
end ChainQuery
