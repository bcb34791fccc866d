/-!
# Blocks, transactions and log entries

The part of a chain that a query can see. Hashes and addresses are kept as the texts they came as,
and a transferred amount as its decimal text.
-/

namespace ChainQuery

/-- A log entry with its place in the chain. -/
structure LogEntry where
  address : String := ""
  topics : List String := []
  data : List UInt8 := []
  blockNumber : Nat := 0
  transactionHash : String := ""
  transactionIndex : Nat := 0
  logIndex : Nat := 0
  removed : Bool := false
deriving DecidableEq, Repr, Inhabited

/-- A transaction with its log entries. One that creates a contract has no recipient. -/
structure Transaction where
  hash : String := ""
  blockNumber : Nat := 0
  transactionIndex : Nat := 0
  sender : String := ""
  recipient : Option String := none
  amount : String := ""
  gas : Nat := 0
  gasPrice : Nat := 0
  nonce : Nat := 0
  input : String := ""
  logs : List LogEntry := []
deriving DecidableEq, Repr, Inhabited

structure Block where
  number : Nat := 0
  hash : String := ""
  parentHash : String := ""
  timestamp : Int := 0
  miner : String := ""
  gasUsed : Nat := 0
  gasLimit : Nat := 0
  transactions : List Transaction := []
deriving DecidableEq, Repr, Inhabited

/-- The log entries of a block in the order of its transactions. -/
def Block.logs (b : Block) : List LogEntry :=
  b.transactions.flatMap Transaction.logs

end ChainQuery
