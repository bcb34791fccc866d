import ChainQuery.Chain.Block
import ChainQuery.Value.Integer

/-!
# Names of the chain

The reserved names under which an expression reads the current block, transaction and log entry.
Every other name is a variable of the query.
-/

namespace ChainQuery

inductive BlockField where
  | number
  | hash
  | parentHash
  | timestamp
  | miner
  | gasUsed
  | gasLimit
  | transactionCount
deriving DecidableEq, Repr, Inhabited

inductive TransactionField where
  | hash
  | sender
  | recipient
  | amount
  | gas
  | gasPrice
  | nonce
  | input
  | transactionIndex
  | blockNumber
deriving DecidableEq, Repr, Inhabited

inductive LogField where
  | address
  | logIndex
  | data
  | transactionHash
  | blockNumber
  | removed
deriving DecidableEq, Repr, Inhabited

namespace BlockField

def name : BlockField → String
  | number => "number"
  | hash => "hash"
  | parentHash => "parentHash"
  | timestamp => "timestamp"
  | miner => "miner"
  | gasUsed => "gasUsed"
  | gasLimit => "gasLimit"
  | transactionCount => "transactionCount"

def type : BlockField → ValueType
  | hash => .str
  | parentHash => .str
  | miner => .address
  | _ => .int

def read (b : Block) : BlockField → Value
  | number => Value.ofInt (Int.ofNat b.number)
  | hash => .str b.hash
  | parentHash => .str b.parentHash
  | timestamp => Value.ofInt b.timestamp
  | miner => .address b.miner
  | gasUsed => Value.ofInt (Int.ofNat b.gasUsed)
  | gasLimit => Value.ofInt (Int.ofNat b.gasLimit)
  | transactionCount => Value.ofInt (Int.ofNat b.transactions.length)

end BlockField

namespace TransactionField

def name : TransactionField → String
  | hash => "hash"
  | sender => "from"
  | recipient => "to"
  | amount => "value"
  | gas => "gas"
  | gasPrice => "gasPrice"
  | nonce => "nonce"
  | input => "input"
  | transactionIndex => "transactionIndex"
  | blockNumber => "blockNumber"

/-- The type of a field; the recipient may be `null`. -/
def type : TransactionField → ValueType
  | hash => .str
  | sender => .address
  | recipient => .any
  | input => .str
  | _ => .int

/-- The value of a field. The amount is a text that has to be a decimal integer. -/
def read (t : Transaction) : TransactionField → Except ExecutionError Value
  | hash => .ok (.str t.hash)
  | sender => .ok (.address t.sender)
  | recipient => .ok ((t.recipient.map Value.address).getD .null)
  | amount =>
    match Value.readInteger? t.amount.toList with
    | some v => .ok v
    | none => .error (.decode (.notDecimal t.amount))
  | gas => .ok (Value.ofInt (Int.ofNat t.gas))
  | gasPrice => .ok (Value.ofInt (Int.ofNat t.gasPrice))
  | nonce => .ok (Value.ofInt (Int.ofNat t.nonce))
  | input => .ok (.str t.input)
  | transactionIndex => .ok (Value.ofInt (Int.ofNat t.transactionIndex))
  | blockNumber => .ok (Value.ofInt (Int.ofNat t.blockNumber))

end TransactionField

namespace LogField

def name : LogField → String
  | address => "address"
  | logIndex => "logIndex"
  | data => "data"
  | transactionHash => "transactionHash"
  | blockNumber => "blockNumber"
  | removed => "removed"

def type : LogField → ValueType
  | address => .address
  | data => .bytes
  | transactionHash => .str
  | removed => .bool
  | _ => .int

def read (l : LogEntry) : LogField → Value
  | address => .address l.address
  | logIndex => Value.ofInt (Int.ofNat l.logIndex)
  | data => .bytes l.data
  | transactionHash => .str l.transactionHash
  | blockNumber => Value.ofInt (Int.ofNat l.blockNumber)
  | removed => .bool l.removed

end LogField

/-- A field of the current block, transaction or log entry. -/
inductive ChainField where
  | block (field : BlockField)
  | transaction (field : TransactionField)
  | logEntry (field : LogField)
deriving DecidableEq, Repr, Inhabited

namespace ChainField

def name : ChainField → String
  | block f => "block." ++ f.name
  | transaction f => "tx." ++ f.name
  | logEntry f => "log." ++ f.name

def type : ChainField → ValueType
  | block f => f.type
  | transaction f => f.type
  | logEntry f => f.type

def all : List ChainField := [
  block .number, block .hash, block .parentHash, block .timestamp, block .miner, block .gasUsed,
  block .gasLimit, block .transactionCount,
  transaction .hash, transaction .sender, transaction .recipient, transaction .amount,
  transaction .gas, transaction .gasPrice, transaction .nonce, transaction .input,
  transaction .transactionIndex, transaction .blockNumber,
  logEntry .address, logEntry .logIndex, logEntry .data, logEntry .transactionHash,
  logEntry .blockNumber, logEntry .removed]

def ofName? (text : String) : Option ChainField :=
  all.find? fun f => f.name == text

end ChainField
end ChainQuery
