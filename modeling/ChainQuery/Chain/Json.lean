import ChainQuery.Chain.Block
import ChainQuery.Json.Printer

/-!
# Blocks as JSON

Blocks, transactions and log entries as records with their fields in a fixed order. Every field has
to be there except the recipient of a transaction.
-/

namespace ChainQuery

def Json.required (read : Json → Option α) : Option Json → Option α
  | some value => read value
  | none => none

def Json.bytes? (j : Json) : Option (List UInt8) :=
  j.array?.bind fun items => items.mapM fun item : Json => (item.nat? 8).map UInt8.ofNat

def Json.wideNat? : Json → Option Nat
  | .number n => n.toNat? 128
  | _ => none

namespace LogEntry

def toJson (l : LogEntry) : Json :=
  .object [
    ("address", .string l.address),
    ("topics", .array (l.topics.map .string)),
    ("data", .array (l.data.map fun b => .ofNat b.toNat)),
    ("block_number", .ofNat l.blockNumber),
    ("transaction_hash", .string l.transactionHash),
    ("transaction_index", .ofNat l.transactionIndex),
    ("log_index", .ofNat l.logIndex),
    ("removed", .bool l.removed)]

def ofJson? (j : Json) : Option LogEntry := do
  let fields ← j.record? ["address", "topics", "data", "block_number", "transaction_hash",
    "transaction_index", "log_index", "removed"]
  match fields with
  | [address, topics, data, blockNumber, transactionHash, transactionIndex, logIndex, removed] =>
    return {
      address := ← Json.required Json.string? address
      topics := ← Json.required (fun j => j.array?.bind (·.mapM Json.string?)) topics
      data := ← Json.required Json.bytes? data
      blockNumber := ← Json.required (Json.nat? 64) blockNumber
      transactionHash := ← Json.required Json.string? transactionHash
      transactionIndex := ← Json.required (Json.nat? 64) transactionIndex
      logIndex := ← Json.required (Json.nat? 64) logIndex
      removed := ← Json.required Json.bool? removed }
  | _ => none

end LogEntry

namespace Transaction

def toJson (t : Transaction) : Json :=
  .object [
    ("hash", .string t.hash),
    ("block_number", .ofNat t.blockNumber),
    ("transaction_index", .ofNat t.transactionIndex),
    ("from", .string t.sender),
    ("to", (t.recipient.map Json.string).getD .null),
    ("value", .string t.amount),
    ("gas", .ofNat t.gas),
    ("gas_price", .ofNat t.gasPrice),
    ("nonce", .ofNat t.nonce),
    ("input", .string t.input),
    ("logs", .array (t.logs.map LogEntry.toJson))]

def ofJson? (j : Json) : Option Transaction := do
  let fields ← j.record? ["hash", "block_number", "transaction_index", "from", "to", "value", "gas",
    "gas_price", "nonce", "input", "logs"]
  match fields with
  | [hash, blockNumber, transactionIndex, sender, recipient, amount, gas, gasPrice, nonce, input,
      logs] =>
    return {
      hash := ← Json.required Json.string? hash
      blockNumber := ← Json.required (Json.nat? 64) blockNumber
      transactionIndex := ← Json.required (Json.nat? 64) transactionIndex
      sender := ← Json.required Json.string? sender
      recipient := ← Json.optional Json.string? recipient
      amount := ← Json.required Json.string? amount
      gas := ← Json.required Json.wideNat? gas
      gasPrice := ← Json.required Json.wideNat? gasPrice
      nonce := ← Json.required (Json.nat? 64) nonce
      input := ← Json.required Json.string? input
      logs := ← Json.required (fun j => j.array?.bind (·.mapM LogEntry.ofJson?)) logs }
  | _ => none

end Transaction

namespace Block

def toJson (b : Block) : Json :=
  .object [
    ("number", .ofNat b.number),
    ("hash", .string b.hash),
    ("parent_hash", .string b.parentHash),
    ("timestamp", .ofInt b.timestamp),
    ("miner", .string b.miner),
    ("gas_used", .ofNat b.gasUsed),
    ("gas_limit", .ofNat b.gasLimit),
    ("transactions", .array (b.transactions.map Transaction.toJson))]

def ofJson? (j : Json) : Option Block := do
  let fields ← j.record? ["number", "hash", "parent_hash", "timestamp", "miner", "gas_used",
    "gas_limit", "transactions"]
  match fields with
  | [number, hash, parentHash, timestamp, miner, gasUsed, gasLimit, transactions] =>
    return {
      number := ← Json.required (Json.nat? 64) number
      hash := ← Json.required Json.string? hash
      parentHash := ← Json.required Json.string? parentHash
      timestamp := ← Json.required (Json.int? 64) timestamp
      miner := ← Json.required Json.string? miner
      gasUsed := ← Json.required Json.wideNat? gasUsed
      gasLimit := ← Json.required Json.wideNat? gasLimit
      transactions := ←
        Json.required (fun j => j.array?.bind (·.mapM Transaction.ofJson?)) transactions }
  | _ => none

end Block
end ChainQuery
