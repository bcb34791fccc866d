import ChainQuery.Chain.Block
import ChainQuery.Json.Basic
import ChainQuery.Node.Quantity
import ChainQuery.Text.Ascii

/-!
# Blocks from a node's answers

A block and its transactions come in one answer and the log entries of the block in another; the
entries are attached to the transactions with their hash, in the order of their indices.
-/

namespace ChainQuery.Node

def textField (j : Json) (name : String) : Except AnswerError String :=
  match (j.field name).string? with
  | some s => .ok s
  | none => .error (.missingField name)

def textFieldOr (j : Json) (name default : String) : String :=
  ((j.field name).string?).getD default

def readItems (read : Json → Except AnswerError α) (items : List Json) :
    Except AnswerError (List α) :=
  items.mapM read

/-- A number of 64 bits as a signed one. -/
def wrapSigned (n : Nat) : Int :=
  Int.bmod (Int.ofNat n) (Nat.pow 2 64)

/-- Reads a transaction, which has no log entries yet. -/
def readTransaction (j : Json) : Except AnswerError Transaction := do
  match j with
  | .string _ => throw .withoutTransactions
  | _ =>
    return {
      hash := ← textField j "hash"
      blockNumber := ← Quantity.read64 (← textField j "blockNumber")
      transactionIndex := ← Quantity.read64 (← textField j "transactionIndex")
      sender := ← textField j "from"
      recipient := (j.field "to").string?
      amount := ← Quantity.readDecimal (textFieldOr j "value" "0x0")
      gas := ← Quantity.read (textFieldOr j "gas" "0x0")
      gasPrice := ← Quantity.read (textFieldOr j "gasPrice" "0x0")
      nonce := ← Quantity.read64 (textFieldOr j "nonce" "0x0")
      input := textFieldOr j "input" "0x" }

/-- Reads a block. Its transactions have no log entries yet. -/
def readBlock (j : Json) : Except AnswerError Block := do
  let transactions ← readItems readTransaction (((j.field "transactions").array?).getD [])
  return {
    number := ← Quantity.read64 (← textField j "number")
    hash := ← textField j "hash"
    parentHash := ← textField j "parentHash"
    timestamp := wrapSigned (← Quantity.read64 (← textField j "timestamp"))
    miner := textFieldOr j "miner" ""
    gasUsed := ← Quantity.read (textFieldOr j "gasUsed" "0x0")
    gasLimit := ← Quantity.read (textFieldOr j "gasLimit" "0x0")
    transactions := transactions }

def readTopic (j : Json) : Except AnswerError String :=
  match j.string? with
  | some s => .ok s
  | none => .error .topic

def readLogEntry (j : Json) : Except AnswerError LogEntry := do
  match (j.field "topics").array? with
  | none => throw (.missingField "topics")
  | some topics =>
    let topics ← readItems readTopic topics
    return {
      address := ← textField j "address"
      topics := topics
      data := ← Quantity.readData (textFieldOr j "data" "0x")
      blockNumber := ← Quantity.read64 (← textField j "blockNumber")
      transactionHash := ← textField j "transactionHash"
      transactionIndex := ← Quantity.read64 (← textField j "transactionIndex")
      logIndex := ← Quantity.read64 (← textField j "logIndex")
      removed := ((j.field "removed").bool?).getD false }

/-- The entries of a transaction, given all entries in the order of their indices. A transaction
without any keeps those that it has. -/
def attachTo (sorted : List LogEntry) (t : Transaction) : Transaction :=
  match sorted.filter fun l => Text.equalFold l.transactionHash t.hash with
  | [] => t
  | own => { t with logs := own }

/-- Gives each transaction its log entries, sorted by their index. -/
def attachLogs (b : Block) (logs : List LogEntry) : Block :=
  let sorted := logs.mergeSort fun l m => l.logIndex ≤ m.logIndex
  { b with transactions := b.transactions.map (attachTo sorted) }

end ChainQuery.Node
