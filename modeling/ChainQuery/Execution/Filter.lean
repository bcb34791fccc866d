import ChainQuery.Execution.Scan
import ChainQuery.Program.Instruction

/-!
# Filters

A filter runs its body for the elements that pass. The failure of one element is handled, and the
filter goes on with the next one unless the run has to end.
-/

namespace ChainQuery

namespace TransactionScope

def context (t : Transaction) : String :=
  "transaction " ++ t.hash

/-- The recipient is only looked at when the sender passes. -/
def passes (senders recipients : AddressCriterion) (t : Transaction) (view : View) :
    Except ExecutionError Bool := do
  if ← senders.accepts view.variables (some t.sender) then
    recipients.accepts view.variables t.recipient
  else return false

def visit (body : Run Unit) (t : Transaction) : Run Unit := do
  Run.resume (← Run.visiting (.transaction t) body)

/-- Visits the transactions that pass. Testing a transaction is guarded like visiting it. -/
def visitAll (senders recipients : AddressCriterion) (body : Run Unit) :
    List Transaction → Run Unit
  | [] => return
  | t :: ts => do
    Run.guarded (context t) do
      if ← Run.inView (passes senders recipients t) then visit body t
    visitAll senders recipients body ts

def run (senders recipients : AddressCriterion) (body : Run Unit) : Run Unit := do
  match (← get).block with
  | some b => visitAll senders recipients body b.transactions
  | none => Run.raise (.structural "transaction filter outside of a block scope")

end TransactionScope

namespace LogEntryScope

def context (l : LogEntry) : String :=
  "log entry " ++ l.transactionHash ++ ":" ++ Text.decimal l.logIndex

/-- The log entries in reach: those of the current transaction, or else of the current block. -/
def candidates (view : View) : Except ExecutionError (List LogEntry) :=
  match view.transaction, view.block with
  | some t, _ => .ok t.logs
  | none, some b => .ok b.logs
  | none, none => .error (.structural "log entry filter outside of a block or transaction scope")

/-- Without a signature every log entry fits. -/
def fits (signature : Option EventSignature) (l : LogEntry) : Bool :=
  match signature with
  | some e => e.isEventOf l
  | none => true

/-- Binds the parameters of the event, which stay bound after the visit. -/
def bind (signature : Option EventSignature) (l : LogEntry) : Run Unit := do
  match signature with
  | some e => do
    let bindings ← Run.ofExcept (e.decode l)
    modify fun s => s.setVariables bindings
  | none => return

def visit (body : Run Unit) (l : LogEntry) : Run Unit := do
  Run.resume (← Run.visiting (.logEntry l) body)

/-- Visits the log entries that pass, each with the parameters of the event bound. -/
def visitAll (contracts : AddressCriterion) (signature : Option EventSignature)
    (body : Run Unit) : List LogEntry → Run Unit
  | [] => return
  | l :: ls => do
    Run.guarded (context l) do
      if ← Run.inView fun view => contracts.accepts view.variables (some l.address) then
        if fits signature l then
          bind signature l
          visit body l
    visitAll contracts signature body ls

def run (contracts : AddressCriterion) (signature : Option EventSignature) (body : Run Unit) :
    Run Unit := do
  visitAll contracts signature body (← Run.inView candidates)

end LogEntryScope

namespace ContractScope

def context (contract : String) : String :=
  "smart contract " ++ contract

def contractText (address : Term) (view : View) : Except ExecutionError String := do
  (← address.eval view).toText

/-- Makes calls one after the other, whatever they return. -/
def callAll (chain : ChainSource) (contract : String) (block : Option Nat) :
    List (ContractRead × List UInt8) → Run (List (Except ExecutionError (List (String × Value))))
  | [] => return []
  | (read, data) :: calls => do
    let before ← Run.note (.call contract data block)
    let result := match chain.call before contract data block with
      | .ok answer => read.decodeResult answer
      | .error e => .error (.chain e)
    return result :: (← callAll chain contract block calls)

/-- Reads values of a contract, binds them all and runs the body. A failure binds nothing. -/
def run (address : Term) (reads : List ContractRead) (body : Run Unit) : Run Unit := do
  let contract ← Run.inView (contractText address)
  match ← Run.outcome (Run.inView fun view => reads.mapM (ContractRead.encodeCall view)) with
  | .error e => Run.report (context contract) e
  | .ok data => do
    let chain ← Run.attached
    let block := (← get).block.map Block.number
    let results ← callAll chain contract block (reads.zip data)
    match results.mapM id with
    | .error e => Run.fail (context contract) e
    | .ok bindings => do
      modify fun s => s.setVariables bindings.flatten
      body

end ContractScope

/-- Runs the body for what passes the filter, within `looks` for each scan without end. -/
def Filter.run (looks : Nat) (f : Filter) (body : Run Unit) : Run Unit :=
  match f with
  | blocks range => Scan.run looks range body
  | transactions senders recipients => TransactionScope.run senders recipients body
  | logEntries contracts signature => LogEntryScope.run contracts signature body
  | contract address reads => ContractScope.run address reads body
  | condition predicate => do
    if ← Run.inView predicate.eval then body

end ChainQuery
