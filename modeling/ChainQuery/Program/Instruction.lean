import ChainQuery.Abi.Event
import ChainQuery.Expression.Builtin
import ChainQuery.Expression.Predicate
import ChainQuery.Output.Attribute
import ChainQuery.Program.Addresses
import ChainQuery.Program.ContractRead
import ChainQuery.Program.Range

/-!
# Programs

A program is a list of instructions. An instruction is a statement, or a filter with a body that runs
for each element that passes.
-/

namespace ChainQuery

structure AttributeField where
  name : String
  type : AttributeType
  value : Term
deriving DecidableEq, Repr, Inhabited

/-- What is put out, with the terms of its values. -/
inductive Emission where
  | row (table : String) (columns : List (String × Term))
  /-- A line of the texts of values, without anything between them. -/
  | line (values : List Term)
  | trace (process instanceId : Term) (fields : List AttributeField)
  | event (process instanceId : Term) (id : Option Term) (fields : List AttributeField)
  | request (uri : Term) (fields : List (String × Term))
deriving DecidableEq, Repr, Inhabited

/-- What a body is run for: every element that passes, or once. -/
inductive Filter where
  | blocks (range : BlockRange)
  | transactions (senders recipients : AddressCriterion)
  | logEntries (contracts : AddressCriterion) (signature : Option EventSignature)
  /-- Once, with values of a contract bound. -/
  | contract (address : Term) (reads : List ContractRead)
  | condition (predicate : Predicate)
deriving Repr, Inhabited, BEq

def Filter.kind : Filter → FilterKind
  | blocks _ => .blocks
  | transactions _ _ => .transactions
  | logEntries _ _ => .logEntries
  | contract _ _ => .contract
  | condition _ => .condition

/-- Instructions, which form trees by the bodies of their filters. -/
inductive Instruction where
  | sequence (body : List Instruction)
  | filter (filter : Filter) (body : List Instruction)
  | assign (target : Target) (value : Term)
  | call (method : Builtin) (args : List Term) (target : Option Target)
  | emit (emission : Emission)
  | setFolder (path : String)
  | connect (url : String)
deriving Repr, Inhabited, BEq

def Instruction.kind : Instruction → String
  | sequence _ => "sequence"
  | filter f _ =>
    match f.kind with
    | .blocks => "block filter"
    | k => k.text
  | assign _ _ => "assignment"
  | call _ _ _ => "method call"
  | emit _ => "emission"
  | setFolder _ => "output folder"
  | connect _ => "connection"

structure Program where
  instructions : List Instruction
deriving Repr, Inhabited, BEq

end ChainQuery
