import ChainQuery.Query.Compiler

/-!
# Queries as trees

A query is a list of nodes: a statement, or a scope with its head and the nodes of its body. A walk of
the tree hands over the events by which the compiler reads it, and its elaboration is the instruction
that it stands for, made from the tree itself.
-/

namespace ChainQuery

inductive WrittenCondition where
  | value (v : WrittenValue)
  | compare (symbol : String) (left right : WrittenValue)
  | and (left right : WrittenCondition)
  | or (left right : WrittenCondition)
  | not (operand : WrittenCondition)
deriving DecidableEq, Repr, Inhabited

namespace WrittenCondition

/-- The traversal in which every operator follows its operands. -/
def events : WrittenCondition → List QueryEvent
  | value v => [.operand v]
  | compare symbol left right => [.operand left, .operand right, .comparison symbol]
  | and left right => left.events ++ right.events ++ [.conjunction]
  | or left right => left.events ++ right.events ++ [.disjunction]
  | not operand => operand.events ++ [.negation]

def toPredicate : WrittenCondition → Except BuildError Predicate
  | value v => do (Operand.term (← v.toTerm)).toPredicate
  | compare symbol left right => do
    let left ← left.toTerm
    let right ← right.toTerm
    return .compare (← Comparator.read symbol) left right
  | and left right => return .and (← left.toPredicate) (← right.toPredicate)
  | or left right => return .or (← left.toPredicate) (← right.toPredicate)
  | not operand => return .not (← operand.toPredicate)

end WrittenCondition

inductive WrittenHead where
  | blocks (first last : WrittenBound)
  | transactions (senders recipients : WrittenAddresses)
  | logEntries (contracts : WrittenAddresses) (signature : Option WrittenEvent)
  | contract (address : WrittenValue) (reads : List WrittenRead)
  | condition (c : WrittenCondition)
deriving DecidableEq, Repr, Inhabited

namespace WrittenHead

def kind : WrittenHead → FilterKind
  | blocks _ _ => .blocks
  | transactions _ _ => .transactions
  | logEntries _ _ => .logEntries
  | contract _ _ => .contract
  | condition _ => .condition

def conditionEvents : WrittenHead → List QueryEvent
  | condition c => c.events
  | _ => []

def exit : WrittenHead → QueryEvent
  | blocks first last => .exitBlocks first last
  | transactions senders recipients => .exitTransactions senders recipients
  | logEntries contracts signature => .exitLogEntries contracts signature
  | contract address reads => .exitContract address reads
  | condition _ => .exitCondition

def toFilter : WrittenHead → TypeFacts → Except BuildError Filter
  | blocks first last, f => Draft.blocksFilter first last f
  | transactions senders recipients, _ => Draft.transactionsFilter senders recipients
  | logEntries contracts signature, _ => Draft.logEntriesFilter contracts signature
  | contract address reads, _ => Draft.contractFilter address reads
  | condition c, _ => c.toPredicate.map .condition

end WrittenHead

def QueryEvent.statement? : QueryEvent → Option (Reading Instruction)
  | outputFolder literal => some (.outputFolder literal)
  | connection literal => some (.connection literal)
  | declaration type name value => some (.declare type name value)
  | assignment name value => some (.assign name value)
  | call target method args => some (.call target method args)
  | emitRow table columns => some (.row table columns)
  | emitLine values => some (.line values)
  | emitTrace process instanceId fields => some (.trace process instanceId fields)
  | emitEvent process instanceId id fields => some (.event process instanceId id fields)
  | emitRequest uri fields => some (.request uri fields)
  | _ => none

structure WrittenStatement where
  event : QueryEvent
  isStatement : event.statement?.isSome

def WrittenStatement.read (s : WrittenStatement) : Reading Instruction :=
  s.event.statement?.get s.isStatement

inductive QueryNode where
  | statement (s : WrittenStatement)
  | scope (head : WrittenHead) (body : List QueryNode)

namespace QueryNode

mutual

/-- The events of a node: those of its body stand between the entry of its scope and the exit. -/
def walk : QueryNode → List QueryEvent
  | statement s => [s.event]
  | scope head body =>
    .enterFilter head.kind :: (head.conditionEvents ++ (walkAll body ++ [head.exit]))

def walkAll : List QueryNode → List QueryEvent
  | [] => []
  | n :: ns => walk n ++ walkAll ns

end

mutual

/-- The instruction that a node stands for. The head of a scope is read after its body. -/
def elaborate : QueryNode → Reading Instruction
  | statement s => s.read
  | scope head body => do
    let body ← elaborateAll body
    let f ← Reading.check (head.toFilter (← get))
    return .filter f body

def elaborateAll : List QueryNode → Reading (List Instruction)
  | [] => return []
  | n :: ns => do
    let i ← elaborate n
    let is ← elaborateAll ns
    return i :: is

end

mutual

/-- No condition stands in the body of another one, and none at all `inside` an open one. -/
def apart (inside : Bool) : QueryNode → Bool
  | statement _ => true
  | scope head body =>
    if head.kind = .condition then !inside && apartAll true body else apartAll inside body

def apartAll (inside : Bool) : List QueryNode → Bool
  | [] => true
  | n :: ns => apart inside n && apartAll inside ns

end

end QueryNode
end ChainQuery
