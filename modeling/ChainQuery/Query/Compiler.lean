import ChainQuery.Expression.Operand
import ChainQuery.Query.Composer
import ChainQuery.Query.Statement

/-!
# The compiler

Events of reading a query become a program. The compiler keeps the open scopes, the operands of the
condition that is being read, and what it knows of the types of variables. A failing event reports
its cause and the place that was given last, and reading may go on after it.
-/

namespace ChainQuery

/-- What is known in the middle of a program. -/
structure Draft extends TypeFacts where
  composer : Composer := {}
  operands : List Operand := []
deriving Inhabited

/-- A draft with the last place that was given. -/
structure Compiler extends Draft where
  position : Option Position := none
deriving Inhabited

/-- A step of compilation. What it changed before a failure stays changed. -/
abbrev Compiling := ExceptT BuildError (StateM Draft)

namespace Compiling

def check (e : Except BuildError α) : Compiling α :=
  ExceptT.mk (pure e)

def reading (x : Reading α) : Compiling α :=
  ExceptT.mk fun d =>
    let (result, facts) := x.run d.toTypeFacts
    (result, { d with toTypeFacts := facts })

end Compiling

def WrittenAddresses.toCriterion : WrittenAddresses → Except BuildError AddressCriterion
  | any => .ok .any
  | held name => .ok (.held name)
  | literals texts =>
    (texts.mapM fun text =>
      (Literal.read .address text.toList).map fun _ => Text.trim text).map .listed

def WrittenEvent.toSignature (e : WrittenEvent) : Except BuildError EventSignature :=
  (e.parameters.mapM fun p => Parameter.make p.name p.type p.indexed).map fun ps => ⟨e.name, ps⟩

def WrittenRead.toRead : WrittenRead → Except BuildError ContractRead
  | function name inputs outputs => do
    let arguments ← inputs.mapM fun (type, value) => do
      let t ← match value with
        | .literal _ => do value.toTermAt (← ValueType.read type)
        | _ => value.toTerm
      Argument.make type t
    let results ← outputs.mapM fun (type, name) => Parameter.make name type
    ContractRead.ofFunction name arguments results
  | getter type name => (Parameter.make name type).map ContractRead.ofVariable

/-- The bound that is written; a number has to be an integer as far as its type is known. -/
def TypeFacts.toBound (f : TypeFacts) : WrittenBound → Except BuildError Bound
  | .number value => do
    let t ← value.toTerm
    if ValueType.int.accepts (f.typeOf t) then return .number t
    else throw (.invalidRange (.boundType (f.typeOf t)))
  | .current => .ok .current
  | .earliest => .ok .earliest
  | .continuous => .ok .continuous

namespace Draft

/-- Changes the open scopes, which stay the same when the change fails. -/
def compose (change : Composer → Except BuildError Composer) : Compiling Unit := do
  let d ← get
  let composer ← Compiling.check (change d.composer)
  set { d with composer := composer }

/-- Reads a statement and puts it into the innermost scope. What reading has learned stays when
there is none. -/
def state (x : Reading Instruction) : Compiling Unit := do
  let i ← Compiling.reading x
  compose fun c => c.add i

/-- Takes a step of the condition; a failure drops all its operands. -/
def operate (s : PredicateStep) : Compiling Unit := do
  let d ← get
  match Operand.step d.operands s with
  | .ok operands => set { d with operands := operands }
  | .error e =>
    set { d with operands := [] }
    throw e

/-- Ends the condition, whose operands are dropped in any case. -/
def takePredicate : Compiling Predicate := do
  let d ← get
  set { d with operands := [] }
  Compiling.check (Operand.finish d.operands)

/-- Closes the innermost scope with a filter, which is read before the scope is looked at. -/
def close (head : TypeFacts → Except BuildError Filter) : Compiling Unit := do
  let f ← Compiling.check (head (← get).toTypeFacts)
  compose fun c => c.closeFilter f

def blocksFilter (first last : WrittenBound) (f : TypeFacts) : Except BuildError Filter := do
  let first ← f.toBound first
  let last ← f.toBound last
  return .blocks (← BlockRange.make first last)

def transactionsFilter (senders recipients : WrittenAddresses) : Except BuildError Filter := do
  let senders ← senders.toCriterion
  let recipients ← recipients.toCriterion
  return .transactions senders recipients

def logEntriesFilter (contracts : WrittenAddresses) (signature : Option WrittenEvent) :
    Except BuildError Filter := do
  let contracts ← contracts.toCriterion
  match signature with
  | some e => return .logEntries contracts (some (← e.toSignature))
  | none => return .logEntries contracts none

def contractFilter (address : WrittenValue) (reads : List WrittenRead) :
    Except BuildError Filter := do
  let address ← address.toTerm
  let reads ← reads.mapM WrittenRead.toRead
  return .contract address reads

/-- Compiles an event; the exit of the program gives the program. -/
def compile : QueryEvent → Compiling (Option Program)
  | .position _ _ => return none
  | .enterProgram => do
    compose Composer.openProgram
    return none
  | .exitProgram => do
    let d ← get
    let (program, composer) ← Compiling.check d.composer.closeProgram
    set { d with composer := composer }
    return some program
  | .outputFolder literal => do
    state (Reading.outputFolder literal)
    return none
  | .connection literal => do
    state (Reading.connection literal)
    return none
  | .enterFilter kind => do
    compose fun c => c.openFilter kind
    return none
  | .exitBlocks first last => do
    close (blocksFilter first last)
    return none
  | .exitTransactions senders recipients => do
    close fun _ => transactionsFilter senders recipients
    return none
  | .exitLogEntries contracts signature => do
    close fun _ => logEntriesFilter contracts signature
    return none
  | .exitContract address reads => do
    close fun _ => contractFilter address reads
    return none
  | .exitCondition => do
    let p ← takePredicate
    compose fun c => c.closeFilter (.condition p)
    return none
  | .operand value => do
    operate (.operand (← Compiling.check value.toTerm))
    return none
  | .comparison symbol => do
    operate (.compare (← Compiling.check (Comparator.read symbol)))
    return none
  | .conjunction => do
    operate .and
    return none
  | .disjunction => do
    operate .or
    return none
  | .negation => do
    operate .not
    return none
  | .declaration type name value => do
    state (Reading.declare type name value)
    return none
  | .assignment name value => do
    state (Reading.assign name value)
    return none
  | .call target method args => do
    state (Reading.call target method args)
    return none
  | .emitRow table columns => do
    state (Reading.row table columns)
    return none
  | .emitLine values => do
    state (Reading.line values)
    return none
  | .emitTrace process instanceId fields => do
    state (Reading.trace process instanceId fields)
    return none
  | .emitEvent process instanceId id fields => do
    state (Reading.event process instanceId id fields)
    return none
  | .emitRequest uri fields => do
    state (Reading.request uri fields)
    return none

end Draft

namespace Compiler

def locate (c : Compiler) : QueryEvent → Compiler
  | .position line column => { c with position := some ⟨line, column⟩ }
  | _ => c

/-- Compiles an event. The state after a failure is returned as well. -/
def step (c : Compiler) (e : QueryEvent) :
    Except LocatedError (Option Program) × Compiler :=
  let c := c.locate e
  match (Draft.compile e).run c.toDraft with
  | (.ok program, d) => (.ok program, { c with toDraft := d })
  | (.error cause, d) => (.error ⟨cause, c.position⟩, { c with toDraft := d })

end Compiler
end ChainQuery
