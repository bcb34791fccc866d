import ChainQuery.Expression.Predicate

/-!
# Queries as they are written

The parts of a query before their types and names are looked up, and the events by which a reader of
the query text hands them over: a scope is entered, its parts follow, and it is exited together with
what its head says.
-/

namespace ChainQuery

/-- An operand: a literal, perhaps with a type, or a name. -/
inductive WrittenValue where
  | literal (text : String)
  | typed (keyword text : String)
  | named (name : String)
deriving DecidableEq, Repr, Inhabited

inductive WrittenBound where
  | number (value : WrittenValue)
  | current
  | earliest
  | continuous
deriving DecidableEq, Repr, Inhabited

inductive WrittenAddresses where
  | any
  | literals (texts : List String)
  | held (variableName : String)
deriving DecidableEq, Repr, Inhabited

structure WrittenParameter where
  type : String
  name : String
  indexed : Bool
deriving DecidableEq, Repr, Inhabited

structure WrittenEvent where
  name : String
  parameters : List WrittenParameter
deriving DecidableEq, Repr, Inhabited

inductive WrittenRead where
  /-- A function with its arguments and its results, each after its type. -/
  | function (name : String) (inputs : List (String × WrittenValue))
      (outputs : List (String × String))
  | getter (type name : String)
deriving DecidableEq, Repr, Inhabited

structure WrittenAttribute where
  type : String
  name : String
  value : WrittenValue
deriving DecidableEq, Repr, Inhabited

/-- What is reported while a query is read. A scope is entered before what it holds and left after
that. -/
inductive QueryEvent where
  | position (line column : Nat)
  | enterProgram
  | exitProgram
  | outputFolder (literal : String)
  | connection (literal : String)
  | enterFilter (kind : FilterKind)
  | exitBlocks (first last : WrittenBound)
  | exitTransactions (senders recipients : WrittenAddresses)
  | exitLogEntries (contracts : WrittenAddresses) (signature : Option WrittenEvent)
  | exitContract (address : WrittenValue) (reads : List WrittenRead)
  /-- The condition is what the operands and operators since then make. -/
  | exitCondition
  | operand (value : WrittenValue)
  | comparison (symbol : String)
  | conjunction
  | disjunction
  | negation
  | declaration (type name : String) (value : WrittenValue)
  | assignment (name : String) (value : WrittenValue)
  | call (target : Option String) (method : String) (args : List WrittenValue)
  | emitRow (table : String) (columns : List (String × WrittenValue))
  | emitLine (values : List WrittenValue)
  | emitTrace (process instanceId : WrittenValue) (fields : List WrittenAttribute)
  | emitEvent (process instanceId : WrittenValue) (id : Option WrittenValue)
      (fields : List WrittenAttribute)
  | emitRequest (uri : WrittenValue) (fields : List (String × WrittenValue))
deriving DecidableEq, Repr, Inhabited

end ChainQuery
