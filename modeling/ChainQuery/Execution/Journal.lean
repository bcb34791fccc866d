import ChainQuery.Chain.Source
import ChainQuery.Execution.Error
import ChainQuery.Expression.View
import ChainQuery.Output.Outputs
import ChainQuery.Program.Instruction

/-!
# The histories of a run

The journal: which elements a run has visited and what it has done to its outputs, in order. The deeds:
everything that it does, which is besides the entries of the journal the instructions that begin, the
questions to the chain, the variables that are bound, and the failures, which are raised once and then
handled in the scopes that they leave. Both are only written: no step of a run depends on them.
-/

namespace ChainQuery

inductive Element where
  | block (b : Block)
  | transaction (t : Transaction)
  | logEntry (l : LogEntry)
deriving DecidableEq, Repr, Inhabited

def Element.cursor : Element → Cursor
  | block _ => .block
  | transaction _ => .transaction
  | logEntry _ => .logEntry

/-- A visit that begins or ends, or something that happens to the outputs. -/
inductive JournalEntry where
  | entered (e : Element)
  /-- A visit ends, perhaps with the failure of its body. -/
  | left (c : Cursor) (failure : Option ExecutionError)
  | staged (item : OutputItem)
  | moved (path : String)
  /-- The program is over, perhaps with the failure that ended it. -/
  | closed (failure : Option ExecutionError)
deriving DecidableEq, Repr, Inhabited

/-- The entries so far, the first one first. -/
abbrev Journal := List JournalEntry

/-- One thing that a run does. -/
inductive Deed where
  /-- An instruction begins, with what it sees. -/
  | began (i : Instruction) (view : View)
  | asked (i : Inquiry)
  | bound (bindings : List (String × Value))
  | noted (e : JournalEntry)
  /-- Something fails that has not failed before. -/
  | raised (e : ExecutionError)
  /-- A failure is recorded, and ends the run or is over with that. -/
  | recorded (context : String) (e : ExecutionError) (ends : Bool)
  /-- A failure that ends the run already passes through a context. -/
  | passed (context : String) (e : ExecutionError)
deriving Inhabited

end ChainQuery
