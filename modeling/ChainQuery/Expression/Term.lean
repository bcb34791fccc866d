import ChainQuery.Expression.Field
import ChainQuery.Expression.View
import ChainQuery.Query.Error

/-!
# Terms

The operands of a query: a fixed value, a variable, or a reserved name. A term is read in a view and
fails when the variable is not set or nothing of its kind is current.
-/

namespace ChainQuery

inductive Term where
  | literal (value : Value)
  | named (variableName : String)
  | chain (field : ChainField)
deriving DecidableEq, Repr, Inhabited

def ChainField.read (view : View) : ChainField → Except ExecutionError Value
  | block f =>
    match view.block with
    | some b => .ok (f.read b)
    | none => .error (.missingCursor .block)
  | transaction f =>
    match view.transaction with
    | some t => f.read t
    | none => .error (.missingCursor .transaction)
  | logEntry f =>
    match view.logEntry with
    | some l => .ok (f.read l)
    | none => .error (.missingCursor .logEntry)

def View.read (view : View) (name : String) : Except ExecutionError Value :=
  match view.variables.get? name with
  | some v => .ok v
  | none => .error (.unknownVariable name)

namespace Term

/-- The term that a name stands for: a reserved name before a variable. -/
def ofName (name : String) : Term :=
  match ChainField.ofName? name with
  | some f => chain f
  | none => named name

def name? : Term → Option String
  | literal _ => none
  | named name => some name
  | chain f => some f.name

def eval (view : View) : Term → Except ExecutionError Value
  | literal v => .ok v
  | named name => view.read name
  | chain f => f.read view

def evalText (view : View) (t : Term) : Except ExecutionError String :=
  (t.eval view).map Value.text

end Term

/-- A variable that an instruction may write. -/
structure Target where
  name : String
deriving DecidableEq, Repr, Inhabited

/-- The target with a given name, which must not be a reserved one. -/
def Target.ofName (name : String) : Except BuildError Target :=
  match ChainField.ofName? name with
  | some _ => .error (.reservedTarget name)
  | none => .ok ⟨name⟩

end ChainQuery
