import ChainQuery.Expression.Term
import ChainQuery.Text.Blank
import ChainQuery.Value.Compare

/-!
# Predicates

Boolean expressions over terms. Both operands of a comparison are read before they are compared;
`and` and `or` do not look at their second operand when the first one decides. Types are checked when
a predicate is evaluated.
-/

namespace ChainQuery

inductive Comparator where
  | equal
  | unequal
  | greater
  | atLeast
  | less
  | atMost
  /-- The left operand is an element of the right one. -/
  | member
deriving DecidableEq, Repr, Inhabited

namespace Comparator

def all : List Comparator := [equal, unequal, greater, atLeast, less, atMost, member]

def symbol : Comparator → String
  | equal => "=="
  | unequal => "!="
  | greater => ">"
  | atLeast => ">="
  | less => "<"
  | atMost => "<="
  | member => "in"

def read (text : String) : Except BuildError Comparator :=
  let symbol := Text.trim text
  match all.find? fun c => c.symbol == symbol with
  | some c => .ok c
  | none => .error (.unsupportedComparator symbol)

def holds (c : Comparator) (a b : Value) : Except ExecutionError Bool :=
  match c with
  | equal => a.equals b
  | unequal => (a.equals b).map not
  | greater => (a.compare b).map fun o => o == .gt
  | atLeast => (a.compare b).map fun o => o != .lt
  | less => (a.compare b).map fun o => o == .lt
  | atMost => (a.compare b).map fun o => o != .gt
  | member => b.contains a

end Comparator

inductive Predicate where
  | compare (comparator : Comparator) (left right : Term)
  | and (left right : Predicate)
  | or (left right : Predicate)
  | not (operand : Predicate)
  | term (t : Term)
deriving DecidableEq, Repr, Inhabited

/-- The right side is not evaluated when the left one decides, so its failures do not show then. -/
def Predicate.eval (view : View) : Predicate → Except ExecutionError Bool
  | compare c left right => do
    let a ← left.eval view
    let b ← right.eval view
    c.holds a b
  | and left right => do
    if ← left.eval view then right.eval view else return false
  | or left right => do
    if ← left.eval view then return true else right.eval view
  | not operand => return !(← operand.eval view)
  | term t => do (← t.eval view).toBool

end ChainQuery
