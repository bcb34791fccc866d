import ChainQuery.Expression.Predicate

/-!
# Predicates from their traversal

A predicate arrives as the traversal of its tree in which every operator follows its operands. The
operands that wait for an operator form a stack, and each operator takes its own from the top of it.
-/

namespace ChainQuery

/-- A step of a condition that is written with its operands first. -/
inductive PredicateStep where
  | operand (t : Term)
  | compare (comparator : Comparator)
  | and
  | or
  | not
deriving DecidableEq, Repr, Inhabited

/-- What a step has left on the stack. -/
inductive Operand where
  | term (t : Term)
  | predicate (p : Predicate)
deriving DecidableEq, Repr, Inhabited

namespace Operand

/-- An operand as a predicate. A fixed value that is not a truth value is none. -/
def toPredicate : Operand → Except BuildError Predicate
  | predicate p => .ok p
  | term (.literal (.bool b)) => .ok (.term (.literal (.bool b)))
  | term (.literal _) => .error .requiresPredicate
  | term t => .ok (.term t)

def join (op : Predicate → Predicate → Predicate) :
    List Operand → Except BuildError (List Operand)
  | right :: left :: rest => do
    let p ← left.toPredicate
    let q ← right.toPredicate
    return predicate (op p q) :: rest
  | _ => .error .booleanExpressionTree

/-- The stack after a step, its top first. -/
def step (stack : List Operand) : PredicateStep → Except BuildError (List Operand)
  | .operand t => .ok (term t :: stack)
  | .compare c =>
    match stack with
    | term right :: term left :: rest => .ok (predicate (.compare c left right) :: rest)
    | _ :: _ :: _ => .error .canOnlyCompareValues
    | _ => .error .booleanExpressionTree
  | .and => join .and stack
  | .or => join .or stack
  | .not =>
    match stack with
    | top :: rest => do
      let p ← top.toPredicate
      return predicate (.not p) :: rest
    | [] => .error .booleanExpressionTree

/-- A condition is complete when its steps have left one operand. -/
def finish : List Operand → Except BuildError Predicate
  | [last] => last.toPredicate
  | _ => .error .booleanExpressionTree

end Operand
end ChainQuery
