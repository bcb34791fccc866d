import ChainQuery.Expression.Term

/-!
# Ranges of blocks

The two bounds of a scan. A bound is a number, the genesis block or the head of the chain; an upper
bound may also be missing, so that the scan follows the head.
-/

namespace ChainQuery

inductive Bound where
  | number (t : Term)
  | current
  | earliest
  | continuous
deriving DecidableEq, Repr, Inhabited

namespace Bound

def word : Bound → String
  | number _ => "NUMBER"
  | current => "CURRENT"
  | earliest => "EARLIEST"
  | continuous => "CONTINUOUS"

def text : Bound → String
  | number (.literal v) => v.text
  | number (.named name) => name
  | number (.chain f) => f.name
  | b => b.word

def isContinuous (b : Bound) : Bool :=
  b == continuous

/-- The block number that a bound has whatever the run does. -/
def fixed? : Bound → Option Nat
  | number (.literal v) => v.toBlockNumber.toOption
  | earliest => some 0
  | _ => none

end Bound

/-- A range of blocks, both ends included. -/
structure BlockRange where
  first : Bound
  last : Bound
deriving DecidableEq, Repr, Inhabited

namespace BlockRange

/-- The range between two bounds. The genesis block is no upper bound, and of two bounds that are
known the second must not be smaller. -/
def make (first last : Bound) : Except BuildError BlockRange :=
  if last = .earliest then .error (.invalidRange .earliestUpper)
  else
    match first.fixed?, last.fixed? with
    | some a, some b =>
      if b < a then .error (.invalidRange (.reversed a b)) else .ok ⟨first, last⟩
    | _, _ => .ok ⟨first, last⟩

def text (r : BlockRange) : String :=
  r.first.text ++ ".." ++ r.last.text

end BlockRange
end ChainQuery
