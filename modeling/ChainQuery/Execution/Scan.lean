import ChainQuery.Execution.State
import ChainQuery.Expression.Term
import ChainQuery.Program.Range

/-!
# Scans

A scan visits the blocks of a range in ascending order. Its lower bound is resolved at the start and
its upper bound once, at the first look; then the number of blocks is known, and a block that cannot
be fetched is reported and passed over. A scan without upper bound asks for the same block again
until it gets it. A scan stops before the next block when the run is cancelled.
-/

namespace ChainQuery

/-- The block number of a bound at this moment, nothing for `null`. -/
def Bound.resolve : Bound → Run (Option Nat)
  | number t => do
    match ← Run.inView t.eval with
    | .null => return none
    | v => some <$> Run.ofExcept v.toBlockNumber
  | earliest => return some 0
  | _ => some <$> Run.askHead

/-- A scan needs a number to start from, so that `null` is refused here. -/
def Bound.resolveFirst (b : Bound) : Run Nat := do
  match ← b.resolve with
  | some n => return n
  | none => Run.raise (.typeMismatch "block number" Value.null.text)

/-- The upper bound of a scan under way. -/
inductive Limit where
  | never
  | pending (b : Bound)
  /-- The number of the last block, nothing for `null`. -/
  | fixed (last : Option Nat)
deriving DecidableEq, Repr, Inhabited

namespace Limit

def ofBound (b : Bound) : Limit :=
  if b.isContinuous then never else pending b

def known? : Limit → Option (Option Nat)
  | fixed last => some last
  | _ => none

/-- No number is within a last number that is `null`. -/
def within (last : Option Nat) (number : Nat) : Bool :=
  match last with
  | some last => number ≤ last
  | none => false

/-- Whether a scan goes on with a number. The bound is resolved the first time. -/
def keepsGoing (l : Limit) (number : Nat) : Run (Bool × Limit) := do
  match l with
  | never => return (true, never)
  | fixed last => return (within last number, fixed last)
  | pending b => do
    let last ← b.resolve
    return (within last number, fixed last)

end Limit

namespace Scan

def context (number : Nat) : String :=
  "block " ++ Text.decimal number

def numberBound : Nat := Value.blockNumberBound

/-- Visits a block: the body runs with the block as the current one, and what it has staged is
committed, or discarded when it fails. -/
def visit (body : Run Unit) (b : Block) : Run Unit := do
  match ← Run.visiting (.block b) body with
  | .ok () => do
    match ← Run.tryOutputs Outputs.endBlock with
    | none => return
    | some e => Run.fail (context b.number) (.writer e)
  | .error e => do
    Run.onOutputs Outputs.discard
    Run.report (context b.number) e

/-- Fetches a block and visits it. The failure to fetch it is handled like that of a visit. -/
def look (body : Run Unit) (number : Nat) : Run Unit := do
  match ← Run.askBlock number with
  | .ok (some b) => visit body b
  | .ok none => Run.fail (context number) (.chain (.blockNotFound number))
  | .error e => Run.fail (context number) (.chain e)

/-- Looks at `count` numbers in a row. -/
def walk (body : Run Unit) (number : Nat) : Nat → Run Unit
  | 0 => return
  | count + 1 => do
    if (← get).cancelled then return
    look body number
    walk body (number + 1) count

/-- The steps without upper bound, at most `looks` of them. -/
def follow (body : Run Unit) (number : Nat) : Nat → Run Unit
  | 0 => Run.exhausted
  | looks + 1 => do
    if (← get).cancelled then return
    match ← Run.askBlock number with
    | .ok (some b) => do
      visit body b
      if number + 1 < numberBound then follow body (number + 1) looks
    | .ok none => follow body number looks
    | .error e => do
      Run.fail (context number) (.chain e)
      follow body number looks

/-- Runs the body for the blocks of a range. Every failure of the bounds is one of the whole scan. -/
def run (looks : Nat) (range : BlockRange) (body : Run Unit) : Run Unit := do
  let first ← range.first.resolveFirst
  if (← get).cancelled then return
  let (goes, limit) ← (Limit.ofBound range.last).keepsGoing first
  if !goes then return
  match limit.known? with
  | some (some last) => do
    look body first
    walk body (first + 1) (last - first)
  | _ => follow body first looks

end Scan
end ChainQuery
