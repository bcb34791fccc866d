import ChainQuery.Config

/-!
# Staged output

What is emitted while a block is visited is staged until the block ends, and is then committed or
discarded as a whole. The mode decides whether committed items are due at the end of the block or at
the end of the program.
-/

namespace ChainQuery

/-- Items in the order of their emission, all committed ones before all staged ones. -/
structure Staging (α : Type) where
  mode : EmissionMode
  staged : List α := []
  committed : List α := []
deriving Repr, Inhabited

namespace Staging

def push (s : Staging α) (item : α) : Staging α :=
  { s with staged := s.staged ++ [item] }

def discard (s : Staging α) : Staging α :=
  { s with staged := [] }

/-- Commits the staged items; the second part is due now. -/
def endBlock (s : Staging α) : Staging α × List α :=
  match s.mode with
  | .block => ({ s with staged := [], committed := [] }, s.committed ++ s.staged)
  | .program => ({ s with staged := [], committed := s.committed ++ s.staged }, [])

/-- Commits the staged items; everything is due. -/
def endProgram (s : Staging α) : Staging α × List α :=
  ({ s with staged := [], committed := [] }, s.committed ++ s.staged)

/-- The items that were not due yet, in the order of their emission. -/
def pending (s : Staging α) : List α :=
  s.committed ++ s.staged

theorem pending_push (s : Staging α) (item : α) : (s.push item).pending = s.pending ++ [item] := by
  simp [pending, push]

theorem endBlock_pending (s : Staging α) :
    s.endBlock.2 ++ s.endBlock.1.pending = s.pending := by
  unfold endBlock pending
  split <;> simp

end Staging
end ChainQuery
