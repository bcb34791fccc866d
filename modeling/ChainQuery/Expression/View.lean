import ChainQuery.Chain.Block
import ChainQuery.NameMap
import ChainQuery.Value.Basic

/-!
# What an expression sees

The variables of the query, and the block, transaction and log entry that are current.
-/

namespace ChainQuery

/-- What instructions read: the variables and the current elements. -/
structure View where
  «variables» : NameMap Value := ∅
  block : Option Block := none
  transaction : Option Transaction := none
  logEntry : Option LogEntry := none
deriving Inhabited

end ChainQuery
