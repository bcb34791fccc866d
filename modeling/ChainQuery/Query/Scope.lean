/-!
# Scopes of a query

A query is a program whose instructions may stand in nested scopes. Each scope below the program has
a filter that says for which elements its instructions run.
-/

namespace ChainQuery

/-- The kinds of filters, one for each constructor of `Filter`. -/
inductive FilterKind where
  | blocks
  | transactions
  | logEntries
  | contract
  | condition
deriving DecidableEq, Repr, Inhabited

def FilterKind.text : FilterKind → String
  | blocks => "block range filter"
  | transactions => "transaction filter"
  | logEntries => "log entry filter"
  | contract => "smart contract filter"
  | condition => "generic filter"

inductive ScopeKind where
  | program
  | filter (kind : FilterKind)
deriving DecidableEq, Repr, Inhabited

def ScopeKind.text : ScopeKind → String
  | program => "program"
  | filter kind => kind.text

end ChainQuery
