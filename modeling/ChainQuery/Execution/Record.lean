import ChainQuery.Execution.Error

/-!
# The record of failures

Every failure that is handled is counted, and the last hundred messages are kept. A fatal failure, or
any failure when the settings say so, is handed back to end the run; from then on failures only pass
through, so that each is recorded once however many scopes it leaves.
-/

namespace ChainQuery

/-- The failures so far; `aborting` from the one on that ends the run. -/
structure ErrorRecord where
  abortOnError : Bool
  aborting : Bool := false
  reported : Nat := 0
  /-- The last messages, the oldest first. -/
  recent : List String := []
deriving DecidableEq, Repr, Inhabited

namespace ErrorRecord

def capacity : Nat := 100

/-- Appends a message. The oldest one gives way when the record is full. -/
def remember (recent : List String) (message : String) : List String :=
  (if recent.length < capacity then recent else recent.drop 1) ++ [message]

def ends (r : ErrorRecord) (e : ExecutionError) : Bool :=
  e.isFatal || r.abortOnError

/-- Handles a failure that happened in a context. It comes back when the run has to end. -/
def handle (r : ErrorRecord) (context : String) (e : ExecutionError) :
    Except ExecutionError Unit × ErrorRecord :=
  if r.aborting then (.error e, r)
  else
    let recorded : ErrorRecord :=
      { r with
        reported := r.reported + 1
        recent := remember r.recent (context ++ ": " ++ e.message) }
    if r.ends e then (.error e, { recorded with aborting := true }) else (.ok (), recorded)

end ErrorRecord
end ChainQuery
