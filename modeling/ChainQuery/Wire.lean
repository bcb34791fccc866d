/-!
# Requests over the network

Texts are posted to addresses, and what comes back may depend on everything posted before. The
requests are recorded.
-/

namespace ChainQuery

structure Post where
  uri : String
  body : String
deriving DecidableEq, Repr, Inhabited

inductive Reply where
  | dropped
  | answered (status : Nat) (body : String)
deriving DecidableEq, Repr, Inhabited

def Reply.isSuccess : Reply → Bool
  | dropped => false
  | answered status _ => 200 ≤ status && status < 300

/-- How the other side answers a request after the requests before it, the last one first. -/
abbrev Peer := List Post → Post → Reply

/-- The network and the requests so far, the last one first. -/
structure Wire where
  peer : Peer := fun _ _ => .dropped
  sent : List Post := []

instance : Inhabited Wire := ⟨{}⟩

def Wire.send (w : Wire) (p : Post) : Wire × Reply :=
  ({ w with sent := p :: w.sent }, w.peer w.sent p)

end ChainQuery
