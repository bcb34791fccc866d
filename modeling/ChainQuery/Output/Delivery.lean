import ChainQuery.Json.Printer
import ChainQuery.Output.Staging
import ChainQuery.Wire

/-!
# Deliveries

Requests that are posted as flat objects of texts. A request is tried again as often as the settings
say; one that still fails is kept as a dead letter. A delivery never fails the run.
-/

namespace ChainQuery

structure Delivery where
  uri : String
  fields : List (String × String)
deriving DecidableEq, Repr, Inhabited

namespace Delivery

def insertField (name text : String) : List (String × String) → List (String × String)
  | [] => [(name, text)]
  | f :: fields =>
    if name = f.1 then (name, text) :: fields
    else if name < f.1 then (name, text) :: f :: fields
    else f :: insertField name text fields

/-- The request with given fields, of which the last one of each name counts. -/
def make (uri : String) (fields : List (String × String)) : Delivery :=
  ⟨uri, fields.foldl (fun sorted f => insertField f.1 f.2 sorted) []⟩

/-- The fields as one object of texts. -/
def body (d : Delivery) : Json :=
  .object (d.fields.map fun (name, text) => (name, .string text))

def post (d : Delivery) : Post :=
  ⟨d.uri, d.body.text⟩

/-- Posts a request until it succeeds, once and then up to `retries` times again. -/
def attempt (d : Delivery) (w : Wire) (retries : Nat) : Wire × Bool :=
  let (w, reply) := w.send d.post
  if reply.isSuccess then (w, true)
  else
    match retries with
    | 0 => (w, false)
    | n + 1 => attempt d w n

end Delivery

/-- The requests that wait, and what became of the others. -/
structure Deliveries where
  retry : RetryConfig
  requests : Staging Delivery
  delivered : Nat := 0
  /-- The requests that were given up, in order. -/
  deadLetters : List Delivery := []
deriving Inhabited

namespace Deliveries

def add (ds : Deliveries) (d : Delivery) : Deliveries :=
  { ds with requests := ds.requests.push d }

/-- Settles requests in order, each before the next one is posted. -/
def deliver (ds : Deliveries) (w : Wire) : List Delivery → Deliveries × Wire
  | [] => (ds, w)
  | d :: due =>
    match d.attempt w ds.retry.maxRetries with
    | (w, true) => deliver { ds with delivered := ds.delivered + 1 } w due
    | (w, false) => deliver { ds with deadLetters := ds.deadLetters ++ [d] } w due

def endBlock (ds : Deliveries) (w : Wire) : Deliveries × Wire :=
  let (requests, due) := ds.requests.endBlock
  deliver { ds with requests := requests } w due

def discard (ds : Deliveries) : Deliveries :=
  { ds with requests := ds.requests.discard }

def endProgram (ds : Deliveries) (w : Wire) : Deliveries × Wire :=
  let (requests, due) := ds.requests.endProgram
  deliver { ds with requests := requests } w due

end Deliveries
end ChainQuery
