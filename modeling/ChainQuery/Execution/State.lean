import ChainQuery.Execution.Journal
import ChainQuery.Execution.Record

/-!
# The state of a run

What instructions read and change, and the steps that they are made of. A step may fail with an
execution error and keeps what it has changed until then. A step has no result at all when a scan
without end has used up the number of looks at the chain that it was given.
-/

namespace ChainQuery

structure RunState extends View where
  chain : Option ChainSource := none
  connector : Option Connector := none
  outputs : Outputs
  errors : ErrorRecord
  asked : History := []
  /-- Whether the run is cancelled once these questions have been asked. -/
  cancels : History → Bool := fun _ => false
  cancelled : Bool := false
  journal : Journal := []
  /-- What the run has done, the last deed first. -/
  deeds : List Deed := []
deriving Inhabited

namespace RunState

def start (config : RunConfig) (disk : Disk) (wire : Wire) : RunState :=
  { outputs := Outputs.start config disk wire
    errors := { abortOnError := config.abortOnError } }

def log (s : RunState) (d : Deed) : RunState :=
  { s with deeds := d :: s.deeds }

def setVariable (s : RunState) (name : String) (v : Value) : RunState :=
  { s with «variables» := s.variables.set name v }.log (.bound [(name, v)])

def setVariables (s : RunState) (bindings : List (String × Value)) : RunState :=
  { s with «variables» := s.variables.setAll bindings }.log (.bound bindings)

/-- The state after a question. A run that is cancelled stays so. -/
def note (s : RunState) (i : Inquiry) : RunState :=
  { s with
    asked := i :: s.asked
    cancelled := s.cancelled || s.cancels (i :: s.asked) }.log (.asked i)

def record (s : RunState) (e : JournalEntry) : RunState :=
  { s with journal := s.journal ++ [e] }.log (.noted e)

/-- The state after a failure has been handled in a context. -/
def handle (s : RunState) (context : String) (e : ExecutionError) : RunState :=
  { s with errors := (s.errors.handle context e).2 }.log <|
    if s.errors.aborting then .passed context e else .recorded context e (s.errors.ends e)

/-- The state in the visit of an element, which becomes the current one of its kind. -/
def enter (s : RunState) (e : Element) : RunState :=
  let s := s.record (.entered e)
  match e with
  | .block b => { s with block := some b }
  | .transaction t => { s with transaction := some t }
  | .logEntry l => { s with logEntry := some l }

/-- The state after a visit. No element of that kind is current any more, also when the visit was
inside another one. -/
def leave (s : RunState) (c : Cursor) (failure : Option ExecutionError) : RunState :=
  let s := s.record (.left c failure)
  match c with
  | .block => { s with block := none }
  | .transaction => { s with transaction := none }
  | .logEntry => { s with logEntry := none }

end RunState

/-- A step of a run. What it changed before a failure stays changed. -/
abbrev Run := ExceptT ExecutionError (StateT RunState Option)

namespace Run

/-- Goes on with the result of another step, whose failure is thrown again. -/
def resume (result : Except ExecutionError α) : Run α :=
  ExceptT.mk (pure result)

def doing (d : Deed) : Run Unit :=
  modify fun s => s.log d

/-- Fails with a new failure. -/
def raise (e : ExecutionError) : Run α := do
  doing (.raised e)
  resume (.error e)

def ofExcept : Except ExecutionError α → Run α
  | .ok a => return a
  | .error e => raise e

/-- Turns a failure into a result, so that the step after it is reached. -/
def outcome (x : Run α) : Run (Except ExecutionError α) :=
  ExceptT.lift x.run

def failure? : Except ExecutionError α → Option ExecutionError
  | .ok _ => none
  | .error e => some e

/-- Runs a body in the visit of an element, which is left in any case. -/
def visiting (e : Element) (body : Run Unit) : Run (Except ExecutionError Unit) := do
  modify fun s => s.enter e
  let result ← outcome body
  modify fun s => s.leave e.cursor (failure? result)
  return result

/-- The step of a scan that has used up its looks. -/
def exhausted : Run α :=
  ExceptT.mk fun _ => none

def inView (read : View → Except ExecutionError α) : Run α := do
  ofExcept (read (← get).toView)

/-- Handles a failure, which is thrown again when the run has to end. -/
def report (context : String) (e : ExecutionError) : Run Unit := do
  let s ← get
  set (s.handle context e)
  resume (s.errors.handle context e).1

/-- Handles a new failure. -/
def fail (context : String) (e : ExecutionError) : Run Unit := do
  doing (.raised e)
  report context e

/-- Runs a step and handles its failure. -/
def guarded (context : String) (x : Run Unit) : Run Unit := do
  match ← outcome x with
  | .ok () => return
  | .error e => report context e

def onOutputs (change : Outputs → Outputs) : Run Unit :=
  modify fun s => { s with outputs := change s.outputs }

/-- A change of the outputs that may fail, and stays also when it does. -/
def tryOutputs (change : Outputs → Outputs × Option WriterError) : Run (Option WriterError) := do
  let s ← get
  let (outputs, failure) := change s.outputs
  set { s with outputs := outputs }
  return failure

def attached : Run ChainSource := do
  match (← get).chain with
  | some chain => return chain
  | none => raise (.chain .notConnected)

/-- Notes a question and gives what was asked before it. -/
def note (i : Inquiry) : Run History := do
  let s ← get
  set (s.note i)
  return s.asked

def answer (e : Except ChainError α) : Run α :=
  ofExcept (e.mapError .chain)

def askHead : Run Nat := do
  let chain ← attached
  let before ← note .head
  answer (chain.head before)

def askBlock (number : Nat) : Run (Except ChainError (Option Block)) := do
  let chain ← attached
  let before ← note (.block number)
  return chain.block before number

end Run
end ChainQuery
