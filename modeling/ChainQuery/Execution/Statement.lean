import ChainQuery.Execution.State
import ChainQuery.Program.Instruction

/-!
# Statements

The instructions without a body that are not emissions. Each changes one thing, and nothing when it
fails, except that the folders made on the way to a folder that cannot be made stay there.
-/

namespace ChainQuery

namespace Statement

def write (target : Target) (v : Value) : Run Unit :=
  modify fun s => s.setVariable target.name v

def assign (target : Target) (value : Term) : Run Unit := do
  write target (← Run.inView value.eval)

/-- Calls a method. Without a target its result is dropped, but its failure is not. -/
def call (method : Builtin) (args : List Term) (target : Option Target) : Run Unit := do
  let values ← Run.inView fun view => args.mapM (Term.eval view)
  let result ← Run.ofExcept (method.apply values)
  match target with
  | some target => write target result
  | none => return

/-- Makes the folders of a path and moves the outputs there. -/
def setFolder (path : String) : Run Unit := do
  let s := (← get).record (.moved path)
  let (disk, failure) := s.outputs.disk.makeFolders path
  let outputs := { s.outputs with disk := disk }
  match failure with
  | none => set { s with outputs := outputs.setFolder path }
  | some e => do
    set { s with outputs := outputs }
    Run.raise (.writer (.io e))

/-- Attaches the chain at an address. Without a connector an attached chain stays. -/
def connect (url : String) : Run Unit := do
  match (← get).connector with
  | some connector => do
    let before ← Run.note (.connect url)
    let chain ← Run.answer (connector before url)
    modify fun s => { s with chain := some chain }
  | none => do
    let _ ← Run.attached
    return

end Statement
end ChainQuery
