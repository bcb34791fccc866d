import ChainQuery.Execution.Emission
import ChainQuery.Execution.Filter
import ChainQuery.Execution.Statement

/-!
# Running a program

Instructions run in order. A failing instruction ends the list it stands in; at the top of the
program its failure is handled and the next instruction follows. The outputs are closed at the end
of every run, after the block that was open has been discarded when a failure ended the run.
-/

namespace ChainQuery

def Run.beginning (i : Instruction) : Run Unit := do
  Run.doing (.began i (← get).toView)

mutual

def Instruction.execute (looks : Nat) : Instruction → Run Unit
  | .sequence body => executeAll looks body
  | .filter f body => f.run looks (executeAll looks body)
  | .assign target value => Statement.assign target value
  | .call method args target => Statement.call method args target
  | .emit e => e.execute
  | .setFolder path => Statement.setFolder path
  | .connect url => Statement.connect url

/-- Runs instructions in order, up to the first failure. -/
def executeAll (looks : Nat) : List Instruction → Run Unit
  | [] => return
  | i :: body => do
    Run.beginning i
    i.execute looks
    executeAll looks body

end

namespace Program

/-- Runs instructions in order and handles the failure of each. -/
def executeEach (looks : Nat) : List Instruction → Run Unit
  | [] => return
  | i :: rest => do
    Run.guarded i.kind do
      Run.beginning i
      i.execute looks
    executeEach looks rest

/-- Runs a program. Every scan without end may look at the chain `looks` times. -/
def execute (looks : Nat) (p : Program) : Run Unit := do
  match ← Run.outcome (executeEach looks p.instructions) with
  | .ok () => do
    modify fun s => s.record (.closed none)
    match ← Run.tryOutputs Outputs.endProgram with
    | none => return
    | some e => Run.raise (.writer e)
  | .error fatal => do
    modify fun s => s.record (.closed (some fatal))
    Run.onOutputs Outputs.discard
    let _ ← Run.tryOutputs Outputs.endProgram
    Run.resume (.error fatal)

/-- The result of a program and the state after it; nothing when a scan without end has used up its
looks. -/
def run? (looks : Nat) (p : Program) (s : RunState) :
    Option (Except ExecutionError Unit × RunState) :=
  (p.execute looks).run s

end Program
end ChainQuery
