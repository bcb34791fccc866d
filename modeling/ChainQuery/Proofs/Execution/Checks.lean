import ChainQuery.Proofs.Execution.Concurrence
import ChainQuery.Proofs.Execution.Fragments
import ChainQuery.Proofs.Query.Typing

/-!
# Runs with checks of types

A program with what was known of types runs like the program itself, except that it stops without a
result where an instruction begins that sees a value of another type than the compiler has reckoned
with.
-/

namespace ChainQuery

/-- The terms whose types have been looked at when an instruction was compiled. -/
def Instruction.resolved : Instruction → List Term
  | assign _ t => [t]
  | call _ args _ => args
  | filter (.blocks range) _ => range.first.terms ++ range.last.terms
  | _ => []

/-- A variable is not set, or its value is of a type that fits what is known of the term. -/
def TypeFacts.admitsTerm (f : TypeFacts) («variables» : NameMap Value) (t : Term) : Bool :=
  match t with
  | .named name =>
    match «variables».get? name with
    | some v => (f.typeOf (.named name)).accepts v.type
    | none => true
  | _ => true

def TypeFacts.admits (f : TypeFacts) (i : Instruction) («variables» : NameMap Value) : Bool :=
  i.resolved.all (f.admitsTerm «variables»)

namespace TypedInstruction

def facts : TypedInstruction → TypeFacts
  | statement f _ => f
  | scope f _ _ => f

/-- Stops the run where the instruction sees a value that does not fit. -/
def check (i : TypedInstruction) : Run Unit := do
  if i.facts.admits i.erase (← get).variables then return else Run.exhausted

mutual

def execute (looks : Nat) : TypedInstruction → Run Unit
  | statement _ i => i.execute looks
  | scope _ f body => f.run looks (executeAll looks body)

def executeAll (looks : Nat) : List TypedInstruction → Run Unit
  | [] => return
  | i :: body => do
    Run.beginning i.erase
    check i
    execute looks i
    executeAll looks body

end

def executeEach (looks : Nat) : List TypedInstruction → Run Unit
  | [] => return
  | i :: rest => do
    Run.guarded i.erase.kind do
      Run.beginning i.erase
      check i
      execute looks i
    executeEach looks rest

end TypedInstruction

/-- The closing of the outputs after the instructions of a program. -/
def Program.closing (x : Run Unit) : Run Unit := do
  match ← Run.outcome x with
  | .ok () => do
    modify fun s => s.record (.closed none)
    match ← Run.tryOutputs Outputs.endProgram with
    | none => return
    | some e => Run.raise (.writer e)
  | .error fatal => do
    modify fun s => s.record (.closed (some fatal))
    Run.onOutputs Outputs.discard
    let _ ← Run.tryOutputs Outputs.endProgram
    Run.resume (.error fatal)

theorem Program.execute_eq_closing (looks : Nat) (p : Program) :
    p.execute looks = closing (executeEach looks p.instructions) := rfl

theorem Program.closing_of_run_eq {x y : Run Unit} {s : RunState} (h : x.run s = y.run s) :
    (closing x).run s = (closing y).run s := by
  rw [closing, closing, Run.run_bind, Run.run_bind, Run.run_outcome, Run.run_outcome, h]

end ChainQuery
