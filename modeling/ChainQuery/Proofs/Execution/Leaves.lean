import ChainQuery.Proofs.Execution.ContractReads
import ChainQuery.Proofs.Execution.Laws
import ChainQuery.Proofs.Output.Rollback

/-!
# Instructions without a body

An instruction without a body reads first, and everything that can fail in it is done before it changes
anything. So one that fails leaves the variables, the cursors, the chain, the outputs and the recorded
failures as they were, and one that succeeds changes the one thing that it names. A list of such
instructions does what those before the first failing one do, and no more.
-/

namespace ChainQuery

namespace Outputs

/-- One more item is staged in the output that it is for, and nothing else changes. The first row of a
table brings its columns with it, and each later row has the same ones. -/
inductive Gains (o : Outputs) : OutputItem → Outputs → Prop
  | firstRow {table cells} : o.columnsOf? table = none →
      Gains o (.row table cells) ((o.withRow ⟨table, cells.map (·.2)⟩).withHeaders
        (o.tables.headers ++ [(table, cells.map (·.1))]))
  | row {table cells} : o.columnsOf? table = some (cells.map (·.1)) →
      Gains o (.row table cells) (o.withRow ⟨table, cells.map (·.2)⟩)
  | line {text} :
      Gains o (.line text) { o with lines := { o.lines with lines := o.lines.lines.push text } }
  | record {r} :
      Gains o (.record r) { o with events := { o.events with staged := o.events.staged ++ [r] } }
  | request {d} :
      Gains o (.request d)
        { o with deliveries := { o.deliveries with requests := o.deliveries.requests.push d } }

end Outputs

/-- What the instructions of a run work on: the whole state but for the disk, the cancellation and the
records of what was asked and done. -/
structure RunParts extends View where
  chain : Option ChainSource
  connector : Option Connector
  outputs : Outputs
  errors : ErrorRecord

def RunState.parts (s : RunState) : RunParts where
  toView := s.toView
  chain := s.chain
  connector := s.connector
  outputs := { s.outputs with disk := {} }
  errors := s.errors

/-- The parts that only filters and the handling of failures change. -/
def RunParts.frame (p : RunParts) :
    Option Block × Option Transaction × Option LogEntry × Option Connector × ErrorRecord :=
  (p.block, p.transaction, p.logEntry, p.connector, p.errors)

namespace Outputs

variable {o : Outputs} {path : String}

end Outputs

namespace Instruction

/-- What an instruction without a body does to the parts of a state when it succeeds. -/
inductive Changes (s : RunState) : Instruction → RunParts → Prop
  | assign {target value v} : value.eval s.toView = .ok v →
      Changes s (.assign target value) { s.parts with «variables» := s.variables.set target.name v }
  | call {method args values v} : args.mapM (Term.eval s.toView) = .ok values →
      method.apply values = .ok v → Changes s (.call method args none) s.parts
  | callInto {method args target values v} : args.mapM (Term.eval s.toView) = .ok values →
      method.apply values = .ok v → Changes s (.call method args (some target))
        { s.parts with «variables» := s.variables.set target.name v }
  | emit {e item o} : e.eval s.toView = .ok item → s.parts.outputs.Gains item o →
      Changes s (.emit e) { s.parts with outputs := o }
  | setFolder {path} : (s.outputs.disk.makeFolders path).2 = none →
      Changes s (.setFolder path) { s.parts with outputs := s.parts.outputs.setFolder path }
  | connect {url connector chain} : s.connector = some connector →
      connector s.asked url = .ok chain →
      Changes s (.connect url) { s.parts with chain := some chain }
  | stayConnected {url chain} : s.connector = none → s.chain = some chain →
      Changes s (.connect url) s.parts

theorem Changes.frame {s : RunState} {i : Instruction} {parts : RunParts} (h : i.Changes s parts) :
    parts.frame = s.parts.frame := by
  cases h <;> rfl

end Instruction

namespace Statement

theorem run_call (method : Builtin) (args : List Term) (target : Option Target) (s : RunState) :
    (call method args target).run s = match args.mapM (Term.eval s.toView) with
      | .error e => some (.error e, s.log (.raised e))
      | .ok values => match method.apply values, target with
        | .error e, _ => some (.error e, s.log (.raised e))
        | .ok v, some target => some (.ok (), s.setVariable target.name v)
        | .ok _, none => some (.ok (), s) := by
  rw [call, Run.run_bind, Run.run_inView]
  cases args.mapM (Term.eval s.toView) with
  | error e => rfl
  | ok values =>
    dsimp only
    rw [Run.run_bind]
    cases method.apply values with
    | error e => rfl
    | ok v => cases target <;> rfl

end Statement

namespace Instruction

/-- Instructions that do what they name one after the other, each in a state with the parts that the
one before it has left. -/
inductive Does : RunState → List Instruction → RunParts → Prop
  | nil {s} : Does s [] s.parts
  | cons {s t i is parts} : i.Changes s t.parts → Does t is parts → Does s (i :: is) parts

theorem Does.frame {s : RunState} {is : List Instruction} {parts : RunParts} (h : Does s is parts) :
    parts.frame = s.parts.frame := by
  induction h with
  | nil => rfl
  | cons hchanges _ ih => exact ih.trans hchanges.frame

end Instruction
end ChainQuery
