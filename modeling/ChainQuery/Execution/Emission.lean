import ChainQuery.Execution.State
import ChainQuery.Program.Instruction

/-!
# Emissions

An emission evaluates all of its terms first, so that one that fails emits nothing, and then stages
one item in one output.
-/

namespace ChainQuery

def namedTexts (view : View) (fields : List (String × Term)) :
    Except ExecutionError (List (String × String)) :=
  fields.mapM fun (name, t) => (t.evalText view).map fun text => (name, text)

def AttributeField.eval (view : View) (f : AttributeField) : Except ExecutionError Attribute := do
  Attribute.ofValue f.type f.name (← f.value.eval view)

namespace Emission

/-- The item that an emission puts out. All its values are evaluated before it is staged. -/
def eval (view : View) : Emission → Except ExecutionError OutputItem
  | row table columns => (namedTexts view columns).map (.row table)
  | line values => (values.mapM (Term.evalText view)).map fun texts => .line (String.join texts)
  | trace process instanceId fields => do
    let process ← process.evalText view
    let instanceId ← instanceId.evalText view
    let attributes ← fields.mapM (AttributeField.eval view)
    return .record ⟨process, instanceId, .trace, attributes⟩
  | event process instanceId id fields => do
    let process ← process.evalText view
    let instanceId ← instanceId.evalText view
    let id ← match id with
      | some id => (id.evalText view).map some
      | none => .ok none
    let attributes ← fields.mapM (AttributeField.eval view)
    return .record ⟨process, instanceId, .event id, attributes⟩
  | request uri fields => do
    let uri ← uri.evalText view
    let fields ← namedTexts view fields
    return .request (Delivery.make uri fields)

/-- Only an item that the outputs take is entered in the journal. -/
def stage (item : OutputItem) : Run Unit := do
  let s ← get
  match s.outputs.stage item with
  | .ok outputs => set { s.record (.staged item) with outputs := outputs }
  | .error e => Run.raise (.writer e)

def execute (e : Emission) : Run Unit := do
  stage (← Run.inView e.eval)

end Emission
end ChainQuery
