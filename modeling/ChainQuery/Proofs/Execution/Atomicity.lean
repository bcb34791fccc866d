import ChainQuery.Proofs.Execution.Arrivals

/-!
# All or nothing

When no scan of blocks stands in the body of another one, the end of the visit of a block decides
about all that its body has emitted: everything arrives if the body has not failed, and nothing if it
has.
-/

namespace ChainQuery

def fixedLine (text : String) : Instruction :=
  .emit (.line [.literal (.str text)])

def failingAssign : Instruction :=
  .assign ⟨"y"⟩ (.named "missing")

/-- Two scans of a block, of which the second one fails after it has emitted a line. -/
def keptAndDropped : Program :=
  ⟨[singleScan [fixedLine "kept"], singleScan [fixedLine "dropped", failingAssign]]⟩

def singleStart : RunState :=
  { RunState.start { outputFolder := some "/" } {} {} with chain := some .single }

end ChainQuery
