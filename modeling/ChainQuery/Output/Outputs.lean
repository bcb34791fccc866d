import ChainQuery.Output.Delivery
import ChainQuery.Output.EventLog
import ChainQuery.Output.LineLog
import ChainQuery.Output.Table

/-!
# The outputs of a run

The four outputs with the disk and the network they write to. They follow the blocks of a run
together: each commits, discards or closes in turn, and a failure of one does not keep the others
from theirs.
-/

namespace ChainQuery

/-- The outputs with the folder, the disk and the network that they share. -/
structure Outputs where
  folder : Option String := none
  tables : Tables
  lines : LineLog
  events : EventLogs := {}
  deliveries : Deliveries
  disk : Disk := {}
  wire : Wire := {}
deriving Inhabited

inductive OutputItem where
  | row (table : String) (cells : List (String × String))
  | line (text : String)
  | record (r : EventRecord)
  | request (d : Delivery)
deriving DecidableEq, Repr, Inhabited

namespace Outputs

def start (config : RunConfig) (disk : Disk) (wire : Wire) : Outputs :=
  { folder := config.outputFolder
    tables := { rows := { mode := config.mode } }
    lines := { lines := { mode := config.mode } }
    deliveries := { retry := config.deliveries.retry, requests := { mode := config.mode } }
    disk := disk
    wire := wire }

def setFolder (o : Outputs) (folder : String) : Outputs :=
  { o with folder := some folder }

/-- Stages an item. A row may be refused for its columns. -/
def stage (o : Outputs) : OutputItem → Except WriterError Outputs
  | .row table cells => (o.tables.addRow table cells).map fun t => { o with tables := t }
  | .line text => .ok { o with lines := o.lines.addLine text }
  | .record r => .ok { o with events := o.events.add r }
  | .request d => .ok { o with deliveries := o.deliveries.add d }

/-- Commits what the block has staged. The first failure is returned. -/
def endBlock (o : Outputs) : Outputs × Option WriterError :=
  let (tables, disk, tableFailure) := o.tables.endBlock o.folder o.disk
  let (lines, disk, lineFailure) := o.lines.endBlock o.folder disk
  let (deliveries, wire) := o.deliveries.endBlock o.wire
  ({ o with
      tables := tables, lines := lines, events := o.events.endBlock, deliveries := deliveries
      disk := disk, wire := wire },
    tableFailure <|> lineFailure)

/-- Drops what the block has staged. What was committed before stays. -/
def discard (o : Outputs) : Outputs :=
  { o with
    tables := o.tables.discard
    lines := o.lines.discard
    events := o.events.discard
    deliveries := o.deliveries.discard }

/-- Writes everything that waits. Each output is closed also when one before it fails. -/
def endProgram (o : Outputs) : Outputs × Option WriterError :=
  let (tables, disk, tableFailure) := o.tables.endProgram o.folder o.disk
  let (lines, disk, lineFailure) := o.lines.endProgram o.folder disk
  let (events, disk, eventFailure) := o.events.endProgram o.folder disk
  let (deliveries, wire) := o.deliveries.endProgram o.wire
  ({ o with
      tables := tables, lines := lines, events := events, deliveries := deliveries
      disk := disk, wire := wire },
    tableFailure <|> lineFailure <|> eventFailure)

end Outputs
end ChainQuery
