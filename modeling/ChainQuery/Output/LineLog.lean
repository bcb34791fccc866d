import ChainQuery.Output.Folder
import ChainQuery.Output.Staging

/-!
# The line log

Lines of text in the one file `log.txt`. The first write of a run replaces the file, the later ones
append.
-/

namespace ChainQuery

/-- The lines that wait; `opened` once the file has been written in this run. -/
structure LineLog where
  lines : Staging String
  opened : Bool := false
deriving Inhabited

namespace LineLog

def addLine (l : LineLog) (line : String) : LineLog :=
  { l with lines := l.lines.push line }

/-- The lines one after the other, each with its line end. -/
def linesText (lines : List String) : String :=
  String.ofList (lines.flatMap fun line => line.toList ++ ['\n'])

/-- Writes lines; the file is not touched when there are none. -/
def writeLines (l : LineLog) (folder : Option String) (d : Disk) (lines : List String) :
    LineLog × Disk × Option WriterError :=
  if lines = [] then (l, d, none)
  else
    let mode : Disk.WriteMode := if l.opened then .append else .replace
    match OutputFile.write d mode folder "log" "txt" (linesText lines) with
    | (d, none) => ({ l with opened := true }, d, none)
    | (d, some e) => (l, d, some e)

def endBlock (l : LineLog) (folder : Option String) (d : Disk) :
    LineLog × Disk × Option WriterError :=
  let (lines, due) := l.lines.endBlock
  writeLines { l with lines := lines } folder d due

def discard (l : LineLog) : LineLog :=
  { l with lines := l.lines.discard }

def endProgram (l : LineLog) (folder : Option String) (d : Disk) :
    LineLog × Disk × Option WriterError :=
  let (lines, due) := l.lines.endProgram
  writeLines { l with lines := lines } folder d due

end LineLog
end ChainQuery
