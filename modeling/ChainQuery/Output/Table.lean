import ChainQuery.Output.Folder
import ChainQuery.Output.Keyed
import ChainQuery.Output.Staging

/-!
# Tables

Rows of named columns, one file of comma-separated values for each table. The first row of a table
fixes its columns. The first write of a run replaces the file and starts with the columns; the later
ones append.
-/

namespace ChainQuery

/-- A row without the names of its columns, which the header of its table has. -/
structure TableRow where
  table : String
  cells : List String
deriving DecidableEq, Repr, Inhabited

namespace TableRow

/-- A separator, a quote or a line end would be read as the end of the field. -/
def needsQuotes (field : List Char) : Bool :=
  field.any fun c => c == ',' || c == '"' || c == '\n' || c == '\r'

/-- A field as it is written; a quote inside is doubled. -/
def fieldChars (field : String) : List Char :=
  let cs := field.toList
  if needsQuotes cs then
    '"' :: cs.flatMap (fun c => if c = '"' then ['"', '"'] else [c]) ++ ['"']
  else cs

def joinFields : List (List Char) → List Char
  | [] => []
  | [field] => field
  | field :: fields => field ++ ',' :: joinFields fields

def recordChars (fields : List String) : List Char :=
  joinFields (fields.map fieldChars) ++ ['\r', '\n']

def recordsText (records : List (List String)) : String :=
  String.ofList (records.flatMap recordChars)

/-- The rows of each table, the tables in the order of their first rows. -/
def byTable (rows : List TableRow) : Keyed (List (List String)) :=
  rows.foldl (fun tables row => Keyed.modify row.table [] (· ++ [row.cells]) tables) []

end TableRow

/-- The rows that wait, the columns of each table, and the tables written in this run. -/
structure Tables where
  rows : Staging TableRow
  headers : Keyed (List String) := []
  opened : List String := []
deriving Inhabited

namespace Tables

/-- Stages a row. The columns are fixed here, before it is known whether the row is committed. -/
def addRow (t : Tables) (table : String) (row : List (String × String)) :
    Except WriterError Tables :=
  let columns := row.map (·.1)
  let staged := t.rows.push ⟨table, row.map (·.2)⟩
  match t.headers.lookup table with
  | some header =>
    if header = columns then .ok { t with rows := staged }
    else .error (.columnMismatch table header columns)
  | none => .ok { t with rows := staged, headers := t.headers ++ [(table, columns)] }

/-- Writes rows of a table. That it was written before is known by its name, in whatever folder that
was. -/
def writeTable (t : Tables) (folder : Option String) (d : Disk) (table : String)
    (records : List (List String)) : Tables × Disk × Option WriterError :=
  let known := t.opened.contains table
  let header := if known then [] else (t.headers.lookup table).toList
  let mode : Disk.WriteMode := if known then .append else .replace
  match OutputFile.write d mode folder table "csv" (TableRow.recordsText (header ++ records)) with
  | (d, none) => ({ t with opened := if known then t.opened else table :: t.opened }, d, none)
  | (d, some e) => (t, d, some e)

/-- Writes the rows of several tables; a table that fails does not stop the others, and the first
failure is returned. -/
def writeTables (t : Tables) (folder : Option String) (d : Disk) :
    Keyed (List (List String)) → Tables × Disk × Option WriterError
  | [] => (t, d, none)
  | (table, records) :: tables =>
    let (t, d, failure) := t.writeTable folder d table records
    let (t, d, later) := writeTables t folder d tables
    (t, d, failure <|> later)

def endBlock (t : Tables) (folder : Option String) (d : Disk) :
    Tables × Disk × Option WriterError :=
  let (rows, due) := t.rows.endBlock
  writeTables { t with rows := rows } folder d (TableRow.byTable due)

def discard (t : Tables) : Tables :=
  { t with rows := t.rows.discard }

def endProgram (t : Tables) (folder : Option String) (d : Disk) :
    Tables × Disk × Option WriterError :=
  let (rows, due) := t.rows.endProgram
  writeTables { t with rows := rows } folder d (TableRow.byTable due)

end Tables
end ChainQuery
