import ChainQuery.Output.Disk

/-!
# Files of the output folder

The files of the outputs are named by tables and processes. A name that could lead out of the folder
is refused.
-/

namespace ChainQuery

structure OutputFile where
  folder : String
  name : String
deriving DecidableEq, Repr, Inhabited

namespace OutputFile

/-- Whether a name stays in the folder it is used in. -/
def isName (name : String) : Bool :=
  name != "" && !name.toList.contains '/' && !name.toList.contains '\\' && name != "." &&
    name != ".."

def make (folder : Option String) (name extension : String) : Except WriterError OutputFile :=
  match folder with
  | none => .error .noOutputFolder
  | some folder =>
    if isName name then .ok ⟨folder, name ++ "." ++ extension⟩ else .error (.invalidFileName name)

def write (d : Disk) (mode : Disk.WriteMode) (folder : Option String)
    (name extension text : String) : Disk × Option WriterError :=
  match make folder name extension with
  | .error e => (d, some e)
  | .ok file =>
    match d.write mode file.folder file.name text with
    | (d, none) => (d, none)
    | (d, some e) => (d, some (.io e))

end OutputFile
end ChainQuery
