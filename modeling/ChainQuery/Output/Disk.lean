import ChainQuery.Output.Error

/-!
# Folders and files

A tree of folders and text files, in which one folder is the working folder. A path is resolved name
by name from there, or from the root when it starts with a slash. Besides the failures that follow
from the tree, the disk may refuse any single write of a file; the writes are counted for each file.
-/

namespace ChainQuery

/-- The names on the way from the root. -/
abbrev Location := List String

inductive DiskNode where
  | folder
  | file (text : String)
deriving DecidableEq, Repr, Inhabited

/-- Folders and files by their locations, with the history of the writes. -/
structure Disk where
  nodes : List (Location × DiskNode) := []
  home : Location := []
  /-- The locations of the writes so far, the last one first. -/
  written : List Location := []
  /-- Whether a file refuses a write, by the number of writes to it before. -/
  refuses : Location → Nat → Bool := fun _ _ => false

namespace Disk

instance : Inhabited Disk := ⟨{}⟩

def node? (d : Disk) (loc : Location) : Option DiskNode :=
  if loc = [] then some .folder else d.nodes.lookup loc

def text? (d : Disk) (loc : Location) : Option String :=
  match d.node? loc with
  | some (.file text) => some text
  | _ => none

def putNode (loc : Location) (node : DiskNode) :
    List (Location × DiskNode) → List (Location × DiskNode)
  | [] => [(loc, node)]
  | n :: nodes => if n.1 = loc then (loc, node) :: nodes else n :: putNode loc node nodes

def put (d : Disk) (loc : Location) (node : DiskNode) : Disk :=
  { d with nodes := putNode loc node d.nodes }

def nameLimit : Nat := 255

def pathParts : List Char → List (List Char)
  | [] => [[]]
  | c :: cs =>
    if c = '/' then [] :: pathParts cs
    else
      match pathParts cs with
      | part :: parts => (c :: part) :: parts
      | [] => [[c]]

/-- The names of a path, without empty ones and those that stay in place. -/
def pathNames (path : String) : List String :=
  ((pathParts path.toList).map String.ofList).filter fun name => name != "" && name != "."

/-- Where the names of a path are followed from. -/
def pathStart (d : Disk) (path : String) : Location :=
  if path.toList.head? = some '/' then [] else d.home

def isBroken (path : String) : Bool :=
  path.toList.contains (Char.ofNat 0)

/-- Follows names from a folder. With `creating`, a folder that is missing is made. The disk is
returned with the folders made so far also when a later name fails. -/
def follow (creating : Bool) (d : Disk) (loc : Location) :
    List String → Disk × Except DiskError Location
  | [] => (d, .ok loc)
  | name :: names =>
    if name = ".." then follow creating d loc.dropLast names
    else if nameLimit < name.utf8ByteSize then (d, .error .nameTooLong)
    else
      match d.node? (loc ++ [name]) with
      | some .folder => follow creating d (loc ++ [name]) names
      | some (.file _) => (d, .error .notFolder)
      | none =>
        if creating then
          follow creating (d.put (loc ++ [name]) .folder) (loc ++ [name]) names
        else (d, .error .missingFolder)

def makeFolders (d : Disk) (path : String) : Disk × Option DiskError :=
  if isBroken path then (d, some .invalidName)
  else
    match follow true d (d.pathStart path) (pathNames path) with
    | (d, .ok _) => (d, none)
    | (d, .error e) => (d, some e)

/-- The location of a file in a folder, which has to be there. -/
def locate (d : Disk) (folder name : String) : Except DiskError Location :=
  if isBroken folder || isBroken name then .error .invalidName
  else
    match (follow false d (d.pathStart folder) (pathNames folder)).2 with
    | .error e => .error e
    | .ok loc => if nameLimit < name.utf8ByteSize then .error .nameTooLong else .ok (loc ++ [name])

inductive WriteMode where
  | replace
  | append
deriving DecidableEq, Repr

def WriteMode.result (mode : WriteMode) (old : Option String) (text : String) : String :=
  match mode with
  | .replace => text
  | .append => old.getD "" ++ text

/-- Writes a text to a file in a folder, making the file when it is missing. A refused write leaves
the file as it was. -/
def write (d : Disk) (mode : WriteMode) (folder name text : String) : Disk × Option DiskError :=
  match d.locate folder name with
  | .error e => (d, some e)
  | .ok loc =>
    let noted := { d with written := loc :: d.written }
    if d.node? loc = some .folder then (noted, some .isFolder)
    else if d.refuses loc (d.written.count loc) then (noted, some .refused)
    else (noted.put loc (.file (mode.result (d.text? loc) text)), none)

end Disk
end ChainQuery
