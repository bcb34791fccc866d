import ChainQuery.Text.Quoted

/-!
# Failures of outputs

A disk refuses an operation for one of a few reasons, and a writer fails because the disk did,
because it has no folder, or because of the names and columns it was given.
-/

namespace ChainQuery

inductive DiskError where
  | missingFolder
  | notFolder
  | isFolder
  | nameTooLong
  | invalidName
  /-- The system refuses for reasons of its own. -/
  | refused
deriving DecidableEq, Repr, Inhabited

def DiskError.message : DiskError → String
  | missingFolder => "no such folder"
  | notFolder => "not a folder"
  | isFolder => "is a folder"
  | nameTooLong => "name too long"
  | invalidName => "invalid name"
  | refused => "refused"

/-- Why an output does not take an item or cannot write it. -/
inductive WriterError where
  | io (cause : DiskError)
  | noOutputFolder
  | columnMismatch (table : String) (expected got : List String)
  | invalidFileName (name : String)
deriving DecidableEq, Repr, Inhabited

def WriterError.message : WriterError → String
  | io cause => "IO error: " ++ cause.message
  | noOutputFolder => "no output folder set"
  | columnMismatch table expected got =>
    "table '" ++ table ++ "' has columns " ++ Text.quotedList expected ++ ", but row has " ++
      Text.quotedList got
  | invalidFileName name => "invalid name '" ++ name ++ "' for an output file"

end ChainQuery
