import ChainQuery.Text.Blank

/-!
# Types of values

The static types that a query declares and that built-in methods expect. `ValueType.ofKeyword?` reads
the keywords of queries and the names of contract types alike; `ValueType.accepts` says which values
may stand where a type is declared.
-/

namespace ChainQuery

/-- The type of a value, `any` standing for every type. -/
inductive ValueType where
  | bool
  | int
  | str
  | bytes
  | address
  | list (element : ValueType)
  | any
deriving DecidableEq, Repr, Inhabited

namespace ValueType

def text : ValueType → String
  | bool => "bool"
  | int => "int"
  | str => "string"
  | bytes => "bytes"
  | address => "address"
  | list element => element.text ++ "[]"
  | any => "any"

instance : ToString ValueType := ⟨text⟩

def isSized (stem word : List Char) : Bool :=
  match Text.dropStart? stem word with
  | some ds => !ds.isEmpty && ds.all Char.isDigit
  | none => false

def ofWord? (word : List Char) : Option ValueType :=
  if word = "bool".toList then some bool
  else if word = "string".toList then some str
  else if word = "address".toList then some address
  else if word = "any".toList then some any
  else if word = "byte".toList ∨ word = "bytes".toList then some bytes
  else if word = "int".toList ∨ word = "uint".toList then some int
  else if isSized "uint".toList word || isSized "int".toList word then some int
  else if isSized "bytes".toList word then some bytes
  else none

/-- The type of a keyword whose characters are given in reverse order. Each pair of brackets at the
end, with digits or nothing between them, makes a list type. -/
def ofReversed? (cs : List Char) : Option ValueType :=
  match _h : Text.trimBlank cs with
  | ']' :: rest =>
    match _hw : rest.dropWhile Char.isDigit with
    | '[' :: front => (ofReversed? front).map list
    | _ => none
  | word => ofWord? word.reverse
termination_by cs.length
decreasing_by
  have h1 := Text.length_trimBlank_le cs
  have h2 := Text.length_dropWhile_le Char.isDigit rest
  rw [_h] at h1
  rw [_hw] at h2
  simp only [List.length_cons] at h1 h2
  omega

def ofKeyword? (keyword : String) : Option ValueType :=
  ofReversed? keyword.toList.reverse

/-- Whether a value of type `actual` may stand where `declared` is asked for. -/
def accepts (declared actual : ValueType) : Bool :=
  match declared, actual with
  | any, _ => true
  | _, any => true
  | list a, list b => a.accepts b
  | str, address => true
  | a, b => a = b

end ValueType
end ChainQuery
