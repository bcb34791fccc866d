import ChainQuery.Query.Error
import ChainQuery.Value.Integer

/-!
# Literals

The written forms of values, each read at a type, and the type that an untyped literal seems to have.
The elements of a list are separated by commas outside of strings, whatever brackets they hold.
-/

namespace ChainQuery.Literal

/-- Reads the inside of a quoted string; a backslash keeps the character after it. -/
def unescape? : List Char → Option (List Char)
  | [] => some []
  | ['\\'] => none
  | '\\' :: c :: cs => (unescape? cs).map (c :: ·)
  | c :: cs => (unescape? cs).map (c :: ·)

def inside? (first last : Char) (cs : List Char) : Option (List Char) :=
  (Text.dropStart? [first] cs).bind (Text.dropLast? last)

/-- Where a scan for commas stands: outside of strings, inside of one, or after a backslash there. -/
inductive Place where
  | outside
  | inString
  | escaped
deriving DecidableEq

/-- Splits at the commas outside of strings, `part` being what was read since the last one. -/
def splitFrom (place : Place) (part : List Char) : List Char → List (List Char)
  | [] => [part.reverse]
  | c :: cs =>
    match place with
    | .escaped => splitFrom .inString (c :: part) cs
    | .inString =>
      splitFrom (if c = '\\' then .escaped else if c = '"' then .outside else .inString)
        (c :: part) cs
    | .outside =>
      if c = ',' then part.reverse :: splitFrom .outside [] cs
      else splitFrom (if c = '"' then .inString else .outside) (c :: part) cs

/-- The elements of a list between its brackets; a blank text has none. -/
def elements (cs : List Char) : List (List Char) :=
  if cs.all Text.isBlank then [] else splitFrom .outside [] cs

def scalar? : ValueType → List Char → Option Value
  | .bool, cs =>
    if cs = "true".toList then some (.bool true)
    else if cs = "false".toList then some (.bool false)
    else none
  | .int, cs => Value.readInteger? ((Text.dropStart? ['+'] cs).getD cs)
  | .str, cs =>
    ((inside? '"' '"' cs).bind unescape?).map fun inner => .str (String.ofList inner)
  | .bytes, cs => ((Text.dropStart? ['0', 'x'] cs).bind Text.readHex?).map .bytes
  | .address, cs =>
    (Text.dropStart? ['0', 'x'] cs).bind fun ds =>
      if ds.length = 40 ∧ ds.all (fun c => (Text.digitBelow? 16 c).isSome) then
        some (.address (String.ofList cs))
      else none
  | _, _ => none

def read (type : ValueType) (text : List Char) : Except BuildError Value :=
  let cs := Text.trimBlank text
  match type with
  | .list element =>
    match inside? '[' ']' cs with
    | some body => ((elements body).mapM (read element)).map .list
    | none => .error (.unresolvedLiteral (String.ofList cs))
  | .any => .error (.unsupportedType (ValueType.any).text)
  | type =>
    match scalar? type cs with
    | some v => .ok v
    | none => .error (.unresolvedLiteral (String.ofList cs))

def looksInteger (cs : List Char) : Bool :=
  let ds := (Text.dropStart? ['-'] cs).getD cs
  !ds.isEmpty && ds.all Char.isDigit

/-- The type that an untyped literal seems to have, without trying the whole of it. A list has the
type of its first element. -/
def inferFrom? : Nat → List Char → Option ValueType
  | 0, _ => none
  | depth + 1, text =>
    let cs := Text.trimBlank text
    if cs = "true".toList ∨ cs = "false".toList then some .bool
    else if cs.head? = some '"' then some .str
    else
      match Text.dropStart? ['0', 'x'] cs, inside? '[' ']' cs with
      | some ds, _ => if (String.ofList ds).utf8ByteSize = 40 then some .address else some .bytes
      | none, some body =>
        (elements body).head?.bind fun first => (inferFrom? depth first).map .list
      | none, none => if looksInteger cs then some .int else none

def infer? (text : List Char) : Option ValueType :=
  inferFrom? (text.length + 1) text

/-- Reads a literal at the type that its form shows. -/
def readUntyped (text : String) : Except BuildError Value :=
  match infer? text.toList with
  | some type => read type text.toList
  | none => .error (.unresolvedLiteral text)

end ChainQuery.Literal
