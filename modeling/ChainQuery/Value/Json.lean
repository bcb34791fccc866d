import ChainQuery.Value.Basic
import ChainQuery.Value.Integer
import ChainQuery.Json.Held
import ChainQuery.Json.Printer

/-!
# Values as JSON

A value is an object with the fields `type` and `value`, or an array of the two. Unknown fields are
skipped. When `value` comes before `type` it has to be held before its type is known, and integers of
128 bits cannot be held; then neither this value nor one inside it can be an integer.
-/

namespace ChainQuery.Value

def formName : Value → String
  | null => "null"
  | bool _ => "bool"
  | int _ => "int"
  | bigInt _ => "bigint"
  | str _ => "str"
  | bytes _ => "bytes"
  | address _ => "address"
  | list _ => "list"

def toJson (v : Value) : Json :=
  match v with
  | null => form []
  | bool b => form [("value", .bool b)]
  | int i => form [("value", .ofInt i)]
  | bigInt s => form [("value", .string s)]
  | str s => form [("value", .string s)]
  | bytes data => form [("value", .array (data.map fun b => .ofNat b.toNat))]
  | address s => form [("value", .string s)]
  | list items => form [("value", .array (items.attach.map fun ⟨item, _⟩ => item.toJson))]
where
  form (content : List (String × Json)) : Json :=
    .object (("type", .string v.formName) :: content)

def ofForm? (held : Bool) (form : String) (content : Option Json) : Option Value :=
  match form, content with
  | "null", none => some null
  | "null", some .null => some null
  | "bool", some (.bool b) => some (bool b)
  | "int", some (.number n) => if held then none else (n.toInt? 128).map int
  | "bigint", some (.string s) => some (bigInt s)
  | "str", some (.string s) => some (str s)
  | "bytes", some (.array items) =>
    (items.mapM fun item : Json => (item.nat? 8).map UInt8.ofNat).map bytes
  | "address", some (.string s) => some (address s)
  | _, _ => none

/-- The form that a tag names: a string, or an object that has the form as its only name. -/
def formOf? (held : Bool) : Json → Option String
  | .string form => some form
  | .object [(form, .null)] => some form
  | .object [(form, .object [])] => if held then some form else none
  | _ => none

/-- The fields of a value's JSON: whether its content came first, its form and its content. -/
def parts? (held : Bool) : Json → Option (Bool × String × Option Json)
  | .object fields =>
    match fields.filter fun f => f.1 == "type" || f.1 == "value" with
    | [("type", tag)] => (formOf? held tag).map fun form => (false, form, none)
    | [("type", tag), ("value", content)] =>
      (formOf? held tag).map fun form => (false, form, some content)
    | [("value", content), ("type", tag)] =>
      (formOf? held tag).map fun form => (true, form, some content)
    | _ => none
  | .array [tag, content] => (formOf? held tag).map fun form => (false, form, some content)
  | _ => none

/-- Reads a value whose JSON is nested at most `depth` deep, skipped fields aside. -/
def readJson? (held : Bool) : Nat → Json → Option Value
  | 0, _ => none
  | 1, j =>
    match parts? held j with
    | some (first, form, content) =>
      if (content.map Json.nesting).getD 0 = 0 then ofForm? (held || first) form content else none
    | none => none
  | depth + 2, j =>
    match parts? held j with
    | some (first, form, content) =>
      if first && !held && content.any fun c => (c.heldWithin? (depth + 1)).isNone then none
      else
        match form, content with
        | "list", some (.array items) => (items.mapM (readJson? (held || first) depth)).map list
        | form, content => ofForm? (held || first) form content
    | none => none

def ofJson? (j : Json) : Option Value :=
  readJson? false Json.nestingLimit j

end ChainQuery.Value
