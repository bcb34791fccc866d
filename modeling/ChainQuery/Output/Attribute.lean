import ChainQuery.Binary64.Reader
import ChainQuery.Binary64.Shortest
import ChainQuery.Execution.Error
import ChainQuery.Time.Moment
import ChainQuery.Value.Integer

/-!
# Attributes of events

The typed attributes of process logs. A value becomes the text of an attribute when it has a form of
the attribute's type: dates come from seconds since 1970 or from their text, floats from integers or
from their text.
-/

namespace ChainQuery

inductive AttributeType where
  | string
  | date
  | int
  | float
  | boolean
deriving DecidableEq, Repr, Inhabited

namespace AttributeType

def all : List AttributeType := [string, date, int, float, boolean]

/-- The keyword of a type, which is also the name of its element. -/
def text : AttributeType → String
  | string => "string"
  | date => "date"
  | int => "int"
  | float => "float"
  | boolean => "boolean"

def ofKeyword? (word : String) : Option AttributeType :=
  all.find? fun t => t.text == word

end AttributeType

/-- An attribute of a trace or of an event, with its value as a text. -/
structure Attribute where
  type : AttributeType
  key : String
  text : String
deriving DecidableEq, Repr, Inhabited

namespace Attribute

/-- The text of the moment that many seconds after the start of 1970. -/
def dateText? (seconds : Int) : Option String :=
  if -(Int.ofNat (Nat.pow 2 63)) ≤ seconds ∧ seconds < Int.ofNat (Nat.pow 2 63) then
    (Time.Moment.ofUnix? seconds).map Time.Moment.text
  else none

/-- The text of a value at a type of attributes. Every value has one as a string. -/
def valueText? (t : AttributeType) (v : Value) : Option String :=
  match t, v with
  | .string, v => some v.text
  | .int, .int i => some (Value.int i).text
  | .int, .bigInt s => some s
  | .float, .int i => some (Value.int i).text
  | .float, .bigInt s => some s
  | .float, .str s => (Binary64.read? s).map Binary64.text
  | .boolean, .bool b => some (Value.bool b).text
  | .date, .int seconds => dateText? seconds
  | .date, .str s => (Time.Moment.read? s).map Time.Moment.text
  | _, _ => none

def ofValue (t : AttributeType) (key : String) (v : Value) : Except ExecutionError Attribute :=
  match valueText? t v with
  | some text => .ok ⟨t, key, text⟩
  | none => .error (.typeMismatch t.text v.typeText)

end Attribute
end ChainQuery
