import ChainQuery.Text.Digits
import ChainQuery.Text.Hex
import ChainQuery.Value.Integer

/-!
# Quantities

Numbers and bytes as a node writes them: hexadecimal digits after the mark `0x`, which may be
missing. Numbers of three widths are read; a text without digits is zero.
-/

namespace ChainQuery

inductive AnswerError where
  | missingField (name : String)
  | badQuantity (text : String)
  | beyondWord (text : String)
  | badData
  | topic
  | withoutTransactions
  | unexpected (method : String) (answer : String)
  | logsNotListed
deriving DecidableEq, Repr, Inhabited

def AnswerError.message : AnswerError → String
  | missingField name => "missing field '" ++ name ++ "'"
  | badQuantity text => "bad quantity '" ++ text ++ "': not a number of that width"
  | beyondWord text => "quantity '" ++ text ++ "' exceeds u64"
  | badData => "bad hex data: not pairs of digits"
  | topic => "non-string topic"
  | withoutTransactions => "block was fetched without full transaction objects"
  | unexpected method answer => method ++ " returned " ++ answer
  | logsNotListed => "eth_getLogs did not return an array"

namespace Quantity

/-- Reads a number of 128 bits; a plus sign may stand before the digits. -/
def read (s : String) : Except AnswerError Nat :=
  let digits := Text.dropHexMark s.toList
  if digits.isEmpty then .ok 0
  else
    let unsigned := (Text.dropStart? ['+'] digits).getD digits
    match (Text.readRun? 16 unsigned).filter fun n => n < Nat.pow 2 128 with
    | some n => .ok n
    | none => .error (.badQuantity s)

def read64 (s : String) : Except AnswerError Nat := do
  let n ← read s
  if n < Nat.pow 2 64 then return n else throw (.beyondWord s)

/-- Reads a number of 256 bits as its decimal text; underscores may stand among the digits. -/
def readDecimal (s : String) : Except AnswerError String :=
  let digits := Text.dropHexMark s.toList
  match Text.readGrouped? 16 wordBound digits with
  | some n => .ok (Text.decimal n)
  | none => .error (.badQuantity s)

def readData (s : String) : Except AnswerError (List UInt8) :=
  match Text.readHex? (Text.dropHexMark s.toList) with
  | some bytes => .ok bytes
  | none => .error .badData

/-- A number as nodes expect it, without leading zeros. -/
def text (n : Nat) : String :=
  String.ofList ('0' :: 'x' :: Text.render 16 n)

end Quantity
end ChainQuery
