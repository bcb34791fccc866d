import ChainQuery.Chain.Error
import ChainQuery.Output.Error

/-!
# Failures of a run

A failure names its cause; `ExecutionError.message` gives its wording. Only a structural failure is
fatal: it means that an instruction stands where it can never work.
-/

namespace ChainQuery

inductive Cursor where
  | block
  | transaction
  | logEntry
deriving DecidableEq, Repr, Inhabited

def Cursor.text : Cursor → String
  | block => "block"
  | transaction => "transaction"
  | logEntry => "log entry"

/-- What could not be read from a text, a log entry or an answer. -/
inductive DecodeError where
  | notInteger (text : String)
  | notDecimal (text : String)
  | eventData (event : String)
  | missingTopic (event parameter : String)
  | missingData (event parameter : String)
  | topicHex
  | topic
  | result (function : String)
  | other (reason : String)
deriving DecidableEq, Repr, Inhabited

def DecodeError.message : DecodeError → String
  | notInteger text => text ++ ": not a 256-bit integer"
  | notDecimal text => "'" ++ text ++ "' is not a decimal integer: unexpected digit"
  | eventData event => event ++ ": data: malformed"
  | missingTopic event parameter => event ++ ": missing topic for '" ++ parameter ++ "'"
  | missingData event parameter => event ++ ": missing data for '" ++ parameter ++ "'"
  | topicHex => "invalid topic hex: malformed"
  | topic => "topic decode: malformed"
  | result function => function ++ ": malformed"
  | other reason => reason

/-- Why a method has no result. -/
inductive MethodError where
  /-- The argument at that place, counted from zero, is not there. -/
  | missingArgument (index : Nat)
  | overflow (a b : Int)
  | divisionByZero
  | outOfRange (seconds : Int)
  | other (reason : String)
deriving DecidableEq, Repr, Inhabited

def MethodError.message : MethodError → String
  | missingArgument index => "missing argument " ++ Text.decimal (index + 1)
  | overflow a b => "overflow on " ++ Text.signedDecimal a ++ " and " ++ Text.signedDecimal b
  | divisionByZero => "division by zero"
  | outOfRange seconds => Text.signedDecimal seconds ++ " is out of range"
  | other reason => reason

inductive ExecutionError where
  | structural (reason : String)
  | missingCursor (cursor : Cursor)
  | chain (cause : ChainError)
  | decode (cause : DecodeError)
  | typeMismatch (expected got : String)
  | unknownVariable (name : String)
  | method (name : String) (cause : MethodError)
  | writer (cause : WriterError)
deriving DecidableEq, Repr, Inhabited

namespace ExecutionError

/-- A failure after which the run cannot go on. -/
def isFatal : ExecutionError → Bool
  | structural _ => true
  | _ => false

def message : ExecutionError → String
  | structural reason => "structural error: " ++ reason
  | missingCursor cursor => "no current " ++ cursor.text ++ " in scope"
  | chain cause => "chain error: " ++ cause.message
  | decode cause => "decode error: " ++ cause.message
  | typeMismatch expected got => "type mismatch: expected " ++ expected ++ ", got " ++ got
  | unknownVariable name => "unknown variable '" ++ name ++ "'"
  | method name cause => "method '" ++ name ++ "' failed: " ++ cause.message
  | writer cause => "writer error: " ++ cause.message

end ExecutionError
end ChainQuery
