import ChainQuery.Query.Scope
import ChainQuery.Text.Digits
import ChainQuery.Value.Type

/-!
# Failures of compilation

Why a query does not become a program. A failure names its cause and, once the compiler knows it,
the place in the query text.
-/

namespace ChainQuery

/-- The instructions that take a text as it is written. -/
inductive Directive where
  | outputFolder
  | connection
deriving DecidableEq, Repr, Inhabited

def Directive.text : Directive → String
  | outputFolder => "output folder"
  | connection => "connection"

inductive RangeError where
  | earliestUpper
  | reversed (first last : Nat)
  | boundType (type : ValueType)
deriving DecidableEq, Repr, Inhabited

def RangeError.message : RangeError → String
  | earliestUpper => "EARLIEST cannot be an upper bound"
  | reversed first last => Text.decimal first ++ " is after " ++ Text.decimal last
  | boundType type => "block number of type " ++ type.text

inductive BuildError where
  | unfinishedConstruction (expected found : ScopeKind)
  | noOpenScope
  | programAlreadyPrepared
  | openScopes (count : Nat)
  | canOnlyCompareValues
  | requiresPredicate
  | booleanExpressionTree
  | unsupportedComparator (symbol : String)
  | unresolvedLiteral (text : String)
  | unsupportedType (name : String)
  | unsupportedAttributeType (name : String)
  | unknownMethod (name : String) (arguments : List ValueType)
  | invalidRange (cause : RangeError)
  | typeMismatch (target : String) (declared actual : ValueType)
  | reservedTarget (name : String)
  | withoutOutputs (function : String)
  | notText (directive : Directive) (got : String)
deriving DecidableEq, Repr, Inhabited

def BuildError.message : BuildError → String
  | unfinishedConstruction expected found =>
    "construction of " ++ found.text ++ " has not been finished (expected " ++ expected.text ++ ")"
  | noOpenScope => "no open scope to add the instruction to"
  | programAlreadyPrepared => "program build was already prepared"
  | openScopes count =>
    "program is not complete: " ++ Text.decimal count ++ " scope(s) still open"
  | canOnlyCompareValues => "can only compare values, but not boolean expressions"
  | requiresPredicate => "binary boolean expression requires boolean predicates"
  | booleanExpressionTree => "error in boolean expression tree"
  | unsupportedComparator symbol => "comparator '" ++ symbol ++ "' not supported"
  | unresolvedLiteral text => "cannot determine type for literal " ++ text
  | unsupportedType name => "unsupported type: '" ++ name ++ "'"
  | unsupportedAttributeType name => "xes type '" ++ name ++ "' not supported"
  | unknownMethod name arguments =>
    "no built-in method '" ++ name ++ "(" ++ ", ".intercalate (arguments.map ValueType.text) ++ ")'"
  | invalidRange cause => "invalid block range: " ++ cause.message
  | typeMismatch target declared actual =>
    "cannot assign a value of type " ++ actual.text ++ " to '" ++ target ++ "' of type " ++
      declared.text
  | reservedTarget name => "cannot assign to blockchain variable '" ++ name ++ "'"
  | withoutOutputs function => "function '" ++ function ++ "' declares no outputs"
  | notText directive got => directive.text ++ " must be a string literal, got " ++ got

structure Position where
  line : Nat
  column : Nat
deriving DecidableEq, Repr, Inhabited

structure LocatedError where
  cause : BuildError
  position : Option Position
deriving DecidableEq, Repr, Inhabited

def LocatedError.message (e : LocatedError) : String :=
  match e.position with
  | some p =>
    "Ln " ++ Text.decimal p.line ++ ", Col " ++ Text.decimal p.column ++ ": " ++ e.cause.message
  | none => e.cause.message

end ChainQuery
