import ChainQuery.Expression.Literal
import ChainQuery.NameMap
import ChainQuery.Program.Instruction
import ChainQuery.Query.Written

/-!
# Reading statements

A statement as it is written becomes an instruction. What is known of the types of variables goes
along: a declared variable keeps the type of its declaration, any other one has the type of what was
assigned to it last.
-/

namespace ChainQuery

/-- What is known of the types of variables. -/
structure TypeFacts where
  types : NameMap ValueType := ∅
  /-- The types that declarations have fixed. -/
  declared : NameMap ValueType := ∅
deriving Inhabited

/-- A step of reading. What it changed before a failure stays changed. -/
abbrev Reading := ExceptT BuildError (StateM TypeFacts)

def Reading.check (e : Except BuildError α) : Reading α :=
  ExceptT.mk (pure e)

def ValueType.read (keyword : String) : Except BuildError ValueType :=
  match ValueType.ofKeyword? keyword with
  | some t => .ok t
  | none => .error (.unsupportedType keyword)

namespace WrittenValue

/-- The term of an operand where nothing is known of its type. -/
def toTerm : WrittenValue → Except BuildError Term
  | literal text => (Literal.readUntyped text).map Term.literal
  | typed keyword text => do
    let type ← ValueType.read keyword
    return .literal (← Literal.read type text.toList)
  | named name => .ok (Term.ofName name)

/-- The term of an operand where a type is asked for, at which an untyped literal is read. -/
def toTermAt (type : ValueType) : WrittenValue → Except BuildError Term
  | literal text => (Literal.read type text.toList).map Term.literal
  | v => v.toTerm

end WrittenValue

def namedTerms (fields : List (String × WrittenValue)) :
    Except BuildError (List (String × Term)) :=
  fields.mapM fun (name, value) => value.toTerm.map fun t => (name, t)

def WrittenAttribute.toField (a : WrittenAttribute) : Except BuildError AttributeField :=
  match AttributeType.ofKeyword? a.type with
  | some type => a.value.toTerm.map fun t => ⟨a.name, type, t⟩
  | none => .error (.unsupportedAttributeType a.type)

def Directive.read (d : Directive) (literal : String) : Except BuildError String :=
  match Literal.read .str literal.toList with
  | .ok (.str text) => .ok text
  | _ => .error (.notText d literal)

/-- The type of a term as far as it is known before the run. -/
def TypeFacts.typeOf (f : TypeFacts) : Term → ValueType
  | .literal v => v.type
  | .named name => (f.types.get? name).getD .any
  | .chain field => field.type

namespace Reading

/-- A value of type `actual` may be written to a variable of type `declared`. -/
def checkAssignable (name : String) (declared actual : ValueType) : Except BuildError Unit :=
  if declared.accepts actual then .ok () else .error (.typeMismatch name declared actual)

/-- Reads a declaration, which fixes the type of the variable from here on. -/
def declare (type name : String) (value : WrittenValue) : Reading Instruction := do
  let f ← get
  let declared ← check (ValueType.read type)
  let t ← check (value.toTermAt declared)
  check (checkAssignable name declared (f.typeOf t))
  let target ← check (Target.ofName name)
  set { f with types := f.types.set name declared, declared := f.declared.set name declared }
  return .assign target t

/-- Reads an assignment. Without a declaration the variable takes the type of the value. -/
def assign (name : String) (value : WrittenValue) : Reading Instruction := do
  let f ← get
  let t ← check value.toTerm
  let type ← match f.declared.get? name with
    | some declared => do
      check (checkAssignable name declared (f.typeOf t))
      pure declared
    | none => pure (f.typeOf t)
  let target ← check (Target.ofName name)
  set { f with types := f.types.set name type }
  return .assign target t

/-- Reads a call. What is known of the target's type is forgotten before the target is checked. -/
def call (target : Option String) (method : String) (args : List WrittenValue) :
    Reading Instruction := do
  let f ← get
  let terms ← check (args.mapM WrittenValue.toTerm)
  let m ← check (Builtin.resolve method (terms.map f.typeOf))
  match target with
  | some name => do
    set { f with types := f.types.erase name }
    let target ← check (Target.ofName name)
    return .call m terms (some target)
  | none => return .call m terms none

def row (table : String) (columns : List (String × WrittenValue)) : Reading Instruction :=
  check ((namedTerms columns).map fun cs => .emit (.row table cs))

def line (values : List WrittenValue) : Reading Instruction :=
  check ((values.mapM WrittenValue.toTerm).map fun ts => .emit (.line ts))

def trace (process instanceId : WrittenValue) (fields : List WrittenAttribute) :
    Reading Instruction :=
  check do
    let process ← process.toTerm
    let instanceId ← instanceId.toTerm
    let fields ← fields.mapM WrittenAttribute.toField
    return .emit (.trace process instanceId fields)

def event (process instanceId : WrittenValue) (id : Option WrittenValue)
    (fields : List WrittenAttribute) : Reading Instruction :=
  check do
    let process ← process.toTerm
    let instanceId ← instanceId.toTerm
    let id ← match id with
      | some id => id.toTerm.map some
      | none => .ok none
    let fields ← fields.mapM WrittenAttribute.toField
    return .emit (.event process instanceId id fields)

def request (uri : WrittenValue) (fields : List (String × WrittenValue)) : Reading Instruction :=
  check do
    let uri ← uri.toTerm
    let fields ← namedTerms fields
    return .emit (.request uri fields)

def outputFolder (literal : String) : Reading Instruction :=
  check ((Directive.outputFolder.read literal).map .setFolder)

def connection (literal : String) : Reading Instruction :=
  check ((Directive.connection.read literal).map .connect)

end Reading
end ChainQuery
