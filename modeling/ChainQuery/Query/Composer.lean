import ChainQuery.Program.Instruction

/-!
# Composing a program

The scopes that are open while a query is read form a stack, the program at its bottom. An
instruction goes to the innermost scope, and a scope that closes becomes an instruction of the scope
around it.
-/

namespace ChainQuery

structure OpenScope where
  kind : ScopeKind
  body : List Instruction := []
deriving Repr, Inhabited, BEq

/-- The open scopes, the innermost one first. -/
structure Composer where
  scopes : List OpenScope := []
deriving Repr, Inhabited, BEq

namespace Composer

def depth (c : Composer) : Nat :=
  c.scopes.length

def innermost? (c : Composer) : Option ScopeKind :=
  c.scopes.head?.map OpenScope.kind

def openProgram (c : Composer) : Except BuildError Composer :=
  match c.scopes with
  | [] => .ok ⟨[{ kind := .program }]⟩
  | _ => .error .programAlreadyPrepared

def openFilter (c : Composer) (kind : FilterKind) : Except BuildError Composer :=
  match c.scopes with
  | [] => .error .noOpenScope
  | scopes => .ok ⟨{ kind := .filter kind } :: scopes⟩

def add (c : Composer) (i : Instruction) : Except BuildError Composer :=
  match c.scopes with
  | [] => .error .noOpenScope
  | s :: scopes => .ok ⟨{ s with body := s.body ++ [i] } :: scopes⟩

/-- Closes the innermost scope, which must be of the kind of the filter. -/
def closeFilter (c : Composer) (f : Filter) : Except BuildError Composer :=
  match c.scopes with
  | [] => .error .noOpenScope
  | s :: scopes =>
    if s.kind = .filter f.kind then add ⟨scopes⟩ (.filter f s.body)
    else .error (.unfinishedConstruction (.filter f.kind) s.kind)

/-- Closes the program, which must be the only open scope. -/
def closeProgram (c : Composer) : Except BuildError (Program × Composer) :=
  match c.scopes with
  | [] => .error .noOpenScope
  | [s] => .ok (⟨s.body⟩, ⟨[]⟩)
  | scopes => .error (.openScopes (scopes.length - 1))

end Composer
end ChainQuery
