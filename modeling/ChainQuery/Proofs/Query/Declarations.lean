import ChainQuery.Proofs.Query.Events
import ChainQuery.Proofs.Value.Types

/-!
# Declared variables

A variable keeps the type that it was declared with, as far as assignments go: a value that is known
to be of another type is refused. A call is not held to the type of its target, and it makes the
compiler forget that type where the variable is read.
-/

namespace ChainQuery

namespace TypeFacts

/-- What is known of the type of a term: a declared variable has the type of its declaration. -/
def known (f : TypeFacts) : Term → ValueType
  | .named name => (f.declared.get? name).getD (f.typeOf (.named name))
  | t => f.typeOf t

def written (f : TypeFacts) : Instruction → ValueType
  | .assign _ t => f.known t
  | .call m _ _ => m.result
  | _ => .any

/-- An instruction writes a value whose known type does not fit a declared one, and that is not looked
at: the result of a method, or a variable whose declared type a call has made forgotten. -/
inductive Overlooks (f : TypeFacts) (declared : ValueType) : Instruction → Prop
  | result {m : Builtin} {ts : List Term} {target : Option Target}
      (hm : declared.accepts m.result = false) : Overlooks f declared (.call m ts target)
  | forgotten {name : String} {t : ValueType} {target : Target}
      (htypes : f.types.get? name = none) (hdeclared : f.declared.get? name = some t)
      (ht : declared.accepts t = false) : Overlooks f declared (.assign target (.named name))

/-- Where a type is written down for a declared variable, it is that of the declaration. -/
def Agrees (f : TypeFacts) : Prop :=
  ∀ name declared t, f.declared.get? name = some declared → f.types.get? name = some t →
    t = declared

theorem agrees_empty : ({} : TypeFacts).Agrees := by
  intro name declared t h _
  cases (NameMap.get?_empty name).symm.trans h

theorem Agrees.declare {f : TypeFacts} (h : f.Agrees) (name : String) (declared : ValueType) :
    (f.declare name declared).Agrees := by
  intro other u t hu ht
  rw [TypeFacts.declare, NameMap.get?_set] at hu ht
  split at hu
  · next heq =>
    rw [if_pos heq] at ht
    exact Option.some.inj (ht.symm.trans hu)
  · next hne =>
    rw [if_neg hne] at ht
    exact h other u t hu ht

theorem Agrees.learn {f : TypeFacts} (h : f.Agrees) (name : String) (t : ValueType) :
    (f.learn name ((f.declared.get? name).getD t)).Agrees := by
  intro other u s hu hs
  have hdeclared : f.declared.get? other = some u := hu
  rw [TypeFacts.learn, NameMap.get?_set] at hs
  split at hs
  · next heq =>
    rw [heq, hdeclared] at hs
    exact (Option.some.inj hs).symm
  · exact h other u s hdeclared hs

theorem Agrees.forget {f : TypeFacts} (h : f.Agrees) (name : String) : (f.forget name).Agrees := by
  intro other u s hu hs
  have hdeclared : f.declared.get? other = some u := hu
  rw [TypeFacts.forget, NameMap.get?_erase] at hs
  split at hs
  · cases hs
  · exact h other u s hdeclared hs

theorem Agrees.of_yields {e : QueryEvent} {x : Reading Instruction} {f f' : TypeFacts}
    {i : Instruction} (hf : f.Agrees) (hx : e.statement? = some x) (h : Yields x f i f') :
    f'.Agrees := by
  obtain ⟨-, rfl⟩ | ⟨name, -, -, hcase⟩ := Reading.facts_of_statement hx h
  · exact hf
  · obtain ⟨_, _, declared, -, -, rfl⟩ | ⟨_, t, -, -, rfl⟩ | ⟨_, _, -, rfl⟩ := hcase
    · exact hf.declare name declared
    · exact hf.learn name _
    · exact hf.forget name

/-- Of a term the compiler sees what is known, unless a call has made it forget. -/
theorem Agrees.accepts_known_iff {f : TypeFacts} (hf : f.Agrees) {declared : ValueType} {t : Term}
    (h : declared.accepts (f.typeOf t) = true) (target : Target) :
    declared.accepts (f.known t) = true ↔ ¬ f.Overlooks declared (.assign target t) := by
  constructor
  · intro hknown hoverlooks
    cases hoverlooks with
    | forgotten htypes hdeclared ht =>
      rw [known, hdeclared, Option.getD_some, ht] at hknown
      cases hknown
  · intro hlooks
    cases t with
    | literal v => exact h
    | chain field => exact h
    | named name =>
      cases hdeclared : f.declared.get? name with
      | none =>
        rw [known, hdeclared]
        exact h
      | some u =>
        rw [known, hdeclared, Option.getD_some]
        cases htypes : f.types.get? name with
        | none =>
          cases hu : declared.accepts u with
          | false => exact absurd (.forgotten htypes hdeclared hu) hlooks
          | true => rfl
        | some s =>
          obtain rfl := hf name u s hdeclared htypes
          rw [typeOf, htypes] at h
          exact h

end TypeFacts

namespace Compiler

/-- None of the events is a declaration of the variable that can be read. -/
def Spares (name : String) (c : Compiler) : List QueryEvent → Prop
  | [] => True
  | e :: es =>
    (∀ type value i f, e = .declaration type name value →
      ¬ Yields (Reading.declare type name value) c.toTypeFacts i f) ∧
    Spares name (c.step e).2 es

/-- A declared variable, with what holds of all types that are written down. -/
structure Declares (name : String) (declared : ValueType) (c : Compiler) : Prop where
  unreserved : c.Unreserved
  agrees : c.Agrees
  declared : c.declared.get? name = some declared

theorem agrees_step {c : Compiler} (hfree : c.Unreserved) (h : c.Agrees) (e : QueryEvent) :
    (c.step e).2.Agrees := by
  obtain hsame | ⟨x, i, hx, hread⟩ := facts_step hfree e
  · rw [hsame]
    exact h
  · exact h.of_yields hx hread

theorem agrees_after {c : Compiler} (hfree : c.Unreserved) (h : c.Agrees) (es : List QueryEvent) :
    (c.after es).Agrees := by
  induction es generalizing c with
  | nil => exact h
  | cons e es ih => exact ih (unreserved_step hfree e) (agrees_step hfree h e)

theorem Declares.step {name : String} {declared : ValueType} {c : Compiler}
    (h : c.Declares name declared) {e : QueryEvent}
    (hspares : ∀ type value i f, e = .declaration type name value →
      ¬ Yields (Reading.declare type name value) c.toTypeFacts i f) :
    (c.step e).2.Declares name declared where
  unreserved := unreserved_step h.unreserved e
  agrees := agrees_step h.unreserved h.agrees e
  declared := by
    obtain hsame | ⟨x, i, hx, hread⟩ := facts_step h.unreserved e
    · rw [hsame]
      exact h.declared
    · obtain ⟨-, hsame⟩ | ⟨other, -, -, hcase⟩ := Reading.facts_of_statement hx hread
      · rw [hsame]
        exact h.declared
      · obtain ⟨type, value, t, rfl, -, hfacts⟩ | ⟨_, _, -, -, hfacts⟩ | ⟨_, _, -, hfacts⟩ := hcase
        · have hne : other ≠ name := by
            rintro rfl
            cases hx
            exact hspares type value i _ rfl hread
          rw [hfacts, TypeFacts.declare, NameMap.get?_set_of_ne _ t hne]
          exact h.declared
        · rw [hfacts]
          exact h.declared
        · rw [hfacts]
          exact h.declared

theorem Declares.after {name : String} {declared : ValueType} {c : Compiler}
    (h : c.Declares name declared) {es : List QueryEvent} (hspares : c.Spares name es) :
    (c.after es).Declares name declared := by
  induction es generalizing c with
  | nil => exact h
  | cons e es ih => exact ih (h.step hspares.1) hspares.2

theorem Declares.of_declaration {c : Compiler} (hfree : c.Unreserved) (hagrees : c.Agrees)
    {type name : String} {value : WrittenValue} {declared : ValueType} {result : Option Program}
    (htype : ValueType.read type = .ok declared)
    (h : (c.step (.declaration type name value)).1 = .ok result) :
    (c.step (.declaration type name value)).2.Declares name declared where
  unreserved := unreserved_step hfree _
  agrees := agrees_step hfree hagrees _
  declared := by
    obtain ⟨d, hyields, hstep⟩ := yields_of_step h
    obtain ⟨-, i, f, hread, rfl⟩ := Draft.read_of_statement rfl hyields
    obtain ⟨t, _, ht, -, -, -, -, rfl⟩ := Reading.yields_declare.mp hread
    obtain rfl : declared = t := Except.ok.inj (htype.symm.trans ht)
    rw [hstep]
    exact NameMap.get?_set_self _ name declared

/-- A value that does not fit the declaration is refused, and nothing changes. -/
theorem Declares.step_assignment {name : String} {declared : ValueType} {c : Compiler}
    (h : c.Declares name declared) {value : WrittenValue} {t : Term} (ht : value.toTerm = .ok t)
    (hfits : declared.accepts (c.typeOf t) = false) :
    c.step (.assignment name value) =
      (.error ⟨.typeMismatch name declared (c.typeOf t), c.position⟩, c) := by
  have hassign : Fails (Reading.assign name value) c.toTypeFacts
      (.typeMismatch name declared (c.typeOf t)) c.toTypeFacts :=
    Reading.assign_refuses h.declared ht hfits
  refine step_eq_error.mpr ⟨_, c.toDraft, ?_, rfl, rfl⟩
  exact Draft.fails_then_none.mpr (Draft.fails_state.mpr (.inl ⟨_, hassign, rfl⟩))

/-- What a successful event adds that writes a declared variable and is no declaration. -/
theorem Declares.step_write {name : String} {declared : ValueType} {c : Compiler}
    (h : c.Declares name declared) {e : QueryEvent} {result : Option Program}
    (hwritten : e.written? = some name) (hkind : ∀ type value, e ≠ .declaration type name value)
    (hok : (c.step e).1 = .ok result) :
    ∃ i, (c.step e).2.composer = c.composer.extend [i] ∧
      ((∃ t, i = .assign ⟨name⟩ t) ∨ ∃ m ts, i = .call m ts (some ⟨name⟩)) ∧
      (declared.accepts (c.written i) = true ↔ ¬ c.Overlooks declared i) := by
  obtain ⟨d, hyields, hstep⟩ := yields_of_step hok
  rw [hstep]
  cases e with
  | declaration type other value =>
    cases hwritten
    exact absurd rfl (hkind type value)
  | assignment other value =>
    cases hwritten
    obtain ⟨-, i, f, hread, rfl⟩ := Draft.read_of_statement rfl hyields
    obtain ⟨t, -, hfits, -, rfl, -⟩ := Reading.yields_assign.mp hread
    exact ⟨_, rfl, .inl ⟨t, rfl⟩, h.agrees.accepts_known_iff (hfits declared h.declared) _⟩
  | call target method args =>
    obtain rfl : target = some name := hwritten
    obtain ⟨-, i, f, hread, rfl⟩ := Draft.read_of_statement rfl hyields
    obtain ⟨ts, m, -, -, -, rfl, -⟩ := Reading.yields_call.mp hread
    refine ⟨_, rfl, .inr ⟨m, ts, rfl⟩, ?_⟩
    constructor
    · intro haccepts hoverlooks
      cases hoverlooks with
      | result hm => cases hm.symm.trans haccepts
    · intro hlooks
      cases haccepts : declared.accepts m.result with
      | false => exact absurd (.result haccepts) hlooks
      | true => exact haccepts
  | _ => cases hwritten

end Compiler

/-- After a declaration and up to the next one that can be read, an assignment of a value that is
known to be of another type is refused. An event that succeeds writes a value whose known type fits
the declaration, unless it is a call with a result of another type or an assignment of a variable
whose declared type a call has made forgotten. Such a call gives no value that fits. -/
theorem declared_type_kept (es : List QueryEvent) (type name : String) (value : WrittenValue)
    (declared : ValueType) (later : List QueryEvent)
    (htype : ValueType.read type = .ok declared)
    (hdeclared : ((({} : Compiler).after es).step (.declaration type name value)).1 = .ok none)
    (hspares : ((({} : Compiler).after es).step (.declaration type name value)).2.Spares name
      later) :
    let c := ((({} : Compiler).after es).step (.declaration type name value)).2.after later
    (∀ e result, e.written? = some name → (∀ type value, e ≠ .declaration type name value) →
      (c.step e).1 = .ok result →
      ∃ i, (c.step e).2.composer = c.composer.extend [i] ∧
        ((∃ t, i = .assign ⟨name⟩ t) ∨ ∃ m ts, i = .call m ts (some ⟨name⟩)) ∧
        (declared.accepts (c.written i) = true ↔ ¬ c.Overlooks declared i)) ∧
    (∀ value t, value.toTerm = .ok t → declared.accepts (c.typeOf t) = false →
      c.step (.assignment name value) =
        (.error ⟨.typeMismatch name declared (c.typeOf t), c.position⟩, c)) ∧
    ∀ (m : Builtin) args v, declared.accepts m.result = false → m.apply args = .ok v →
      declared.accepts v.type = false := by
  intro c
  have hfree : (({} : Compiler).after es).Unreserved :=
    Compiler.unreserved_after TypeFacts.unreserved_empty es
  have hagrees : (({} : Compiler).after es).Agrees :=
    Compiler.agrees_after TypeFacts.unreserved_empty TypeFacts.agrees_empty es
  have hc : c.Declares name declared :=
    (Compiler.Declares.of_declaration hfree hagrees htype hdeclared).after hspares
  refine ⟨?_, ?_, ?_⟩
  · intro e result hwritten hkind hok
    exact hc.step_write hwritten hkind hok
  · intro value t ht hfits
    exact hc.step_assignment ht hfits
  · intro m args v hm hv
    exact Builtin.refuses_of_result hv hm

def flagDeclared : Compiler :=
  ((({} : Compiler).after [.enterProgram]).step (.declaration "bool" "x" (.literal "true"))).2

theorem step_flagDeclared :
    ((({} : Compiler).after [.enterProgram]).step
      (.declaration "bool" "x" (.literal "true"))).1 = .ok none := by with_unfolding_all rfl

theorem read_bool : ValueType.read "bool" = .ok .bool := by with_unfolding_all rfl

/-- A text for a declared truth value is refused. -/
theorem declared_flag_kept :
    ValueType.read "bool" = .ok .bool ∧
      ((({} : Compiler).after [.enterProgram]).step
        (.declaration "bool" "x" (.literal "true"))).1 = .ok none ∧
      flagDeclared.Spares "x" [.assignment "y" (.literal "true")] ∧
      (((flagDeclared.after [.assignment "y" (.literal "true")]).step
        (.assignment "x" (.literal "\"a\""))).1 =
          .error ⟨.typeMismatch "x" .bool .str, none⟩) := by
  have hspares : flagDeclared.Spares "x" [.assignment "y" (.literal "true")] :=
    ⟨fun _ _ _ _ h => (nomatch h), trivial⟩
  have ht : WrittenValue.toTerm (.literal "\"a\"") = .ok (.literal (.str "a")) := rfl
  obtain ⟨-, hrefused, -⟩ := declared_type_kept [.enterProgram] "bool" "x" (.literal "true") .bool
    [.assignment "y" (.literal "true")] read_bool step_flagDeclared hspares
  have hposition : (flagDeclared.after [.assignment "y" (.literal "true")]).position = none := by
    with_unfolding_all rfl
  have hanswer := congrArg Prod.fst (hrefused (.literal "\"a\"") (.literal (.str "a")) ht rfl)
  refine ⟨read_bool, step_flagDeclared, hspares, ?_⟩
  rw [← hposition]
  exact hanswer

/-- The call of a method that gives a list, with the declared truth value as its target. -/
def overwriting : QueryEvent :=
  .call (some "x") "newList" []

/-- A call writes a list to a variable that is declared as a truth value. -/
theorem declared_flag_overwritten :
    ¬ ∀ (es : List QueryEvent) (type name : String) (value : WrittenValue) (declared : ValueType)
      (later : List QueryEvent), ValueType.read type = .ok declared →
      ((({} : Compiler).after es).step (.declaration type name value)).1 = .ok none →
      ((({} : Compiler).after es).step (.declaration type name value)).2.Spares name later →
      let c := ((({} : Compiler).after es).step (.declaration type name value)).2.after later
      ∀ e result, e.written? = some name → (∀ type value, e ≠ .declaration type name value) →
        (c.step e).1 = .ok result →
        ∃ i, (c.step e).2.composer = c.composer.extend [i] ∧
          declared.accepts (c.written i) = true := by
  intro h
  have htaken : (flagDeclared.step overwriting).1 = .ok none := by with_unfolding_all rfl
  have hcomposer : (flagDeclared.step overwriting).2.composer =
      ⟨[⟨.program, [.assign ⟨"x"⟩ (.literal (.bool true)),
        .call .newList [] (some ⟨"x"⟩)]⟩]⟩ := by with_unfolding_all rfl
  have hbefore : flagDeclared.composer =
      ⟨[⟨.program, [.assign ⟨"x"⟩ (.literal (.bool true))]⟩]⟩ := by with_unfolding_all rfl
  have hkind : ∀ type value, overwriting ≠ .declaration type "x" value := by
    intro type value heq
    cases heq
  obtain ⟨i, hadded, haccepts⟩ := h [.enterProgram] "bool" "x" (.literal "true") .bool [] read_bool
    step_flagDeclared trivial overwriting none rfl hkind htaken
  have hextended : (flagDeclared.step overwriting).2.composer =
      flagDeclared.composer.extend [i] := hadded
  rw [hcomposer, hbefore] at hextended
  have hi : i = .call .newList [] (some ⟨"x"⟩) := by
    simpa [Composer.extend] using hextended.symm
  rw [hi] at haccepts
  cases haccepts

end ChainQuery
