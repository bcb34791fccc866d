import ChainQuery.Proofs.Query.Declarations
import ChainQuery.Proofs.Query.Lookups

/-!
# Programs one after the other

A compiler that has given a program can be sent the events of another one. No scope of the first
program is open then, but its operands and what is known of its variables stay. The next program is
compiled as by a new compiler as long as it does not come across them.
-/

namespace ChainQuery

theorem Composer.scopes_of_closeProgram {c c' : Composer} {p : Program}
    (h : c.closeProgram = .ok (p, c')) : c' = ⟨[]⟩ := by
  unfold closeProgram at h
  split at h
  · cases h
  · cases h
    rfl
  · cases h

namespace TypeFacts

/-- Nothing is left of a variable: no declaration, and no type that would be known where it is read. -/
def Forgot (f : TypeFacts) (name : String) : Prop :=
  f.declared.get? name = none ∧ f.typeOf (.named name) = .any

theorem forgot_empty (name : String) : ({} : TypeFacts).Forgot name := by
  refine ⟨NameMap.get?_empty name, ?_⟩
  rw [typeOf, show ({} : TypeFacts).types.get? name = none from NameMap.get?_empty name]
  rfl

theorem agreeOn_forgot (f : TypeFacts) : f.AgreeOn f.Forgot {} := by
  intro name h
  have hempty := forgot_empty name
  exact ⟨h.2.trans hempty.2.symm, h.1.trans hempty.1.symm⟩

def DeclaresVariables (f : TypeFacts) : Prop :=
  ∀ name t, f.declared.get? name = some t → ChainField.ofName? name = none

theorem declaresVariables_empty : ({} : TypeFacts).DeclaresVariables := by
  intro name t h
  cases (NameMap.get?_empty name).symm.trans h

theorem DeclaresVariables.of_yields {e : QueryEvent} {x : Reading Instruction} {f f' : TypeFacts}
    {i : Instruction} (hf : f.DeclaresVariables) (hx : e.statement? = some x)
    (h : Yields x f i f') : f'.DeclaresVariables := by
  obtain ⟨-, rfl⟩ | ⟨name, -, hname, hcase⟩ := Reading.facts_of_statement hx h
  · exact hf
  · obtain ⟨_, _, declared, -, -, rfl⟩ | ⟨_, _, -, -, rfl⟩ | ⟨_, _, -, rfl⟩ := hcase
    · intro other t hother
      rw [TypeFacts.declare, NameMap.get?_set] at hother
      split at hother
      · next heq => exact heq ▸ hname
      · exact hf other t hother
    · exact hf
    · exact hf

end TypeFacts

namespace Draft

/-- What a draft answers to events, one after the other. -/
def answers (d : Draft) : List QueryEvent → List (Except BuildError (Option Program))
  | [] => []
  | e :: es => ((compile e).run d).1 :: answers ((compile e).run d).2 es

theorem answers_of_takes {es : List QueryEvent} {d d' : Draft} (h : d.Takes es d')
    (later : List QueryEvent) :
    d.answers (es ++ later) = List.replicate es.length (.ok none) ++ d'.answers later := by
  induction es generalizing d with
  | nil =>
    obtain rfl : d' = d := h
    rfl
  | cons e es ih =>
    obtain ⟨d₁, hyields, hrest⟩ := h
    have hrun : (compile e).run d = (.ok none, d₁) := hyields
    rw [List.cons_append, answers, hrun, ih hrest]
    rfl

/-- A last event tells two drafts apart, after events that both have taken. -/
theorem answers_ne {es : List QueryEvent} {last : QueryEvent} {d d' g g' : Draft}
    (hd : d.Takes es g) (hd' : d'.Takes es g')
    (hlast : ((compile last).run g).1 ≠ ((compile last).run g').1) :
    d.answers (es ++ [last]) ≠ d'.answers (es ++ [last]) := by
  rw [answers_of_takes hd, answers_of_takes hd']
  intro h
  exact hlast (List.head_eq_of_cons_eq (List.append_cancel_left h))

theorem ne_of_yields_fails {x : Compiling α} {d d' g g' : Draft} {a : α} {cause : BuildError}
    (h : Yields x d a g) (h' : Fails x d' cause g') : (x.run d).1 ≠ (x.run d').1 := by
  have hok : (x.run d).1 = .ok a := congrArg Prod.fst h
  have herror : (x.run d').1 = .error cause := congrArg Prod.fst h'
  rw [hok, herror]
  exact nofun

def opened (d : Draft) : Draft :=
  { d with composer := ⟨[{ kind := .program }]⟩ }

theorem opened_open (d : Draft) : d.opened.composer.Open := List.cons_ne_nil _ _

theorem yields_opened {d : Draft} (h : d.composer = ⟨[]⟩) :
    Yields (compile .enterProgram) d none d.opened := by
  refine yields_then_none.mpr (yields_compose.mpr ⟨⟨[{ kind := .program }]⟩, ?_, rfl⟩)
  rw [h]
  rfl

theorem takes_opened {d : Draft} (h : d.composer = ⟨[]⟩) : d.Takes [.enterProgram] d.opened :=
  takes_single.mpr (yields_opened h)

theorem yields_stated {e : QueryEvent} {x : Reading Instruction} {d : Draft} {i : Instruction}
    {f : TypeFacts} (hx : e.statement? = some x) (hopen : d.composer.Open)
    (h : Yields x d.toTypeFacts i f) : Yields (compile e) d none (d.extend f [i]) := by
  rw [compile_statement hx]
  exact yields_then_none.mpr ((yields_state hopen).mpr ⟨i, f, h, rfl⟩)

theorem fails_unread {e : QueryEvent} {x : Reading Instruction} {d : Draft} {cause : BuildError}
    {f : TypeFacts} (hx : e.statement? = some x) (h : Fails x d.toTypeFacts cause f) :
    Fails (compile e) d cause { d with toTypeFacts := f } := by
  rw [compile_statement hx]
  exact fails_then_none.mpr (fails_state.mpr (.inl ⟨f, h, rfl⟩))

end Draft

theorem toTerm_true : WrittenValue.toTerm (.literal "true") = .ok (.literal (.bool true)) := rfl

theorem toTerm_text : WrittenValue.toTerm (.literal "\"a\"") = .ok (.literal (.str "a")) := rfl

theorem read_string : ValueType.read "string" = .ok .str := by with_unfolding_all rfl

/-- Every type but `any` refuses some literal. -/
theorem ValueType.refused_literal {declared : ValueType} (h : declared ≠ .any) :
    ∃ text v, WrittenValue.toTerm (.literal text) = .ok (.literal v) ∧
      declared.accepts v.type = false := by
  cases declared with
  | any => exact absurd rfl h
  | bool => exact ⟨_, _, toTerm_text, rfl⟩
  | _ => exact ⟨_, _, toTerm_true, rfl⟩

/-- Every type but `any` is refused by some type that can be declared. -/
theorem ValueType.refusing_keyword {actual : ValueType} (h : actual ≠ .any) :
    ∃ keyword declared, ValueType.read keyword = .ok declared ∧
      declared.accepts actual = false := by
  cases actual with
  | any => exact absurd rfl h
  | bool => exact ⟨_, _, read_string, rfl⟩
  | _ => exact ⟨_, _, read_bool, rfl⟩

theorem WrittenValue.toTermAt_named {name : String} (h : ChainField.ofName? name = none)
    (type : ValueType) : (WrittenValue.named name).toTermAt type = .ok (.named name) := by
  show Except.ok (Term.ofName name) = _
  rw [Term.ofName, h]

namespace Draft
variable {d : Draft} {name : String}

/-- An operand that is left makes the condition of the next program fail. -/
theorem answers_of_operand (hd : d.composer = ⟨[]⟩) (h : d.operands ≠ []) :
    ∃ later, d.answers (.enterProgram :: later) ≠ ({} : Draft).answers (.enterProgram :: later) := by
  refine ⟨[.enterFilter .condition, .operand (.literal "true"), .exitCondition], ?_⟩
  have htakes : ∀ g : Draft, g.composer = ⟨[]⟩ →
      g.Takes [.enterProgram, .enterFilter .condition, .operand (.literal "true")]
        { g with
          composer := ⟨[{ kind := .filter .condition }, { kind := .program }]⟩
          operands := .term (.literal (.bool true)) :: g.operands } := by
    intro g hg
    have hoperand : (do
        operate (.operand (← Compiling.check (WrittenValue.toTerm (.literal "true"))))
        return none : Compiling (Option Program)) = compile (.operand (.literal "true")) := rfl
    refine ⟨_, yields_opened hg, _, rfl, _, ?_, rfl⟩
    rw [← hoperand, toTerm_true]
    rfl
  have hlast : ((compile .exitCondition).run { d with
      composer := ⟨[{ kind := .filter .condition }, { kind := .program }]⟩
      operands := .term (.literal (.bool true)) :: d.operands }).1 =
        .error .booleanExpressionTree := by
    cases hrest : d.operands with
    | nil => exact absurd hrest h
    | cons top rest => rfl
  refine answers_ne (htakes d hd) (htakes {} rfl) ?_
  rw [hlast]
  exact nofun

/-- A type that is left where a variable is read makes the next program fail that declares the
variable by itself. -/
theorem answers_of_type (hd : d.composer = ⟨[]⟩) (hname : ChainField.ofName? name = none)
    (h : d.typeOf (.named name) ≠ .any) :
    ∃ later, d.answers (.enterProgram :: later) ≠ ({} : Draft).answers (.enterProgram :: later) := by
  obtain ⟨keyword, declared, hread, hrefuses⟩ := ValueType.refusing_keyword h
  have hterm := WrittenValue.toTermAt_named hname declared
  have hfails : Fails (compile (.declaration keyword name (.named name))) d.opened _ _ :=
    fails_unread rfl (Reading.declare_refuses hread hterm hrefuses)
  have hfits : declared.accepts (({} : TypeFacts).typeOf (.named name)) = true := by
    rw [(TypeFacts.forgot_empty name).2]
    cases declared <;> rfl
  have hyields : Yields (compile (.declaration keyword name (.named name))) ({} : Draft).opened _ _ :=
    yields_stated rfl (opened_open {})
      (Reading.yields_declare.mpr ⟨declared, _, hread, hterm, hfits, hname, rfl, rfl⟩)
  exact ⟨_, answers_ne (takes_opened hd) (takes_opened rfl) (ne_of_yields_fails hyields hfails).symm⟩

def flagged (d : Draft) (name : String) : Draft :=
  d.opened.extend (d.learn name ((d.declared.get? name).getD .bool))
    [.assign ⟨name⟩ (.literal (.bool true))]

theorem takes_flagged (hd : d.composer = ⟨[]⟩) (hname : ChainField.ofName? name = none)
    (hfits : ∀ t, d.declared.get? name = some t → t.accepts .bool = true) :
    d.Takes [.enterProgram, .assignment name (.literal "true")] (d.flagged name) :=
  ⟨_, yields_opened hd, _, yields_stated rfl (opened_open d)
    (Reading.yields_assign.mpr ⟨_, toTerm_true, hfits, hname, rfl, rfl⟩), rfl⟩

theorem typeOf_flagged :
    (d.flagged name).typeOf (.named name) = (d.declared.get? name).getD .bool := by
  show (d.learn name _).typeOf (.named name) = _
  rw [TypeFacts.typeOf_learn, if_pos rfl]

/-- A declaration that is left shows in an assignment of the next program. -/
theorem answers_of_declared (hd : d.composer = ⟨[]⟩) (hname : ChainField.ofName? name = none)
    {declared : ValueType} (h : d.declared.get? name = some declared) :
    ∃ later, d.answers (.enterProgram :: later) ≠ ({} : Draft).answers (.enterProgram :: later) := by
  have hnew : ({} : Draft).declared.get? name = none := NameMap.get?_empty name
  have hfree : ∀ v : ValueType, ∀ t, ({} : Draft).declared.get? name = some t →
      t.accepts v = true := by
    intro v t ht
    cases hnew.symm.trans ht
  by_cases hany : declared = .any
  · -- the truth value makes the type known, unless the variable is declared as `any`
    subst hany
    have hfits : ∀ t, d.declared.get? name = some t → t.accepts .bool = true := by
      intro t ht
      obtain rfl : .any = t := Option.some.inj (h.symm.trans ht)
      rfl
    have hterm := WrittenValue.toTermAt_named hname .str
    have htype : (d.flagged name).typeOf (.named name) = .any := by
      rw [typeOf_flagged, h]
      rfl
    have hnewType : (({} : Draft).flagged name).typeOf (.named name) = .bool := by
      rw [typeOf_flagged, hnew]
      rfl
    have hyields : Yields (compile (.declaration "string" name (.named name))) (d.flagged name) _ _ :=
      yields_stated rfl ((opened_open d).extend _) (Reading.yields_declare.mpr
        ⟨.str, _, read_string, hterm, by rw [htype]; rfl, hname, rfl, rfl⟩)
    have hfails : Fails (compile (.declaration "string" name (.named name)))
        (({} : Draft).flagged name) _ _ :=
      fails_unread rfl (Reading.declare_refuses read_string hterm (by rw [hnewType]; rfl))
    exact ⟨_, answers_ne (takes_flagged hd hname hfits) (takes_flagged rfl hname (hfree .bool))
      (ne_of_yields_fails hyields hfails)⟩
  · obtain ⟨text, v, hterm, hrefuses⟩ := ValueType.refused_literal hany
    have hfails : Fails (compile (.assignment name (.literal text))) d.opened _ _ :=
      fails_unread rfl (Reading.assign_refuses h hterm hrefuses)
    have hyields : Yields (compile (.assignment name (.literal text))) ({} : Draft).opened _ _ :=
      yields_stated rfl (opened_open {}) (Reading.yields_assign.mpr
        ⟨_, hterm, hfree v.type, hname, rfl, rfl⟩)
    exact ⟨_, answers_ne (takes_opened hd) (takes_opened rfl)
      (ne_of_yields_fails hyields hfails).symm⟩

/-- Each variable whose type an event looks up is a known one, or one that an event before it has
declared. -/
def Supplies (known : String → Prop) (d : Draft) : List QueryEvent → Prop
  | [] => True
  | e :: es =>
    (∀ name ∈ e.lookups, known name) ∧
    Supplies
      (fun name => known name ∨
        (∃ type value, e = .declaration type name value) ∧ ((compile e).run d).1 = .ok none)
      ((compile e).run d).2 es

variable {known : String → Prop} {d' : Draft}

theorem AgreeOn.step {e : QueryEvent} (h : d.AgreeOn known d')
    (hlookups : ∀ name ∈ e.lookups, known name) :
    ((compile e).run d).1 = ((compile e).run d').1 ∧
      ((compile e).run d).2.AgreeOn
        (fun name => known name ∨
          (∃ type value, e = .declaration type name value) ∧ ((compile e).run d').1 = .ok none)
        ((compile e).run d').2 := by
  obtain ⟨hresult, hagree⟩ := concerted_compile h hlookups
  refine ⟨hresult, hagree.composer, hagree.operands, ?_⟩
  rintro name (hname | ⟨⟨type, value, rfl⟩, hok'⟩)
  · exact hagree.facts name hname
  -- both have written down the type of the declaration
  have hyields : Yields (compile (.declaration type name value)) d none
      ((compile (.declaration type name value)).run d).2 := Prod.ext (hresult.trans hok') rfl
  have hyields' : Yields (compile (.declaration type name value)) d' none
      ((compile (.declaration type name value)).run d').2 := Prod.ext hok' rfl
  obtain ⟨-, i, f, hread, hd⟩ := read_of_statement rfl hyields
  obtain ⟨-, j, g, hread', hd'⟩ := read_of_statement rfl hyields'
  obtain ⟨declared, _, htype, -, -, -, -, rfl⟩ := Reading.yields_declare.mp hread
  obtain ⟨declared', _, htype', -, -, -, -, rfl⟩ := Reading.yields_declare.mp hread'
  obtain rfl : declared = declared' := Except.ok.inj (htype.symm.trans htype')
  rw [hd, hd']
  exact h.facts.declare name declared name (.inr rfl)

theorem AgreeOn.answers {es : List QueryEvent} (h : d.AgreeOn known d')
    (hsupplies : d'.Supplies known es) : d.answers es = d'.answers es := by
  induction es generalizing d d' known with
  | nil => rfl
  | cons e es ih =>
    obtain ⟨hresult, hagree⟩ := h.step hsupplies.1
    rw [Draft.answers, Draft.answers, hresult, ih hagree hsupplies.2]

theorem supplies_of_all (h : ∀ name, known name) (es : List QueryEvent) : d.Supplies known es := by
  induction es generalizing d known with
  | nil => trivial
  | cons e es ih => exact ⟨fun name _ => h name, ih fun name => .inl (h name)⟩

end Draft

namespace Compiler

/-- What a compiler answers to events, without the places of failures. -/
def answers (c : Compiler) (es : List QueryEvent) : List (Except BuildError (Option Program)) :=
  (c.outcomes es).map fun result => result.mapError LocatedError.cause

theorem answers_toDraft (c : Compiler) (es : List QueryEvent) :
    c.answers es = c.toDraft.answers es := by
  induction es generalizing c with
  | nil => rfl
  | cons e es ih =>
    have hlocated : (c.locate e).toDraft = c.toDraft := by
      cases e <;> rfl
    have hstep : (c.step e).1.mapError LocatedError.cause = ((Draft.compile e).run c.toDraft).1 ∧
        (c.step e).2.toDraft = ((Draft.compile e).run c.toDraft).2 := by
      rw [step, hlocated]
      rcases (Draft.compile e).run c.toDraft with ⟨cause | result, d⟩ <;> exact ⟨rfl, rfl⟩
    have hanswers : c.answers (e :: es) =
        (c.step e).1.mapError LocatedError.cause :: (c.step e).2.answers es := rfl
    rw [hanswers, ih, hstep.1, hstep.2]
    rfl

theorem declaresVariables_after {c : Compiler} (hfree : c.Unreserved) (h : c.DeclaresVariables)
    (es : List QueryEvent) : (c.after es).DeclaresVariables := by
  induction es generalizing c with
  | nil => exact h
  | cons e es ih =>
    refine ih (unreserved_step hfree e) ?_
    obtain hsame | ⟨x, i, hx, hread⟩ := facts_step hfree e
    · rw [hsame]
      exact h
    · exact h.of_yields hx hread

/-- The events of another program are answered as by a new compiler if they do not come across what
is left of the first one. -/
theorem answers_of_supplies {c : Compiler} (hcomposer : c.composer = ⟨[]⟩) {es : List QueryEvent}
    (hoperands : c.operands = [] ∨ c.cleared.SelfContained es)
    (hsupplies : ({} : Draft).Supplies c.Forgot es) : c.answers es = ({} : Compiler).answers es := by
  have hcleared : c.answers es = c.cleared.answers es := by
    obtain hnone | hcontained := hoperands
    · rw [answers_toDraft, answers_toDraft, cleared, ← hnone]
    · exact congrArg _ (outcomes_above hcontained c.operands)
  have hagree : c.cleared.toDraft.AgreeOn c.Forgot {} :=
    ⟨hcomposer, rfl, c.agreeOn_forgot⟩
  rw [hcleared, answers_toDraft, hagree.answers hsupplies, answers_toDraft]

end Compiler

/-- After a program the compiler is a new one but for the operands and the types that are left of it.
A next program is answered as by a new compiler if it finds its own operands, should some be left, and
looks up no variable of which something is left before it has declared it; every next program is
exactly if nothing is left. -/
theorem next_program_independent_iff (es : List QueryEvent) (p : Program)
    (h : ((({} : Compiler).after es).step .exitProgram).1 = .ok (some p)) :
    let c := ((({} : Compiler).after es).step .exitProgram).2
    c.composer = {} ∧
    (∀ later, c.operands = [] ∨ c.cleared.SelfContained (.enterProgram :: later) →
      ({} : Draft).Supplies c.Forgot (.enterProgram :: later) →
      c.answers (.enterProgram :: later) = ({} : Compiler).answers (.enterProgram :: later)) ∧
    ((∀ later, c.answers (.enterProgram :: later) =
        ({} : Compiler).answers (.enterProgram :: later)) ↔
      c.operands = [] ∧ ∀ name, c.Forgot name) := by
  intro c
  have hfree : c.Unreserved :=
    Compiler.unreserved_step (Compiler.unreserved_after TypeFacts.unreserved_empty es) _
  have hvariables : c.DeclaresVariables := by
    have hafter : (({} : Compiler).after (es ++ [.exitProgram])).DeclaresVariables :=
      Compiler.declaresVariables_after TypeFacts.unreserved_empty
        TypeFacts.declaresVariables_empty _
    rw [Compiler.after, List.foldl_append] at hafter
    exact hafter
  have hcomposer : c.composer = ⟨[]⟩ := by
    obtain ⟨d, hyields, hd⟩ := Compiler.yields_of_step h
    obtain ⟨_, hclose, rfl⟩ := Draft.yields_exitProgram.mp hyields
    show (Compiler.toDraft _).composer = _
    rw [hd]
    exact Composer.scopes_of_closeProgram hclose
  refine ⟨hcomposer, fun later => Compiler.answers_of_supplies hcomposer, ?_, ?_⟩
  · intro hall
    have hsame : ¬ ∃ later, c.toDraft.answers (.enterProgram :: later) ≠
        ({} : Draft).answers (.enterProgram :: later) := by
      rintro ⟨later, hne⟩
      have heq := hall later
      rw [Compiler.answers_toDraft, Compiler.answers_toDraft] at heq
      exact hne heq
    refine ⟨?_, fun name => ⟨?_, ?_⟩⟩
    · by_contra hoperands
      exact hsame (Draft.answers_of_operand hcomposer hoperands)
    · cases hdeclared : c.declared.get? name with
      | none => rfl
      | some t =>
        exact absurd (Draft.answers_of_declared hcomposer (hvariables name t hdeclared) hdeclared)
          hsame
    · by_contra htype
      have hname : ChainField.ofName? name = none := by
        cases hfield : ChainField.ofName? name with
        | none => rfl
        | some field =>
          rw [TypeFacts.typeOf, hfree name field hfield] at htype
          exact absurd rfl htype
      exact hsame (Draft.answers_of_type hcomposer hname htype)
  · rintro ⟨hoperands, hforgot⟩ later
    exact Compiler.answers_of_supplies hcomposer (.inl hoperands)
      (Draft.supplies_of_all hforgot _)

/-- A program that declares the same variable anew is independent of the one before. -/
theorem redeclared_flag_independent :
    ((({} : Compiler).after [.enterProgram, .declaration "bool" "x" (.literal "true")]).step
        .exitProgram).1 = .ok (some ⟨[.assign ⟨"x"⟩ (.literal (.bool true))]⟩) ∧
      ((({} : Compiler).after [.enterProgram, .declaration "bool" "x" (.literal "true")]).step
          .exitProgram).2.answers
          [.enterProgram, .declaration "string" "x" (.literal "\"a\""),
            .assignment "x" (.literal "\"a\""), .exitProgram] =
        ({} : Compiler).answers
          [.enterProgram, .declaration "string" "x" (.literal "\"a\""),
            .assignment "x" (.literal "\"a\""), .exitProgram] := by
  have hended : ((({} : Compiler).after [.enterProgram,
      .declaration "bool" "x" (.literal "true")]).step .exitProgram).1 =
        .ok (some ⟨[.assign ⟨"x"⟩ (.literal (.bool true))]⟩) := by with_unfolding_all rfl
  obtain ⟨-, hindependent, -⟩ := next_program_independent_iff _ _ hended
  refine ⟨hended, hindependent _ (.inl ?_) ?_⟩
  · with_unfolding_all rfl
  · have hdeclared : ((Draft.compile (.declaration "string" "x" (.literal "\"a\""))).run
        ({} : Draft).opened).1 = .ok none := by with_unfolding_all rfl
    refine ⟨?_, ?_, ?_, ?_, trivial⟩
    · intro name hname
      cases hname
    · intro name hname
      cases hname
    · intro name hname
      obtain rfl := List.mem_singleton.mp hname
      exact .inr ⟨⟨_, _, rfl⟩, hdeclared⟩
    · intro name hname
      cases hname

/-- A declared truth value is refused a text in the next program. -/
theorem declared_flag_outlives_program :
    ¬ ∀ (es : List QueryEvent) (p : Program),
      ((({} : Compiler).after es).step .exitProgram).1 = .ok (some p) →
      ∀ later, ((({} : Compiler).after es).step .exitProgram).2.answers (.enterProgram :: later) =
        ({} : Compiler).answers (.enterProgram :: later) := by
  intro h
  have hended : ((({} : Compiler).after [.enterProgram,
      .declaration "bool" "x" (.literal "true")]).step .exitProgram).1 =
        .ok (some ⟨[.assign ⟨"x"⟩ (.literal (.bool true))]⟩) := by with_unfolding_all rfl
  have hsame := h _ _ hended [.assignment "x" (.literal "\"a\"")]
  have hafter : ((({} : Compiler).after [.enterProgram,
      .declaration "bool" "x" (.literal "true")]).step .exitProgram).2.answers
        [.enterProgram, .assignment "x" (.literal "\"a\"")] =
      [.ok none, .error (.typeMismatch "x" .bool .str)] := by with_unfolding_all rfl
  have hnew : ({} : Compiler).answers [.enterProgram, .assignment "x" (.literal "\"a\"")] =
      [.ok none, .ok none] := rfl
  rw [hafter, hnew] at hsame
  cases hsame

end ChainQuery
