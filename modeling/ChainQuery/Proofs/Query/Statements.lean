import ChainQuery.Proofs.Query.Structure

/-!
# Statements that write variables

What a declaration, an assignment and a call read as, and what each of them leaves of the types of
variables. The other statements leave the types as they are.
-/

namespace ChainQuery

def QueryEvent.written? : QueryEvent → Option String
  | declaration _ name _ => some name
  | assignment name _ => some name
  | call target _ _ => target
  | _ => none

namespace TypeFacts

def declare (f : TypeFacts) (name : String) (t : ValueType) : TypeFacts :=
  { types := f.types.set name t, declared := f.declared.set name t }

def learn (f : TypeFacts) (name : String) (t : ValueType) : TypeFacts :=
  { f with types := f.types.set name t }

def forget (f : TypeFacts) (name : String) : TypeFacts :=
  { f with types := f.types.erase name }

end TypeFacts

theorem Target.ofName_eq_ok {name : String} {t : Target} :
    Target.ofName name = .ok t ↔ ChainField.ofName? name = none ∧ t = ⟨name⟩ := by
  unfold Target.ofName
  cases ChainField.ofName? name with
  | none => simp [eq_comm]
  | some field => simp

namespace Reading

theorem checkAssignable_eq_ok {name : String} {declared actual : ValueType} {u : Unit} :
    checkAssignable name declared actual = .ok u ↔ declared.accepts actual = true := by
  unfold checkAssignable
  cases declared.accepts actual with
  | false => simp
  | true => simp

theorem yields_declare {type name : String} {value : WrittenValue} {f f' : TypeFacts}
    {i : Instruction} :
    Yields (declare type name value) f i f' ↔
      ∃ declared t, ValueType.read type = .ok declared ∧ value.toTermAt declared = .ok t ∧
        declared.accepts (f.typeOf t) = true ∧ ChainField.ofName? name = none ∧
        i = .assign ⟨name⟩ t ∧ f' = f.declare name declared := by
  rw [declare, yields_get_bind]
  simp only [yields_bind, yields_check, yields_set, yields_pure, checkAssignable_eq_ok,
    Target.ofName_eq_ok]
  constructor
  · intro h
    obtain ⟨declared, _, ⟨htype, rfl⟩, t, _, ⟨ht, rfl⟩, _, _, ⟨hfits, rfl⟩, _, _,
      ⟨⟨hname, rfl⟩, rfl⟩, _, _, rfl, rfl, rfl⟩ := h
    exact ⟨declared, t, htype, ht, hfits, hname, rfl, rfl⟩
  · intro h
    obtain ⟨declared, t, htype, ht, hfits, hname, rfl, rfl⟩ := h
    exact ⟨declared, f, ⟨htype, rfl⟩, t, f, ⟨ht, rfl⟩, ⟨⟩, f, ⟨hfits, rfl⟩, ⟨name⟩, f,
      ⟨⟨hname, rfl⟩, rfl⟩, ⟨⟩, _, rfl, rfl, rfl⟩

theorem yields_assign {name : String} {value : WrittenValue} {f f' : TypeFacts} {i : Instruction} :
    Yields (assign name value) f i f' ↔
      ∃ t, value.toTerm = .ok t ∧
        (∀ declared, f.declared.get? name = some declared →
          declared.accepts (f.typeOf t) = true) ∧
        ChainField.ofName? name = none ∧ i = .assign ⟨name⟩ t ∧
        f' = f.learn name ((f.declared.get? name).getD (f.typeOf t)) := by
  rw [assign, yields_get_bind]
  cases hdeclared : f.declared.get? name with
  | none =>
    simp only [yields_bind, yields_check, yields_set, yields_pure, Target.ofName_eq_ok,
      Option.getD_none, reduceCtorEq, false_imp_iff, forall_const, true_and]
    constructor
    · intro h
      obtain ⟨t, _, ⟨ht, rfl⟩, _, _, ⟨rfl, rfl⟩, _, _, ⟨⟨hname, rfl⟩, rfl⟩, _, _, rfl, rfl, rfl⟩ := h
      exact ⟨t, ht, hname, rfl, rfl⟩
    · intro h
      obtain ⟨t, ht, hname, rfl, rfl⟩ := h
      exact ⟨t, f, ⟨ht, rfl⟩, _, f, ⟨rfl, rfl⟩, ⟨name⟩, f, ⟨⟨hname, rfl⟩, rfl⟩, ⟨⟩, _, rfl, rfl, rfl⟩
  | some declared =>
    simp only [yields_bind, yields_check, yields_set, yields_pure, Target.ofName_eq_ok,
      checkAssignable_eq_ok, Option.getD_some, Option.some.injEq, forall_eq']
    constructor
    · intro h
      obtain ⟨t, _, ⟨ht, rfl⟩, _, _, ⟨hfits, rfl⟩, _, _, ⟨rfl, rfl⟩, _, _, ⟨⟨hname, rfl⟩, rfl⟩,
        _, _, rfl, rfl, rfl⟩ := h
      exact ⟨t, ht, hfits, hname, rfl, rfl⟩
    · intro h
      obtain ⟨t, ht, hfits, hname, rfl, rfl⟩ := h
      exact ⟨t, f, ⟨ht, rfl⟩, ⟨⟩, f, ⟨hfits, rfl⟩, declared, f, ⟨rfl, rfl⟩, ⟨name⟩, f,
        ⟨⟨hname, rfl⟩, rfl⟩, ⟨⟩, _, rfl, rfl, rfl⟩

/-- A call forgets the type of its target, whatever was known or declared of it. -/
theorem yields_call {target : Option String} {method : String} {args : List WrittenValue}
    {f f' : TypeFacts} {i : Instruction} :
    Yields (call target method args) f i f' ↔
      ∃ ts m, args.mapM WrittenValue.toTerm = .ok ts ∧
        Builtin.resolve method (ts.map f.typeOf) = .ok m ∧
        (∀ name ∈ target, ChainField.ofName? name = none) ∧
        i = .call m ts (target.map Target.mk) ∧ f' = target.elim f f.forget := by
  rw [call, yields_get_bind]
  cases target with
  | none =>
    simp only [yields_bind, yields_check, yields_pure, Option.map_none, Option.elim_none,
      Option.not_mem_none, false_imp_iff, forall_const, true_and]
    constructor
    · intro h
      obtain ⟨ts, _, ⟨hts, rfl⟩, m, _, ⟨hm, rfl⟩, rfl, rfl⟩ := h
      exact ⟨ts, m, hts, hm, rfl, rfl⟩
    · intro h
      obtain ⟨ts, m, hts, hm, rfl, rfl⟩ := h
      exact ⟨ts, _, ⟨hts, rfl⟩, m, _, ⟨hm, rfl⟩, rfl, rfl⟩
  | some name =>
    simp only [yields_bind, yields_check, yields_set, yields_pure, Target.ofName_eq_ok,
      Option.map_some, Option.elim_some, Option.mem_some_iff, forall_eq']
    constructor
    · intro h
      obtain ⟨ts, _, ⟨hts, rfl⟩, m, _, ⟨hm, rfl⟩, _, _, rfl, _, _, ⟨⟨hname, rfl⟩, rfl⟩, rfl, rfl⟩ := h
      exact ⟨ts, m, hts, hm, hname, rfl, rfl⟩
    · intro h
      obtain ⟨ts, m, hts, hm, hname, rfl, rfl⟩ := h
      exact ⟨ts, f, ⟨hts, rfl⟩, m, f, ⟨hm, rfl⟩, ⟨⟩, _, rfl, ⟨name⟩, _, ⟨⟨hname, rfl⟩, rfl⟩, rfl, rfl⟩

theorem fails_declare {type name : String} {value : WrittenValue} {f f' : TypeFacts}
    {cause : BuildError} (h : Fails (declare type name value) f cause f') : f' = f := by
  rw [declare, fails_get_bind] at h
  simp only [fails_bind, yields_check, fails_check, fails_set, fails_pure, and_false, or_false,
    exists_false] at h
  obtain ⟨-, h⟩ | ⟨_, _, ⟨-, rfl⟩, ⟨-, h⟩ | ⟨_, _, ⟨-, rfl⟩, ⟨-, h⟩ | ⟨_, _, ⟨-, rfl⟩, -, h⟩⟩⟩ := h <;>
    exact h

theorem fails_assign {name : String} {value : WrittenValue} {f f' : TypeFacts}
    {cause : BuildError} (h : Fails (assign name value) f cause f') : f' = f := by
  rw [assign, fails_get_bind] at h
  cases hdeclared : f.declared.get? name with
  | none =>
    simp only [hdeclared, fails_bind, yields_check, fails_check, yields_pure, fails_set, fails_pure,
      and_false, or_false, false_or, exists_false] at h
    obtain ⟨-, h⟩ | ⟨_, _, ⟨-, rfl⟩, _, _, ⟨-, rfl⟩, -, h⟩ := h <;> exact h
  | some declared =>
    simp only [hdeclared, fails_bind, yields_check, fails_check, yields_pure, fails_set, fails_pure,
      and_false, or_false, false_or, exists_false] at h
    obtain ⟨-, h⟩ | ⟨_, _, ⟨-, rfl⟩, ⟨-, h⟩ | ⟨_, _, ⟨-, rfl⟩, _, _, ⟨-, rfl⟩, -, h⟩⟩ := h <;>
      exact h

theorem checkAssignable_refuses {name : String} {declared actual : ValueType}
    (h : declared.accepts actual = false) :
    checkAssignable name declared actual = .error (.typeMismatch name declared actual) := by
  rw [checkAssignable, h]
  rfl

theorem declare_refuses {type name : String} {value : WrittenValue} {f : TypeFacts}
    {declared : ValueType} {t : Term} (htype : ValueType.read type = .ok declared)
    (ht : value.toTermAt declared = .ok t) (hfits : declared.accepts (f.typeOf t) = false) :
    Fails (declare type name value) f (.typeMismatch name declared (f.typeOf t)) f := by
  rw [declare, fails_get_bind, fails_bind]
  refine .inr ⟨declared, f, yields_check.mpr ⟨htype, rfl⟩, fails_bind.mpr ?_⟩
  refine .inr ⟨t, f, yields_check.mpr ⟨ht, rfl⟩, fails_bind.mpr (.inl ?_)⟩
  exact fails_check.mpr ⟨checkAssignable_refuses hfits, rfl⟩

theorem assign_refuses {name : String} {value : WrittenValue} {f : TypeFacts}
    {declared : ValueType} {t : Term} (hdeclared : f.declared.get? name = some declared)
    (ht : value.toTerm = .ok t) (hfits : declared.accepts (f.typeOf t) = false) :
    Fails (assign name value) f (.typeMismatch name declared (f.typeOf t)) f := by
  rw [assign, fails_get_bind, fails_bind]
  refine .inr ⟨t, f, yields_check.mpr ⟨ht, rfl⟩, ?_⟩
  rw [hdeclared]
  exact fails_bind.mpr (.inl (fails_check.mpr ⟨checkAssignable_refuses hfits, rfl⟩))

/-- A call that fails forgets a type only if its target is a reserved name. -/
theorem fails_call {target : Option String} {method : String} {args : List WrittenValue}
    {f f' : TypeFacts} {cause : BuildError} (h : Fails (call target method args) f cause f') :
    f' = f ∨ ∃ name field, target = some name ∧ ChainField.ofName? name = some field ∧
      f' = f.forget name := by
  rw [call, fails_get_bind] at h
  cases target with
  | none =>
    simp only [fails_bind, yields_check, fails_check, fails_pure, and_false, or_false,
      exists_false] at h
    obtain ⟨-, h⟩ | ⟨_, _, ⟨-, rfl⟩, -, h⟩ := h <;> exact .inl h
  | some name =>
    simp only [fails_bind, yields_check, fails_check, fails_set, yields_set, fails_pure, and_false,
      or_false, false_or, exists_false] at h
    obtain ⟨-, h⟩ | ⟨_, _, ⟨-, rfl⟩, ⟨-, h⟩ | ⟨_, _, ⟨-, rfl⟩, _, _, rfl, htarget, h⟩⟩ := h
    · exact .inl h
    · exact .inl h
    · refine .inr ⟨name, ?_⟩
      unfold Target.ofName at htarget
      cases hname : ChainField.ofName? name with
      | none =>
        rw [hname] at htarget
        cases htarget
      | some field => exact ⟨field, rfl, rfl, h⟩

/-- A statement without a variable to write leaves the types as they are, whether it fails or not. -/
theorem run_of_unwritten {e : QueryEvent} {x : Reading Instruction} (hx : e.statement? = some x)
    (hnone : e.written? = none) (f : TypeFacts) : (x.run f).2 = f := by
  cases e with
  | declaration _ _ _ => cases hnone
  | assignment _ _ => cases hnone
  | call target method args =>
    cases hx
    obtain rfl : target = none := hnone
    rcases hrun : (call none method args).run f with ⟨cause | i, f'⟩
    · obtain h | ⟨_, _, h, -⟩ := fails_call hrun
      · exact h
      · cases h
    · obtain ⟨_, _, -, -, -, -, h⟩ := yields_call.mp hrun
      exact h
  | _ => cases hx <;> rfl

/-- What a statement that has been read leaves of the types: nothing new, or what it says of the
variable that it writes. -/
theorem facts_of_statement {e : QueryEvent} {x : Reading Instruction} {f f' : TypeFacts}
    {i : Instruction} (hx : e.statement? = some x) (h : Yields x f i f') :
    (e.written? = none ∧ f' = f) ∨
      ∃ name, e.written? = some name ∧ ChainField.ofName? name = none ∧
        ((∃ type value declared, e = .declaration type name value ∧
            ValueType.read type = .ok declared ∧ f' = f.declare name declared) ∨
          (∃ value t, e = .assignment name value ∧ value.toTerm = .ok t ∧
            f' = f.learn name ((f.declared.get? name).getD (f.typeOf t))) ∨
          ∃ method args, e = .call (some name) method args ∧ f' = f.forget name) := by
  cases hwritten : e.written? with
  | none =>
    refine .inl ⟨rfl, ?_⟩
    rw [← run_of_unwritten hx hwritten f, h]
  | some name =>
    refine .inr ⟨name, rfl, ?_⟩
    cases e with
    | declaration type target value =>
      cases hx
      cases hwritten
      obtain ⟨declared, _, htype, -, -, hname, -, rfl⟩ := yields_declare.mp h
      exact ⟨hname, .inl ⟨type, value, declared, rfl, htype, rfl⟩⟩
    | assignment target value =>
      cases hx
      cases hwritten
      obtain ⟨t, ht, -, hname, -, rfl⟩ := yields_assign.mp h
      exact ⟨hname, .inr (.inl ⟨value, t, rfl, ht, rfl⟩)⟩
    | call target method args =>
      cases hx
      obtain rfl : target = some name := hwritten
      obtain ⟨_, _, -, -, hname, -, rfl⟩ := yields_call.mp h
      exact ⟨hname name rfl, .inr (.inr ⟨method, args, rfl, rfl⟩)⟩
    | _ => cases hwritten

end Reading

namespace Draft

theorem facts_of_compose {change : Composer → Except BuildError Composer} {d d' : Draft}
    {result : Option Program}
    (h : Yields (do compose change; return (none : Option Program)) d result d') :
    d'.toTypeFacts = d.toTypeFacts := by
  simp only [yields_bind, yields_compose, yields_pure] at h
  obtain ⟨_, _, ⟨_, -, rfl⟩, -, rfl⟩ := h
  rfl

theorem facts_of_close {head : TypeFacts → Except BuildError Filter} {d d' : Draft}
    {result : Option Program}
    (h : Yields (do close head; return (none : Option Program)) d result d') :
    d'.toTypeFacts = d.toTypeFacts := by
  simp only [yields_bind, yields_close, yields_pure] at h
  obtain ⟨_, _, ⟨_, _, -, -, rfl⟩, -, rfl⟩ := h
  rfl

theorem facts_of_operate {x : Except BuildError α} {s : α → PredicateStep} {d d' : Draft}
    {result : Option Program}
    (h : Yields (do
      let a ← Compiling.check x
      operate (s a)
      return (none : Option Program)) d result d') :
    d'.toTypeFacts = d.toTypeFacts := by
  simp only [yields_bind, Compiling.yields_check, yields_operate, yields_pure] at h
  obtain ⟨_, _, ⟨-, rfl⟩, _, _, ⟨_, -, rfl⟩, -, rfl⟩ := h
  rfl

/-- Only statements change what is known of types. -/
theorem facts_of_unstated {e : QueryEvent} {d d' : Draft} {result : Option Program}
    (he : e.statement? = none) (h : Yields (compile e) d result d') :
    d'.toTypeFacts = d.toTypeFacts := by
  cases e with
  | position line column =>
    obtain ⟨-, rfl⟩ := yields_pure.mp h
    rfl
  | enterProgram => exact facts_of_compose h
  | exitProgram =>
    rw [compile, yields_get_bind] at h
    simp only [yields_bind, Compiling.yields_check, yields_set, yields_pure] at h
    obtain ⟨_, _, ⟨-, rfl⟩, _, _, rfl, -, rfl⟩ := h
    rfl
  | enterFilter kind => exact facts_of_compose h
  | exitBlocks first last => exact facts_of_close h
  | exitTransactions senders recipients => exact facts_of_close h
  | exitLogEntries contracts signature => exact facts_of_close h
  | exitContract address reads => exact facts_of_close h
  | exitCondition =>
    rw [compile, yields_bind] at h
    obtain ⟨_, _, htaken, hclose⟩ := h
    obtain ⟨-, rfl⟩ := yields_takePredicate.mp htaken
    have hsame := facts_of_compose hclose
    exact hsame
  | operand value => exact facts_of_operate h
  | comparison symbol => exact facts_of_operate h
  | conjunction => exact facts_of_operate (x := .ok ()) (s := fun _ => .and) h
  | disjunction => exact facts_of_operate (x := .ok ()) (s := fun _ => .or) h
  | negation => exact facts_of_operate (x := .ok ()) (s := fun _ => .not) h
  | _ => cases he

/-- A statement that is taken has been read, and its instruction stands in the innermost scope. -/
theorem read_of_statement {e : QueryEvent} {x : Reading Instruction} {d d' : Draft}
    {result : Option Program} (hx : e.statement? = some x)
    (h : Yields (compile e) d result d') :
    d.composer.Open ∧ ∃ i f, Yields x d.toTypeFacts i f ∧ d' = d.extend f [i] := by
  rw [compile_statement hx] at h
  have hopen : d.composer.Open := by
    intro hnone
    simp only [state, yields_bind, yields_compose, Compiling.yields_reading] at h
    obtain ⟨_, _, ⟨_, _, ⟨_, -, rfl⟩, _, hadd, -⟩, -⟩ := h
    dsimp only at hadd
    rw [Composer.add, hnone] at hadd
    cases hadd
  simp only [yields_bind, yields_state hopen, yields_pure] at h
  obtain ⟨_, _, ⟨i, f, hi, rfl⟩, -, rfl⟩ := h
  exact ⟨hopen, i, f, hi, rfl⟩

end Draft
end ChainQuery
