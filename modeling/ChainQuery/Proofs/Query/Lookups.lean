import ChainQuery.Proofs.Query.FailedEvents

/-!
# The types that events look up

An event asks for the types of a few variables only. Two compilers with the same open scopes and the
same operands, that know the same of the variables that are asked for, take an event in the same way
and know the same of these variables afterwards.
-/

namespace ChainQuery

section Concerted
variable {ε σ α β : Type} {R : σ → σ → Prop} {s t : σ}

/-- Two steps from related states have the same result and leave related states. -/
def Concerted (R : σ → σ → Prop) (x y : ExceptT ε (StateM σ) α) (s t : σ) : Prop :=
  (x.run s).1 = (y.run t).1 ∧ R (x.run s).2 (y.run t).2

theorem concerted_pure (h : R s t) (a : α) :
    Concerted R (pure a : ExceptT ε (StateM σ) α) (pure a) s t :=
  ⟨rfl, h⟩

theorem concerted_bind {x y : ExceptT ε (StateM σ) α} {f g : α → ExceptT ε (StateM σ) β}
    (hx : Concerted R x y s t)
    (hf : ∀ a s' t', Yields x s a s' → R s' t' → Concerted R (f a) (g a) s' t') :
    Concerted R (x >>= f) (y >>= g) s t := by
  obtain ⟨hresult, hstate⟩ := hx
  unfold Concerted
  rw [run_step_bind, run_step_bind]
  rcases hxs : x.run s with ⟨result, s'⟩
  rcases hyt : y.run t with ⟨_, t'⟩
  rw [hxs, hyt] at hresult hstate
  obtain rfl := hresult
  cases result with
  | error e => exact ⟨rfl, hstate⟩
  | ok a => exact hf a s' t' hxs hstate

theorem concerted_get_bind {f g : σ → ExceptT ε (StateM σ) β} (h : Concerted R (f s) (g t) s t) :
    Concerted R (get >>= f) (get >>= g) s t :=
  h

theorem concerted_set {s' t' : σ} (h : R s' t') :
    Concerted R (set s' : ExceptT ε (StateM σ) PUnit) (set t') s t :=
  ⟨rfl, h⟩

theorem concerted_check {x y : Except ε α} (h : R s t) (hxy : x = y) :
    Concerted R (ExceptT.mk (pure x) : ExceptT ε (StateM σ) α) (ExceptT.mk (pure y)) s t :=
  ⟨hxy, h⟩

theorem concerted_check_bind {x y : Except ε α} {f g : α → ExceptT ε (StateM σ) β} (h : R s t)
    (hxy : x = y) (hf : ∀ a, x = .ok a → Concerted R (f a) (g a) s t) :
    Concerted R ((ExceptT.mk (pure x) : ExceptT ε (StateM σ) α) >>= f)
      ((ExceptT.mk (pure y) : ExceptT ε (StateM σ) α) >>= g) s t := by
  subst hxy
  cases x with
  | error e => exact ⟨rfl, h⟩
  | ok a => exact hf a rfl

end Concerted

def WrittenValue.name? : WrittenValue → Option String
  | named name => some name
  | _ => none

def WrittenBound.name? : WrittenBound → Option String
  | number value => value.name?
  | _ => none

def QueryEvent.lookups : QueryEvent → List String
  | exitBlocks first last => first.name?.toList ++ last.name?.toList
  | declaration _ _ value => value.name?.toList
  | assignment name value => name :: value.name?.toList
  | call _ _ args => args.filterMap WrittenValue.name?
  | _ => []

namespace TypeFacts

/-- The same is known of the variables of a set. -/
def AgreeOn (known : String → Prop) (f g : TypeFacts) : Prop :=
  ∀ name, known name →
    f.typeOf (.named name) = g.typeOf (.named name) ∧ f.declared.get? name = g.declared.get? name

variable {known : String → Prop} {f g : TypeFacts}

theorem AgreeOn.typeOf (h : f.AgreeOn known g) {t : Term}
    (hknown : ∀ name, t = .named name → known name) : f.typeOf t = g.typeOf t := by
  cases t with
  | literal v => rfl
  | named name => exact (h name (hknown name rfl)).1
  | chain field => rfl

theorem typeOf_learn (f : TypeFacts) (name other : String) (t : ValueType) :
    (f.learn name t).typeOf (.named other) =
      if name = other then t else f.typeOf (.named other) := by
  rw [typeOf, learn, NameMap.get?_set]
  split <;> rfl

theorem typeOf_forget (f : TypeFacts) (name other : String) :
    (f.forget name).typeOf (.named other) =
      if name = other then .any else f.typeOf (.named other) := by
  rw [typeOf, forget, NameMap.get?_erase]
  split <;> rfl

theorem AgreeOn.learn (h : f.AgreeOn known g) (name : String) (t : ValueType) :
    (f.learn name t).AgreeOn known (g.learn name t) := by
  intro other hother
  obtain ⟨htype, hdeclared⟩ := h other hother
  refine ⟨?_, hdeclared⟩
  rw [typeOf_learn, typeOf_learn, htype]

theorem AgreeOn.forget (h : f.AgreeOn known g) (name : String) :
    (f.forget name).AgreeOn known (g.forget name) := by
  intro other hother
  obtain ⟨htype, hdeclared⟩ := h other hother
  refine ⟨?_, hdeclared⟩
  rw [typeOf_forget, typeOf_forget, htype]

theorem AgreeOn.declare (h : f.AgreeOn known g) (name : String) (t : ValueType) :
    (f.declare name t).AgreeOn (fun other => known other ∨ other = name) (g.declare name t) := by
  have hdeclared : ∀ e : TypeFacts, ∀ other, (e.declare name t).declared.get? other =
      if name = other then some t else e.declared.get? other := by
    intro e other
    exact NameMap.get?_set e.declared name other t
  have htype : ∀ e : TypeFacts, ∀ other, (e.declare name t).typeOf (.named other) =
      if name = other then t else e.typeOf (.named other) := by
    intro e other
    exact typeOf_learn e name other t
  intro other hother
  rw [htype, htype, hdeclared, hdeclared]
  by_cases heq : name = other
  · simp only [if_pos heq, and_self]
  · obtain hother | rfl := hother
    · simp only [if_neg heq]
      exact h other hother
    · exact absurd rfl heq

theorem AgreeOn.mono {narrow : String → Prop} (h : f.AgreeOn known g)
    (hnarrow : ∀ name, narrow name → known name) : f.AgreeOn narrow g := by
  intro name hname
  exact h name (hnarrow name hname)

end TypeFacts

theorem WrittenValue.name_of_toTerm {value : WrittenValue} {name : String}
    (h : value.toTerm = .ok (.named name)) : value.name? = some name := by
  cases value with
  | literal text =>
    obtain ⟨_, -, hterm⟩ := except_map_eq_ok.mp h
    cases hterm
  | typed keyword text =>
    obtain ⟨_, -, h⟩ := except_bind_eq_ok.mp h
    obtain ⟨_, -, h⟩ := except_bind_eq_ok.mp h
    cases h
  | named written =>
    have hof : Term.ofName written = .named name := Except.ok.inj h
    unfold Term.ofName at hof
    split at hof
    · cases hof
    · cases hof
      rfl

theorem WrittenValue.name_of_toTermAt {value : WrittenValue} {type : ValueType} {name : String}
    (h : value.toTermAt type = .ok (.named name)) : value.name? = some name := by
  cases value with
  | literal text =>
    obtain ⟨_, -, hterm⟩ := except_map_eq_ok.mp h
    cases hterm
  | typed keyword text => exact name_of_toTerm h
  | named written => exact name_of_toTerm h

namespace TypeFacts
variable {known : String → Prop} {f g : TypeFacts}

theorem AgreeOn.typeOf_written (h : f.AgreeOn known g) {value : WrittenValue} {t : Term}
    (hknown : ∀ name ∈ value.name?, known name) (ht : value.toTerm = .ok t) :
    f.typeOf t = g.typeOf t := by
  refine h.typeOf ?_
  rintro name rfl
  exact hknown name (WrittenValue.name_of_toTerm ht)

theorem AgreeOn.typeOf_writtenAt (h : f.AgreeOn known g) {value : WrittenValue} {t : Term}
    {type : ValueType} (hknown : ∀ name ∈ value.name?, known name)
    (ht : value.toTermAt type = .ok t) : f.typeOf t = g.typeOf t := by
  refine h.typeOf ?_
  rintro name rfl
  exact hknown name (WrittenValue.name_of_toTermAt ht)

theorem AgreeOn.typesOf_written (h : f.AgreeOn known g) {args : List WrittenValue}
    {ts : List Term} (hknown : ∀ name ∈ args.filterMap WrittenValue.name?, known name)
    (hts : args.mapM WrittenValue.toTerm = .ok ts) : ts.map f.typeOf = ts.map g.typeOf := by
  rw [except_mapM_eq_ok] at hts
  induction hts with
  | nil => rfl
  | @cons value t args rest ht _ ih =>
    have hvalue : ∀ name ∈ value.name?, known name := by
      intro name hname
      exact hknown name (List.mem_filterMap.mpr ⟨value, List.mem_cons_self, hname⟩)
    have hargs : ∀ name ∈ args.filterMap WrittenValue.name?, known name := by
      intro name hname
      obtain ⟨other, hother, hname⟩ := List.mem_filterMap.mp hname
      exact hknown name (List.mem_filterMap.mpr ⟨other, List.mem_cons_of_mem _ hother, hname⟩)
    rw [List.map_cons, List.map_cons, h.typeOf_written hvalue ht, ih hargs]

theorem AgreeOn.toBound (h : f.AgreeOn known g) {bound : WrittenBound}
    (hknown : ∀ name ∈ bound.name?, known name) : f.toBound bound = g.toBound bound := by
  cases bound with
  | number value =>
    cases ht : value.toTerm with
    | error e =>
      simp only [TypeFacts.toBound, ht]
      rfl
    | ok t =>
      have htype : f.typeOf t = g.typeOf t := h.typeOf_written hknown ht
      simp only [TypeFacts.toBound, ht]
      show ite _ _ _ = ite _ _ _
      rw [htype]
  | _ => rfl

end TypeFacts

namespace Reading
variable {known : String → Prop} {f g : TypeFacts}

theorem concerted_declare (h : f.AgreeOn known g) {type name : String} {value : WrittenValue}
    (hvalue : ∀ name ∈ value.name?, known name) :
    Concerted (TypeFacts.AgreeOn known) (declare type name value) (declare type name value) f g := by
  refine concerted_get_bind (concerted_check_bind h rfl fun declared _ => ?_)
  refine concerted_check_bind h rfl fun t ht => ?_
  refine concerted_check_bind h ?_ fun _ _ => ?_
  · rw [h.typeOf_writtenAt hvalue ht]
  refine concerted_check_bind h rfl fun target _ => ?_
  exact ⟨rfl, (h.declare name declared).mono fun _ hknown => .inl hknown⟩

theorem concerted_assign (h : f.AgreeOn known g) {name : String} {value : WrittenValue}
    (hname : known name) (hvalue : ∀ name ∈ value.name?, known name) :
    Concerted (TypeFacts.AgreeOn known) (assign name value) (assign name value) f g := by
  refine concerted_get_bind (concerted_check_bind h rfl fun t ht => ?_)
  have htype : f.typeOf t = g.typeOf t := h.typeOf_written hvalue ht
  have hrest : ∀ learnt : ValueType, Concerted (TypeFacts.AgreeOn known)
      (do
        let target ← check (Target.ofName name)
        set { f with types := f.types.set name learnt }
        return Instruction.assign target t)
      (do
        let target ← check (Target.ofName name)
        set { g with types := g.types.set name learnt }
        return Instruction.assign target t) f g := by
    intro learnt
    refine concerted_check_bind h rfl fun target _ => ?_
    exact ⟨rfl, h.learn name learnt⟩
  rw [← (h name hname).2, ← htype]
  cases f.declared.get? name with
  | none => exact hrest (f.typeOf t)
  | some declared => exact concerted_check_bind h rfl fun _ _ => hrest declared

theorem concerted_call (h : f.AgreeOn known g) {target : Option String} {method : String}
    {args : List WrittenValue} (hargs : ∀ name ∈ args.filterMap WrittenValue.name?, known name) :
    Concerted (TypeFacts.AgreeOn known) (call target method args) (call target method args) f g := by
  refine concerted_get_bind (concerted_check_bind h rfl fun ts hts => ?_)
  refine concerted_check_bind h ?_ fun m _ => ?_
  · rw [h.typesOf_written hargs hts]
  cases target with
  | none => exact concerted_pure h _
  | some name =>
    refine concerted_bind (concerted_set (h.forget name)) fun _ _ _ _ hforgot => ?_
    exact concerted_check_bind hforgot rfl fun _ _ => concerted_pure hforgot _

/-- A statement is read in the same way where the same is known of the variables it looks up. -/
theorem concerted_statement {e : QueryEvent} {x : Reading Instruction} (hx : e.statement? = some x)
    (h : f.AgreeOn known g) (hlookups : ∀ name ∈ e.lookups, known name) :
    Concerted (TypeFacts.AgreeOn known) x x f g := by
  cases e with
  | declaration type name value =>
    cases hx
    refine concerted_declare h ?_
    intro name hname
    exact hlookups name (Option.mem_toList.mpr hname)
  | assignment name value =>
    cases hx
    refine concerted_assign h (hlookups name List.mem_cons_self) ?_
    intro other hother
    exact hlookups other (List.mem_cons_of_mem _ (Option.mem_toList.mpr hother))
  | call target method args =>
    cases hx
    exact concerted_call h hlookups
  | _ => cases hx <;> exact concerted_check h rfl

end Reading

/-- Two drafts that differ at most in what they know of other variables. -/
structure Draft.AgreeOn (known : String → Prop) (d d' : Draft) : Prop where
  composer : d.composer = d'.composer
  operands : d.operands = d'.operands
  facts : d.toTypeFacts.AgreeOn known d'.toTypeFacts

namespace Draft
variable {known : String → Prop} {d d' : Draft}

theorem concerted_then_none {x y : Compiling PUnit}
    (h : Concerted (Draft.AgreeOn known) x y d d') :
    Concerted (Draft.AgreeOn known) (do x; return (none : Option Program))
      (do y; return (none : Option Program)) d d' :=
  concerted_bind h fun _ _ _ _ hagree => concerted_pure hagree none

theorem concerted_compose (h : d.AgreeOn known d')
    (change : Composer → Except BuildError Composer) :
    Concerted (Draft.AgreeOn known) (compose change) (compose change) d d' := by
  unfold Concerted
  rw [run_compose, run_compose, h.composer]
  cases change d'.composer with
  | error e => exact ⟨rfl, h⟩
  | ok c => exact ⟨rfl, rfl, h.operands, h.facts⟩

theorem concerted_operate (h : d.AgreeOn known d') (s : PredicateStep) :
    Concerted (Draft.AgreeOn known) (operate s) (operate s) d d' := by
  unfold Concerted
  rw [run_operate, run_operate, h.operands]
  cases Operand.step d'.operands s with
  | error e => exact ⟨rfl, h.composer, rfl, h.facts⟩
  | ok os => exact ⟨rfl, h.composer, rfl, h.facts⟩

theorem concerted_takePredicate (h : d.AgreeOn known d') :
    Concerted (Draft.AgreeOn known) takePredicate takePredicate d d' := by
  refine concerted_get_bind (concerted_bind (concerted_set ⟨h.composer, rfl, h.facts⟩) ?_)
  intro _ _ _ _ hagree
  rw [h.operands]
  exact ⟨rfl, hagree⟩

theorem concerted_close (h : d.AgreeOn known d') {head : TypeFacts → Except BuildError Filter}
    (hhead : head d.toTypeFacts = head d'.toTypeFacts) :
    Concerted (Draft.AgreeOn known) (close head) (close head) d d' :=
  concerted_get_bind (concerted_check_bind h hhead fun _ _ => concerted_compose h _)

theorem concerted_state {x : Reading Instruction} (h : d.AgreeOn known d')
    (hx : Concerted (TypeFacts.AgreeOn known) x x d.toTypeFacts d'.toTypeFacts) :
    Concerted (Draft.AgreeOn known) (state x) (state x) d d' := by
  have hread : Concerted (Draft.AgreeOn known) (Compiling.reading x) (Compiling.reading x) d d' :=
    ⟨hx.1, h.composer, h.operands, hx.2⟩
  exact concerted_bind hread fun _ _ _ _ hagree => concerted_compose hagree _

theorem concerted_exitProgram (h : d.AgreeOn known d') :
    Concerted (Draft.AgreeOn known) (compile .exitProgram) (compile .exitProgram) d d' := by
  refine concerted_get_bind (concerted_check_bind h ?_ fun closed _ => ?_)
  · rw [h.composer]
  · exact ⟨rfl, rfl, h.operands, h.facts⟩

theorem blocksFilter_agree {f g : TypeFacts} (h : f.AgreeOn known g) {first last : WrittenBound}
    (hknown : ∀ name ∈ (QueryEvent.exitBlocks first last).lookups, known name) :
    blocksFilter first last f = blocksFilter first last g := by
  have hfirst : ∀ name ∈ first.name?, known name := by
    intro name hname
    exact hknown name (List.mem_append_left _ (Option.mem_toList.mpr hname))
  have hlast : ∀ name ∈ last.name?, known name := by
    intro name hname
    exact hknown name (List.mem_append_right _ (Option.mem_toList.mpr hname))
  rw [blocksFilter, blocksFilter, h.toBound hfirst, h.toBound hlast]

/-- An event is taken in the same way where the same is known of the variables it looks up. -/
theorem concerted_compile {e : QueryEvent} (h : d.AgreeOn known d')
    (hlookups : ∀ name ∈ e.lookups, known name) :
    Concerted (Draft.AgreeOn known) (compile e) (compile e) d d' := by
  cases hx : e.statement? with
  | some x =>
    rw [compile_statement hx]
    exact concerted_then_none (concerted_state h (Reading.concerted_statement hx h.facts hlookups))
  | none =>
    cases e with
    | position line column => exact concerted_pure h none
    | enterProgram => exact concerted_then_none (concerted_compose h _)
    | exitProgram => exact concerted_exitProgram h
    | enterFilter kind => exact concerted_then_none (concerted_compose h _)
    | exitBlocks first last =>
      exact concerted_then_none (concerted_close h (blocksFilter_agree h.facts hlookups))
    | exitTransactions senders recipients => exact concerted_then_none (concerted_close h rfl)
    | exitLogEntries contracts signature => exact concerted_then_none (concerted_close h rfl)
    | exitContract address reads => exact concerted_then_none (concerted_close h rfl)
    | exitCondition =>
      refine concerted_bind (concerted_takePredicate h) fun p _ _ _ hagree => ?_
      exact concerted_then_none (concerted_compose hagree _)
    | operand value =>
      exact concerted_check_bind h rfl fun t _ => concerted_then_none (concerted_operate h _)
    | comparison symbol =>
      exact concerted_check_bind h rfl fun c _ => concerted_then_none (concerted_operate h _)
    | conjunction => exact concerted_then_none (concerted_operate h .and)
    | disjunction => exact concerted_then_none (concerted_operate h .or)
    | negation => exact concerted_then_none (concerted_operate h .not)
    | _ => cases hx

end Draft
end ChainQuery
