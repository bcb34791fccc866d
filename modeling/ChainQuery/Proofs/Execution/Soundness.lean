import ChainQuery.Proofs.Execution.Prospects

/-!
# Sound types

When what the compiler knows of a variable fits the value that the variable has in a run. In a sound
program every instruction keeps the types that variables may have, and so every check passes.
-/

namespace ChainQuery

theorem Run.leads_beginning {P R : NameMap Value → Prop} (i : Instruction) :
    Leads P P R (beginning i) (beginning i) :=
  leads_bind leads_get fun _ => leads_doing _

section Running
variable {may : Prospects} {f : TypeFacts}

theorem eval_of_run {read : View → Except ExecutionError α} {s t : RunState} {a : α}
    (h : (Run.inView read).run s = some (.ok a, t)) : read s.toView = .ok a :=
  Run.eq_ok_of_run h

theorem Statement.leads_assign {target : Target} {t : Term}
    (hfits : f.fits may (.assign target t) = true) :
    Run.Leads may.Holds (may.replace target.name (f.prospect t)).Holds may.Holds
      (assign target t) (assign target t) := by
  have ht : f.fitsTerm may t = true := List.all_eq_true.mp hfits t List.mem_cons_self
  refine Run.leads_bind_of (Run.concur_inView _) fun s v _ hs hrun => ?_
  exact Run.leads_modify fun u hu => hu.set (TypeFacts.allows_of_eval ht hs (eval_of_run hrun))

theorem Statement.leads_call (m : Builtin) (args : List Term) (target : Option Target) :
    Run.Leads may.Holds ((TypedInstruction.statement f (.call m args target)).after may).Holds
      may.Holds (call m args target) (call m args target) := by
  refine Run.leads_bind (Run.concur_inView _) fun values => ?_
  refine Run.leads_bind_of (Run.concur_ofExcept _) fun s v _ _ hrun => ?_
  cases target with
  | none => exact Run.concur_pure _
  | some target =>
    exact Run.leads_modify fun u hu => hu.set (Builtin.accepts_of_apply (Run.eq_ok_of_run hrun))

/-- A statement that fails has written nothing. -/
theorem Instruction.leads_statement (looks : Nat) {i : Instruction} (hi : i.isStatement = true)
    (hfits : f.fits may i = true) :
    Run.Leads may.Holds ((TypedInstruction.statement f i).after may).Holds may.Holds
      (i.execute looks) (i.execute looks) := by
  cases i with
  | sequence body => cases hi
  | filter f body => cases hi
  | assign target t =>
    rw [execute]
    exact Statement.leads_assign hfits
  | call m args target =>
    rw [execute]
    exact Statement.leads_call m args target
  | emit e =>
    rw [execute]
    exact e.concur_execute
  | setFolder path =>
    rw [execute]
    exact Statement.concur_setFolder path
  | connect url =>
    rw [execute]
    exact Statement.concur_connect url

end Running

namespace TypedInstruction

theorem run_check {i : TypedInstruction} {s : RunState}
    (h : i.facts.admits i.erase s.variables = true) : (check i).run s = some (.ok (), s) := by
  rw [check, Run.run_get_bind, if_pos h]
  rfl

theorem leads_check {may : Prospects} {i : TypedInstruction}
    (h : i.facts.fits may i.erase = true) {x : Unit → Run α} {y : Run α}
    {Q R : NameMap Value → Prop} (hxy : Run.Leads may.Holds Q R (x ()) y) :
    Run.Leads may.Holds Q R (check i >>= x) y where
  same := by
    intro s hs
    rw [Run.run_bind, run_check (TypeFacts.admits_of_fits h hs)]
    exact hxy.same s hs
  done := hxy.done
  failed := hxy.failed

theorem leads_mono {may may' done done' lost lost' : Prospects} {x y : Run α}
    (h : Run.Leads may'.Holds done'.Holds lost'.Holds x y) (hmay : may ⊆ may') (hdone : done' ⊆ done)
    (hlost : lost' ⊆ lost) : Run.Leads may.Holds done.Holds lost.Holds x y :=
  h.mono (fun _ hm => hm.mono hmay) (fun _ hm => hm.mono hdone) fun _ hm => hm.mono hlost

theorem leads_scope (looks : Nat) {may : Prospects} (facts : TypeFacts) (f : Filter)
    (body : List TypedInstruction) {x y : Run Unit}
    (h : Run.Leads (entry may f body).Holds (afterAll (entry may f body) body).Holds
      (writesAll body ++ entry may f body).Holds x y) :
    Run.Leads may.Holds ((scope facts f body).after may).Holds
      ((scope facts f body).writes ++ may).Holds (f.run looks x) (f.run looks y) := by
  have hafter := after_subset may (scope facts f body)
  have hbody : Run.Leads (entry may f body).Holds ((scope facts f body).after may).Holds
      ((scope facts f body).writes ++ may).Holds x y :=
    leads_mono h (List.Subset.refl _) (List.subset_append_left _ _) (body_subset may facts f body)
  have hrun : Run.Leads (entry may f body).Holds ((scope facts f body).after may).Holds
      ((scope facts f body).writes ++ may).Holds (f.run looks x) (f.run looks y) := by
    refine Filter.leads_run looks f ?_ ?_ hbody ?_ ?_
    · exact fun _ hm => hm.mono (List.subset_append_right _ _)
    · exact fun _ hm => hm.mono (entry_subset may facts f body)
    · intro hf
      have hagain := writes_subset_entry hf may facts body
      exact ⟨fun _ hm => hm.mono (List.Subset.trans hafter hagain), fun _ hm => hm.mono hagain⟩
    · intro bindings hbound m hm
      refine hm.setAll fun b hb => bound_subset_entry may f body ?_
      exact List.mem_map_of_mem (hbound b hb)
  exact leads_mono hrun (subset_entry may f body) (List.Subset.refl _) (List.Subset.refl _)

theorem fits_of_sound {may : Prospects} {i : TypedInstruction} (h : i.sound may = true) :
    i.facts.fits may i.erase = true := by
  cases i with
  | statement f i => exact (Bool.and_eq_true_iff.mp h).2
  | scope facts f body => exact (Bool.and_eq_true_iff.mp h).1

mutual

theorem leads_execute (looks : Nat) {may : Prospects} (i : TypedInstruction)
    (h : i.sound may = true) :
    Run.Leads may.Holds (i.after may).Holds (i.writes ++ may).Holds (i.execute looks)
      (i.erase.execute looks) := by
  cases i with
  | statement f i =>
    obtain ⟨hi, hfits⟩ := Bool.and_eq_true_iff.mp h
    exact leads_mono (Instruction.leads_statement looks hi hfits) (List.Subset.refl _)
      (List.Subset.refl _) (List.subset_append_right _ _)
  | scope facts f body =>
    obtain ⟨-, hbody⟩ := Bool.and_eq_true_iff.mp h
    rw [execute, erase, Instruction.execute]
    exact leads_scope looks facts f body (leads_executeAll looks body hbody)

theorem leads_executeAll (looks : Nat) {may : Prospects} (is : List TypedInstruction)
    (h : soundAll may is = true) :
    Run.Leads may.Holds (afterAll may is).Holds (writesAll is ++ may).Holds (executeAll looks is)
      (ChainQuery.executeAll looks (eraseAll is)) := by
  cases is with
  | nil => exact Run.concur_pure _
  | cons i is =>
    obtain ⟨hfirst, hrest⟩ := Bool.and_eq_true_iff.mp h
    refine Run.leads_bind (Run.leads_beginning i.erase) fun _ => ?_
    refine leads_check (fits_of_sound hfirst) ?_
    refine Run.leads_bind (leads_mono (leads_execute looks i hfirst) (List.Subset.refl _)
      (List.Subset.refl _) (first_subset may i is)) fun _ => ?_
    exact leads_mono (leads_executeAll looks is hrest) (List.Subset.refl _) (List.Subset.refl _)
      (rest_subset i is (after_subset may i))

end

/-- An instruction of the program itself may fail, unless it writes a fixed value. -/
theorem leads_settled (looks : Nat) {may : Prospects} {i : TypedInstruction}
    (h : i.sound may = true) :
    Run.Leads may.Holds (i.settled may).Holds (i.settled may).Holds (i.execute looks)
      (i.erase.execute looks) := by
  have hleads := leads_execute looks i h
  unfold settled
  split
  · next f target v =>
    refine ⟨hleads.same, hleads.done, ?_⟩
    intro s e t _ hrun
    rw [erase, Instruction.execute] at hrun
    cases hrun
  · exact leads_mono hleads (List.Subset.refl _) (after_subset may i) (List.Subset.refl _)

/-- Nothing is left to show of the end of the program. -/
theorem leads_executeEach (looks : Nat) {may : Prospects} (is : List TypedInstruction)
    (h : soundEach may is = true) :
    Run.Leads may.Holds (fun _ => True) (fun _ => True) (executeEach looks is)
      (Program.executeEach looks (eraseAll is)) := by
  induction is generalizing may with
  | nil => exact (Run.concur_pure _).leads (fun _ _ => trivial) fun _ _ => trivial
  | cons i is ih =>
    obtain ⟨hfirst, hrest⟩ := Bool.and_eq_true_iff.mp h
    have hguarded := Run.leads_guarded i.erase.kind
      (Run.leads_bind (Run.leads_beginning i.erase) fun _ =>
        leads_check (x := fun _ => i.execute looks) (fits_of_sound hfirst)
          (leads_settled looks hfirst))
    refine Run.leads_bind (hguarded.mono (fun _ hm => hm) (fun _ hm => hm) fun _ _ => trivial) ?_
    exact fun _ => ih hrest

end TypedInstruction

/-- The types of a sound program are sound. In no run does an assignment, a call or a block scope begin
while a variable that it was compiled with has a value of a type that is not accepted by the type that
was known then: a run that would stop there goes on as the program itself does. -/
theorem static_types_sound (es : List QueryEvent) (p : Program) (looks : Nat) (s : RunState)
    (haccepted : ((({} : Compiler).after es).step .exitProgram).1 = .ok (some p))
    (hsound : TypedInstruction.soundEach [] (Compiler.typed es) = true) (hempty : s.variables = ∅) :
    (Program.closing (TypedInstruction.executeEach looks (Compiler.typed es))).run s =
      p.run? looks s := by
  have hmay : Prospects.Holds [] s.variables := by
    rw [hempty]
    exact Prospects.holds_empty
  have hsame := (TypedInstruction.leads_executeEach looks (Compiler.typed es) hsound).same s hmay
  rw [Compiler.eraseAll_typed haccepted] at hsame
  rw [Program.run?, Program.execute_eq_closing]
  exact Program.closing_of_run_eq hsame

/-- A flag is written to a variable, a value to the same variable in a scope that does not run, and then
the variable to another one. -/
def crossing (literal : String) : List QueryEvent :=
  [.enterProgram, .assignment "x" (.literal "true"), .enterFilter .condition,
    .operand (.literal "true"), .negation, .assignment "x" (.literal literal), .exitCondition,
    .assignment "y" (.named "x")]

def crossed (v : Value) : Program :=
  ⟨[.assign ⟨"x"⟩ (.literal (.bool true)),
    .filter (.condition (.not (.term (.literal (.bool true))))) [.assign ⟨"x"⟩ (.literal v)],
    .assign ⟨"y"⟩ (.named "x")]⟩

def beforehand : RunState :=
  RunState.start {} {} {}

/-- Both values are flags, and so the known type fits whether the scope runs or not. -/
theorem flag_types_sound :
    ((({} : Compiler).after (crossing "true")).step .exitProgram).1 =
        .ok (some (crossed (.bool true))) ∧
      TypedInstruction.soundEach [] (Compiler.typed (crossing "true")) = true ∧
      ∃ t, (Program.closing (TypedInstruction.executeEach 0
        (Compiler.typed (crossing "true")))).run beforehand = some (.ok (), t) := by
  have haccepted : ((({} : Compiler).after (crossing "true")).step .exitProgram).1 =
      .ok (some (crossed (.bool true))) := rfl
  have hsound : TypedInstruction.soundEach [] (Compiler.typed (crossing "true")) = true := by
    rfl
  refine ⟨haccepted, hsound, ?_⟩
  rw [static_types_sound (crossing "true") (crossed (.bool true)) 0 beforehand haccepted hsound
    rfl]
  exact ⟨_, rfl⟩

mutual

/-- Variables are written by assignments only, with values whose type is known. -/
def TypedInstruction.known : TypedInstruction → Bool
  | .statement f (.assign _ t) => f.typeOf t ≠ .any
  | .statement _ (.call _ _ (some _)) => false
  | .statement _ _ => true
  | .scope _ f body => f.bound.isEmpty && TypedInstruction.knownAll body

def TypedInstruction.knownAll : List TypedInstruction → Bool
  | [] => true
  | i :: is => i.known && TypedInstruction.knownAll is

end

def typedCrossing : List TypedInstruction :=
  let outer : TypeFacts := { types := (NameMap.set ∅ "x" .bool).set "x" .str }
  [.statement {} (.assign ⟨"x"⟩ (.literal (.bool true))),
    .scope outer (.condition (.not (.term (.literal (.bool true)))))
      [.statement { types := NameMap.set ∅ "x" .bool } (.assign ⟨"x"⟩ (.literal (.str "a")))],
    .statement outer (.assign ⟨"y"⟩ (.named "x"))]

/-- The type that was written down in the scope is taken for that of the variable after it, although
the scope does not run and the variable is still a flag. -/
theorem text_type_crossed :
    ¬ ∀ (es : List QueryEvent) (p : Program) (looks : Nat) (s : RunState),
      ((({} : Compiler).after es).step .exitProgram).1 = .ok (some p) →
      TypedInstruction.knownAll (Compiler.typed es) = true → s.variables = ∅ →
      (Program.closing (TypedInstruction.executeEach looks (Compiler.typed es))).run s =
        p.run? looks s := by
  intro h
  have haccepted : ((({} : Compiler).after (crossing "\"a\"")).step .exitProgram).1 =
      .ok (some (crossed (.str "a"))) := rfl
  have htyped : Compiler.typed (crossing "\"a\"") = typedCrossing := rfl
  have hknown : TypedInstruction.knownAll (Compiler.typed (crossing "\"a\"")) = true := by
    rw [htyped]
    rfl
  have hsame := h _ _ 0 beforehand haccepted hknown rfl
  have hstops : (Program.closing (TypedInstruction.executeEach 0 typedCrossing)).run beforehand =
      none := rfl
  have hruns : ((crossed (.str "a")).run? 0 beforehand).isSome = true := rfl
  rw [htyped, hstops] at hsame
  rw [← hsame] at hruns
  cases hruns

end ChainQuery
