import ChainQuery.Proofs.Execution.Bindings
import ChainQuery.Proofs.Execution.Checks
import ChainQuery.Proofs.Value.Types

/-!
# The types that variables may have

The compiler writes down one type for a variable and goes on with it, in whatever scope the variable
was written. Here the types that a variable may have are followed through the scopes, whose bodies may
run again or not at all. A program is sound if at each place where a type was looked at it fits all of
them.
-/

namespace ChainQuery

/-- What is certain of the type of a value. -/
inductive Prospect where
  | only (t : ValueType)
  /-- Some type that `t` accepts. -/
  | within (t : ValueType)
deriving DecidableEq, Repr

namespace Prospect

def Allows : Prospect → ValueType → Prop
  | only t, u => u = t
  | within t, u => t.accepts u = true

def fits (known : ValueType) : Prospect → Bool
  | only t => known.accepts t
  | within t => known.covers t

theorem fits_iff {known : ValueType} {p : Prospect} :
    p.fits known = true ↔ ∀ u, p.Allows u → known.accepts u = true := by
  cases p with
  | within t => exact ValueType.covers_iff
  | only t =>
    constructor
    · rintro h u rfl
      exact h
    · intro h
      exact h t rfl

end Prospect

/-- The types that variables may have. A variable that is not among them is not set. -/
abbrev Prospects := List (String × Prospect)

namespace Prospects

def Holds (may : Prospects) («variables» : NameMap Value) : Prop :=
  ∀ name v, «variables».get? name = some v → ∃ p, (name, p) ∈ may ∧ p.Allows v.type

variable {may more : Prospects} {vars : NameMap Value}

theorem holds_empty : Holds [] ∅ := by
  intro name v h
  cases (NameMap.get?_empty name).symm.trans h

theorem Holds.mono (hsub : may ⊆ more) (h : may.Holds vars) : more.Holds vars := by
  intro name v hv
  obtain ⟨p, hmem, hp⟩ := h name v hv
  exact ⟨p, hsub hmem, hp⟩

def replace (may : Prospects) (name : String) (p : Prospect) : Prospects :=
  (name, p) :: may.filter fun e => e.1 ≠ name

theorem replace_subset (may : Prospects) (name : String) (p : Prospect) :
    may.replace name p ⊆ (name, p) :: may :=
  List.cons_subset_cons _ fun _ hmem => (List.mem_filter.mp hmem).1

theorem Holds.set (h : may.Holds vars) {name : String} {p : Prospect} {v : Value}
    (hp : p.Allows v.type) : (may.replace name p).Holds (vars.set name v) := by
  intro other w hw
  rw [NameMap.get?_set] at hw
  split at hw
  · next heq =>
    cases hw
    rw [← heq]
    exact ⟨p, List.mem_cons_self, hp⟩
  · next hne =>
    obtain ⟨q, hmem, hq⟩ := h other w hw
    refine ⟨q, List.mem_cons_of_mem _ (List.mem_filter.mpr ⟨hmem, ?_⟩), hq⟩
    simpa using Ne.symm hne

theorem Holds.setAll (h : may.Holds vars) {bindings : List (String × Value)}
    (hany : ∀ b ∈ bindings, (b.1, .within .any) ∈ may) : may.Holds (vars.setAll bindings) := by
  induction bindings generalizing vars with
  | nil => exact h
  | cons b bindings ih =>
    rw [List.forall_mem_cons] at hany
    have hset : (may.replace b.1 (.within .any)).Holds (vars.set b.1 b.2) := h.set rfl
    refine ih (hset.mono ?_) hany.2
    refine List.Subset.trans (replace_subset may b.1 (.within .any)) ?_
    exact List.cons_subset.mpr ⟨hany.1, fun _ hmem => hmem⟩

end Prospects

namespace TypeFacts

/-- What is known of a term fits whatever type its variable may have. -/
def fitsTerm (f : TypeFacts) (may : Prospects) : Term → Bool
  | .named name => may.all fun e => e.1 ≠ name || e.2.fits (f.typeOf (.named name))
  | _ => true

def fits (f : TypeFacts) (may : Prospects) (i : Instruction) : Bool :=
  i.resolved.all (f.fitsTerm may)

def prospect (f : TypeFacts) : Term → Prospect
  | .literal v => .only v.type
  | t => .within (f.typeOf t)

def writes (f : TypeFacts) : Instruction → Prospects
  | .assign target t => [(target.name, f.prospect t)]
  | .call m _ (some target) => [(target.name, .within m.result)]
  | _ => []

section Fitting
variable {f : TypeFacts} {may : Prospects} {vars : NameMap Value}

theorem accepts_of_fitsTerm {name : String} {v : Value} (h : f.fitsTerm may (.named name) = true)
    (hmay : may.Holds vars) (hv : vars.get? name = some v) :
    (f.typeOf (.named name)).accepts v.type = true := by
  obtain ⟨p, hmem, hp⟩ := hmay name v hv
  have hfits := List.all_eq_true.mp h (name, p) hmem
  simp only [ne_eq, not_true_eq_false, decide_false, Bool.false_or] at hfits
  exact Prospect.fits_iff.mp hfits _ hp

theorem admits_of_fits {i : Instruction} (h : f.fits may i = true) (hmay : may.Holds vars) :
    f.admits i vars = true := by
  apply List.all_eq_true.mpr
  intro t ht
  have hfits := List.all_eq_true.mp h t ht
  cases t with
  | literal v => rfl
  | chain field => rfl
  | named name =>
    rw [admitsTerm]
    cases hv : vars.get? name with
    | none => rfl
    | some v => exact accepts_of_fitsTerm hfits hmay hv

theorem allows_of_eval {view : View} {t : Term} {v : Value} (h : f.fitsTerm may t = true)
    (hmay : may.Holds view.variables) (hv : t.eval view = .ok v) :
    (f.prospect t).Allows v.type := by
  cases t with
  | literal w =>
    cases hv
    rfl
  | chain field => exact ChainField.accepts_of_read hv
  | named name =>
    rw [Term.eval, View.read] at hv
    cases hget : view.variables.get? name with
    | none =>
      rw [hget] at hv
      cases hv
    | some w =>
      rw [hget] at hv
      cases hv
      exact accepts_of_fitsTerm h hmay hget

end Fitting
end TypeFacts

def Instruction.isStatement : Instruction → Bool
  | sequence _ => false
  | filter _ _ => false
  | _ => true

namespace TypedInstruction

/-- What a filter binds before its body runs, of any type. -/
def bound (f : Filter) : Prospects :=
  f.bound.map fun name => (name, .within .any)

mutual

def writes : TypedInstruction → Prospects
  | statement f i => f.writes i
  | scope _ f body => bound f ++ writesAll body

def writesAll : List TypedInstruction → Prospects
  | [] => []
  | i :: is => i.writes ++ writesAll is

end

/-- What variables may have at the start of a filter's body. A body that runs again meets what it has
written itself. -/
def entry (may : Prospects) (f : Filter) (body : List TypedInstruction) : Prospects :=
  if f.repeats then bound f ++ (writesAll body ++ may) else bound f ++ may

mutual

/-- What variables may have after an instruction that has not failed. -/
def after (may : Prospects) : TypedInstruction → Prospects
  | statement f (.assign target t) => may.replace target.name (f.prospect t)
  | statement _ (.call m _ (some target)) => may.replace target.name (.within m.result)
  | statement _ _ => may
  | scope _ f body => afterAll (entry may f body) body ++ entry may f body

def afterAll (may : Prospects) : List TypedInstruction → Prospects
  | [] => may
  | i :: is => afterAll (i.after may) is

end

/-- What variables may have after an instruction of the program itself, whose failure is handled. A
fixed value is written for sure. -/
def settled (may : Prospects) : TypedInstruction → Prospects
  | statement f (.assign target (.literal v)) => may.replace target.name (f.prospect (.literal v))
  | i => i.writes ++ may

mutual

/-- At each place where a type was looked at, it fits all that the variable may have. -/
def sound (may : Prospects) : TypedInstruction → Bool
  | statement f i => i.isStatement && f.fits may i
  | scope facts f body =>
    facts.fits may (.filter f (eraseAll body)) && soundAll (entry may f body) body

def soundAll (may : Prospects) : List TypedInstruction → Bool
  | [] => true
  | i :: is => i.sound may && soundAll (i.after may) is

end

def soundEach (may : Prospects) : List TypedInstruction → Bool
  | [] => true
  | i :: is => i.sound may && soundEach (i.settled may) is

theorem entry_subset (may : Prospects) (facts : TypeFacts) (f : Filter)
    (body : List TypedInstruction) :
    entry may f body ⊆ (scope facts f body).writes ++ may := by
  intro e he
  rw [entry] at he
  split at he
  · simpa [writes, or_assoc] using he
  · obtain hbound | hmay := List.mem_append.mp he
    · simp [writes, hbound]
    · simp [hmay]

theorem subset_entry (may : Prospects) (f : Filter) (body : List TypedInstruction) :
    may ⊆ entry may f body := by
  rw [entry]
  split
  · exact fun _ h => List.mem_append_right _ (List.mem_append_right _ h)
  · exact fun _ h => List.mem_append_right _ h

theorem writes_subset_entry {f : Filter} (hf : f.repeats = true) (may : Prospects)
    (facts : TypeFacts) (body : List TypedInstruction) :
    (scope facts f body).writes ++ may ⊆ entry may f body := by
  rw [entry, if_pos hf, writes, List.append_assoc]
  exact fun _ h => h

theorem bound_subset_entry (may : Prospects) (f : Filter) (body : List TypedInstruction) :
    bound f ⊆ entry may f body := by
  rw [entry]
  split
  · exact List.subset_append_left _ _
  · exact List.subset_append_left _ _

theorem first_subset (may : Prospects) (i : TypedInstruction) (is : List TypedInstruction) :
    i.writes ++ may ⊆ writesAll (i :: is) ++ may := by
  intro e he
  rw [writesAll]
  obtain hwritten | hmem := List.mem_append.mp he
  · simp [hwritten]
  · simp [hmem]

theorem rest_subset {may more : Prospects} (i : TypedInstruction) (is : List TypedInstruction)
    (h : more ⊆ i.writes ++ may) : writesAll is ++ more ⊆ writesAll (i :: is) ++ may := by
  intro e he
  obtain hrest | hfirst := List.mem_append.mp he
  · simp [writesAll, hrest]
  · exact first_subset may i is (h hfirst)

theorem body_subset (may : Prospects) (facts : TypeFacts) (f : Filter)
    (body : List TypedInstruction) :
    writesAll body ++ entry may f body ⊆ (scope facts f body).writes ++ may := by
  intro e he
  obtain hwritten | hmem := List.mem_append.mp he
  · simp [writes, hwritten]
  · exact entry_subset may facts f body hmem

mutual

theorem after_subset (may : Prospects) (i : TypedInstruction) : i.after may ⊆ i.writes ++ may := by
  cases i with
  | statement f i =>
    cases i with
    | assign target t => exact Prospects.replace_subset may target.name _
    | call m ts target =>
      cases target with
      | none => exact fun _ h => h
      | some target => exact Prospects.replace_subset may target.name _
    | _ => exact fun _ h => h
  | scope facts f body =>
    intro e he
    obtain hbody | hmem := List.mem_append.mp he
    · exact body_subset may facts f body (afterAll_subset (entry may f body) body hbody)
    · exact entry_subset may facts f body hmem

theorem afterAll_subset (may : Prospects) (is : List TypedInstruction) :
    afterAll may is ⊆ writesAll is ++ may := by
  cases is with
  | nil => exact fun _ h => h
  | cons i is =>
    exact List.Subset.trans (afterAll_subset (i.after may) is)
      (rest_subset i is (after_subset may i))

end

end TypedInstruction

end ChainQuery
