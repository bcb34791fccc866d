import ChainQuery.Query.Composer

/-!
# The composer with two stacks

The composer's scopes can be held in two stacks that are pushed and popped one after the other: the
instruction lists of the open scopes and their kinds. A call may then fail between the two, and
nothing in the data keeps the stacks of equal length. Here both machines answer the same calls, and
the two stacks are shown to be those of the composer's scopes, after every call.
-/

namespace ChainQuery

inductive ComposerCall where
  | openProgram
  | openFilter (kind : FilterKind)
  | add (i : Instruction)
  | closeFilter (f : Filter)
  | closeProgram
deriving Repr, Inhabited

/-- What a call gives back: a program if it closes one, and otherwise nothing. -/
abbrev ComposerReply := Except BuildError (Option Program)

section Answers
variable {σ : Type} (answer : σ → ComposerCall → ComposerReply × σ)

def stateAfter (s : σ) (calls : List ComposerCall) : σ :=
  calls.foldl (fun s call => (answer s call).2) s

/-- The calls that succeed, in order, when all are made one after the other. -/
def accepted (s : σ) : List ComposerCall → List ComposerCall
  | [] => []
  | call :: calls =>
    match answer s call with
    | (.ok _, t) => call :: accepted t calls
    | (.error _, t) => accepted t calls

theorem stateAfter_cons (s : σ) (call : ComposerCall) (calls : List ComposerCall) :
    stateAfter answer s (call :: calls) = stateAfter answer (answer s call).2 calls := rfl

end Answers

namespace Composer

def perform (c : Composer) : ComposerCall → Except BuildError (Option Program × Composer)
  | .openProgram => c.openProgram.map (none, ·)
  | .openFilter kind => (c.openFilter kind).map (none, ·)
  | .add i => (c.add i).map (none, ·)
  | .closeFilter f => (c.closeFilter f).map (none, ·)
  | .closeProgram => c.closeProgram.map fun (p, d) => (some p, d)

def answer (c : Composer) (call : ComposerCall) : ComposerReply × Composer :=
  match c.perform call with
  | .ok (r, d) => (.ok r, d)
  | .error e => (.error e, c)

theorem answer_of_ok {c d : Composer} {call : ComposerCall} {r : Option Program}
    (h : c.perform call = .ok (r, d)) : c.answer call = (.ok r, d) := by
  rw [answer, h]

theorem answer_of_error {c : Composer} {call : ComposerCall} {e : BuildError}
    (h : c.perform call = .error e) : c.answer call = (.error e, c) := by
  rw [answer, h]

end Composer

/-- The stack of instruction lists and the stack of kinds, each with the innermost scope first. -/
structure Stacks where
  lists : List (List Instruction) := []
  kinds : List ScopeKind := []
deriving Repr, Inhabited

namespace Stacks

def push (s : Stacks) (kind : ScopeKind) : Stacks :=
  ⟨[] :: s.lists, kind :: s.kinds⟩

def openProgram (s : Stacks) : Except BuildError Unit × Stacks :=
  match s.kinds with
  | [] => (.ok (), s.push .program)
  | _ => (.error .programAlreadyPrepared, s)

def openFilter (s : Stacks) (kind : FilterKind) : Except BuildError Unit × Stacks :=
  match s.kinds with
  | [] => (.error .noOpenScope, s)
  | _ => (.ok (), s.push (.filter kind))

def add (s : Stacks) (i : Instruction) : Except BuildError Unit × Stacks :=
  match s.lists with
  | [] => (.error .noOpenScope, s)
  | body :: lists => (.ok (), { s with lists := (body ++ [i]) :: lists })

/-- Pops the innermost scope after a look at its kind: first the kind and then the instructions. -/
def close (s : Stacks) (expected : ScopeKind) : Except BuildError (List Instruction) × Stacks :=
  match s.kinds with
  | [] => (.error .noOpenScope, s)
  | found :: kinds =>
    if found = expected then
      match s.lists with
      | [] => (.error .noOpenScope, { s with kinds := kinds })
      | body :: lists => (.ok body, ⟨lists, kinds⟩)
    else (.error (.unfinishedConstruction expected found), s)

def closeFilter (s : Stacks) (f : Filter) : Except BuildError Unit × Stacks :=
  match s.close (.filter f.kind) with
  | (.ok body, t) => t.add (.filter f body)
  | (.error e, t) => (.error e, t)

def closeProgram (s : Stacks) : Except BuildError Program × Stacks :=
  match s.kinds.length with
  | 0 => (.error .noOpenScope, s)
  | 1 =>
    match s.close .program with
    | (.ok body, t) => (.ok ⟨body⟩, t)
    | (.error e, t) => (.error e, t)
  | n => (.error (.openScopes (n - 1)), s)

def answer (s : Stacks) : ComposerCall → ComposerReply × Stacks
  | .openProgram => s.openProgram.map (·.map fun _ => none) id
  | .openFilter kind => (s.openFilter kind).map (·.map fun _ => none) id
  | .add i => (s.add i).map (·.map fun _ => none) id
  | .closeFilter f => (s.closeFilter f).map (·.map fun _ => none) id
  | .closeProgram => s.closeProgram.map (·.map some) id

def ofComposer (c : Composer) : Stacks where
  lists := c.scopes.map OpenScope.body
  kinds := c.scopes.map OpenScope.kind

end Stacks

namespace Composer

/-- The outermost scope, if there is one, is the program. -/
def Grounded (c : Composer) : Prop :=
  ∀ s, c.scopes.getLast? = some s → s.kind = .program

theorem grounded_nil : Grounded ⟨[]⟩ := by
  intro s h
  cases h

theorem grounded_cons {s t : OpenScope} {scopes : List OpenScope} :
    Grounded ⟨s :: t :: scopes⟩ ↔ Grounded ⟨t :: scopes⟩ := by
  simp [Grounded]

theorem Grounded.of_kind {s t : OpenScope} {scopes : List OpenScope} (h : Grounded ⟨s :: scopes⟩)
    (hk : t.kind = s.kind) : Grounded ⟨t :: scopes⟩ := by
  cases scopes with
  | nil =>
    intro u hu
    obtain rfl : t = u := by simpa using hu
    rw [hk]
    exact h s rfl
  | cons u scopes => exact grounded_cons.2 (grounded_cons.1 h)

theorem Grounded.perform {c d : Composer} {call : ComposerCall} {r : Option Program}
    (h : c.Grounded) (hp : c.perform call = .ok (r, d)) : d.Grounded := by
  obtain ⟨_ | ⟨s, scopes⟩⟩ := c
  · cases call <;> cases hp
    simp [Grounded]
  cases call with
  | openProgram => cases hp
  | openFilter kind =>
    cases hp
    exact grounded_cons.2 h
  | add i =>
    cases hp
    exact h.of_kind rfl
  | closeFilter f =>
    by_cases hk : s.kind = .filter f.kind
    · cases scopes with
      | nil => simp [Composer.perform, closeFilter, hk, Composer.add, Except.map] at hp
      | cons t scopes =>
        simp only [Composer.perform, closeFilter, hk, if_true, Composer.add, Except.map] at hp
        cases hp
        exact (grounded_cons.1 h).of_kind rfl
    · simp [Composer.perform, closeFilter, hk, Except.map] at hp
  | closeProgram =>
    cases scopes with
    | nil =>
      cases hp
      exact grounded_nil
    | cons t scopes => cases hp

theorem Grounded.answer {c : Composer} (h : c.Grounded) (call : ComposerCall) :
    (c.answer call).2.Grounded := by
  rcases hp : c.perform call with e | ⟨r, d⟩
  · rwa [answer_of_error hp]
  · rw [answer_of_ok hp]
    exact h.perform hp

end Composer

namespace Stacks

/-- On the scopes of a composer, taken apart, each call has the answer that the composer gives. -/
theorem answer_ofComposer {c : Composer} (h : c.Grounded) (call : ComposerCall) :
    (ofComposer c).answer call = ((c.answer call).1, ofComposer (c.answer call).2) := by
  obtain ⟨_ | ⟨s, scopes⟩⟩ := c
  · cases call <;> rfl
  cases call with
  | openProgram => rfl
  | openFilter kind => rfl
  | add i => rfl
  | closeFilter f =>
    by_cases hk : s.kind = .filter f.kind
    · cases scopes with
      | nil =>
        -- No list would be left for the filter, but this scope would not be the program.
        have hp : s.kind = .program := h s rfl
        simp [hp] at hk
      | cons t scopes =>
        simp [ofComposer, answer, closeFilter, close, add, Composer.answer, Composer.perform,
          Composer.closeFilter, Composer.add, hk, Except.map]
    · simp [ofComposer, answer, closeFilter, close, Composer.answer, Composer.perform,
        Composer.closeFilter, hk, Except.map]
  | closeProgram =>
    cases scopes with
    | nil =>
      have hk : s.kind = .program := h s rfl
      simp [ofComposer, answer, closeProgram, close, Composer.answer, Composer.perform,
        Composer.closeProgram, hk, Except.map]
    | cons t scopes =>
      simp [ofComposer, answer, closeProgram, Composer.answer, Composer.perform,
        Composer.closeProgram, Except.map]

theorem stateAfter_ofComposer {c : Composer} (h : c.Grounded) (calls : List ComposerCall) :
    stateAfter answer (ofComposer c) calls = ofComposer (stateAfter Composer.answer c calls) ∧
      (stateAfter Composer.answer c calls).Grounded := by
  induction calls generalizing c with
  | nil => exact ⟨rfl, h⟩
  | cons call calls ih =>
    rw [stateAfter_cons, stateAfter_cons, answer_ofComposer h]
    exact ih (h.answer call)

theorem accepted_ofComposer {c : Composer} (h : c.Grounded) (calls : List ComposerCall) :
    accepted answer (ofComposer c) calls = accepted Composer.answer c calls := by
  induction calls generalizing c with
  | nil => rfl
  | cons call calls ih =>
    have hs := ih (h.answer call)
    simp only [accepted, answer_ofComposer h]
    rcases hc : c.answer call with ⟨_ | _, d⟩ <;> simp_all

end Stacks
end ChainQuery
