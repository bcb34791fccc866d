import ChainQuery.Proofs.Results
import ChainQuery.Query.Compiler

/-!
# Steps of reading and of compilation

What has to hold for a step to succeed or to fail, and what it leaves behind.
-/

namespace ChainQuery

section Steps
variable {ε σ α β : Type} {s t : σ}

/-- A step succeeds from a state with a result and a state. -/
def Yields (x : ExceptT ε (StateM σ) α) (s : σ) (a : α) (t : σ) : Prop :=
  x.run s = (.ok a, t)

theorem yields_pure {a b : α} : Yields (pure a : ExceptT ε (StateM σ) α) s b t ↔ b = a ∧ t = s := by
  constructor
  · intro h
    cases h
    exact ⟨rfl, rfl⟩
  · intro hex
    obtain ⟨rfl, rfl⟩ := hex
    rfl

theorem run_step_bind (x : ExceptT ε (StateM σ) α) (f : α → ExceptT ε (StateM σ) β) (s : σ) :
    (x >>= f).run s = match x.run s with
      | (.ok a, u) => (f a).run u
      | (.error e, u) => (.error e, u) := by
  show (ExceptT.bindCont f (x.run s).1) (x.run s).2 = _
  rcases x.run s with ⟨e | a, u⟩
  · rfl
  · rfl

theorem yields_bind {x : ExceptT ε (StateM σ) α} {f : α → ExceptT ε (StateM σ) β} {b : β} :
    Yields (x >>= f) s b t ↔ ∃ a u, Yields x s a u ∧ Yields (f a) u b t := by
  unfold Yields
  rw [run_step_bind]
  rcases x.run s with ⟨e | a, u⟩
  · constructor
    · intro h
      cases h
    · intro hex
      obtain ⟨a, u, h, _⟩ := hex
      cases h
  · constructor
    · intro h
      exact ⟨a, u, rfl, h⟩
    · intro hex
      obtain ⟨a, u, hx, hf⟩ := hex
      cases hx
      exact hf

theorem yields_throw {e : ε} {a : α} : ¬ Yields (throw e : ExceptT ε (StateM σ) α) s a t := by
  intro h
  cases h

theorem yields_get_bind {f : σ → ExceptT ε (StateM σ) β} {b : β} :
    Yields (get >>= f) s b t ↔ Yields (f s) s b t := by
  rw [yields_bind]
  constructor
  · intro hex
    obtain ⟨a, u, hget, h⟩ := hex
    cases hget
    exact h
  · intro h
    exact ⟨s, s, rfl, h⟩

theorem yields_set {u : σ} {a : PUnit} :
    Yields (set u : ExceptT ε (StateM σ) PUnit) s a t ↔ t = u := by
  constructor
  · intro h
    cases h
    rfl
  · intro heq
    subst heq
    rfl

/-- A step fails in a state with an error and leaves a state. -/
def Fails (x : ExceptT ε (StateM σ) α) (s : σ) (e : ε) (t : σ) : Prop :=
  x.run s = (.error e, t)

theorem fails_pure {a : α} {e : ε} : ¬ Fails (pure a : ExceptT ε (StateM σ) α) s e t := by
  intro h
  cases h

theorem fails_bind {x : ExceptT ε (StateM σ) α} {f : α → ExceptT ε (StateM σ) β} {e : ε} :
    Fails (x >>= f) s e t ↔ Fails x s e t ∨ ∃ a u, Yields x s a u ∧ Fails (f a) u e t := by
  unfold Fails Yields
  rw [run_step_bind]
  rcases x.run s with ⟨e' | a, u⟩
  · constructor
    · intro h
      cases h
      exact .inl rfl
    · intro hor
      obtain h | ⟨a, v, h, _⟩ := hor
      · cases h
        rfl
      · cases h
  · constructor
    · intro h
      exact .inr ⟨a, u, rfl, h⟩
    · intro hor
      obtain h | ⟨b, v, hx, hf⟩ := hor
      · cases h
      · cases hx
        exact hf

theorem fails_get_bind {f : σ → ExceptT ε (StateM σ) β} {e : ε} :
    Fails (get >>= f) s e t ↔ Fails (f s) s e t := Iff.rfl

theorem fails_set {u : σ} {e : ε} : ¬ Fails (set u : ExceptT ε (StateM σ) PUnit) s e t := by
  intro h
  cases h

end Steps

theorem Reading.yields_check {e : Except BuildError α} {f f' : TypeFacts} {a : α} :
    Yields (Reading.check e) f a f' ↔ e = .ok a ∧ f' = f := by
  constructor
  · intro h
    exact ⟨congrArg Prod.fst h, (congrArg Prod.snd h).symm⟩
  · intro hex
    obtain ⟨rfl, rfl⟩ := hex
    rfl

theorem Reading.fails_check {x : Except BuildError α} {f f' : TypeFacts} {e : BuildError} :
    Fails (Reading.check x) f e f' ↔ x = .error e ∧ f' = f := by
  constructor
  · intro h
    exact ⟨congrArg Prod.fst h, (congrArg Prod.snd h).symm⟩
  · intro hex
    obtain ⟨rfl, rfl⟩ := hex
    rfl

theorem Compiling.yields_check {e : Except BuildError α} {d d' : Draft} {a : α} :
    Yields (Compiling.check e) d a d' ↔ e = .ok a ∧ d' = d := by
  constructor
  · intro h
    exact ⟨congrArg Prod.fst h, (congrArg Prod.snd h).symm⟩
  · intro hex
    obtain ⟨rfl, rfl⟩ := hex
    rfl

theorem Compiling.fails_check {x : Except BuildError α} {d d' : Draft} {e : BuildError} :
    Fails (Compiling.check x) d e d' ↔ x = .error e ∧ d' = d := by
  constructor
  · intro h
    exact ⟨congrArg Prod.fst h, (congrArg Prod.snd h).symm⟩
  · intro hex
    obtain ⟨rfl, rfl⟩ := hex
    rfl

theorem Compiling.yields_reading {x : Reading α} {d d' : Draft} {a : α} :
    Yields (Compiling.reading x) d a d' ↔
      ∃ f, Yields x d.toTypeFacts a f ∧ d' = { d with toTypeFacts := f } := by
  have hrun : (Compiling.reading x).run d =
      ((x.run d.toTypeFacts).1, { d with toTypeFacts := (x.run d.toTypeFacts).2 }) := rfl
  unfold Yields
  rw [hrun]
  rcases x.run d.toTypeFacts with ⟨result, f⟩
  constructor
  · intro h
    cases h
    exact ⟨f, rfl, rfl⟩
  · intro hex
    obtain ⟨f', h, rfl⟩ := hex
    cases h
    rfl

theorem Compiling.fails_reading {x : Reading α} {d d' : Draft} {e : BuildError} :
    Fails (Compiling.reading x) d e d' ↔
      ∃ f, Fails x d.toTypeFacts e f ∧ d' = { d with toTypeFacts := f } := by
  have hrun : (Compiling.reading x).run d =
      ((x.run d.toTypeFacts).1, { d with toTypeFacts := (x.run d.toTypeFacts).2 }) := rfl
  unfold Fails
  rw [hrun]
  rcases x.run d.toTypeFacts with ⟨result, f⟩
  constructor
  · intro h
    cases h
    exact ⟨f, rfl, rfl⟩
  · intro hex
    obtain ⟨f', h, rfl⟩ := hex
    cases h
    rfl

end ChainQuery
