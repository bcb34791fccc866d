import ChainQuery.Proofs.Query.Stacks
import ChainQuery.Proofs.Query.Takes

/-!
# Programs as nested brackets

The successful calls since the program was opened are a sequence of brackets, some of them still
open: an opened filter is an opening bracket, a closed one the closing bracket of its kind. A program
can be closed exactly when no bracket is open, and it is the tree that the brackets denote.
-/

namespace ChainQuery

/-- The calls are brackets that are closed in order and by their own kind, and they denote the
instructions: an added one stands for itself, a pair of brackets for the filter with the instructions
between them. -/
inductive Denotes : List ComposerCall → List Instruction → Prop
  | nil : Denotes [] []
  | add {calls is} (i : Instruction) : Denotes calls is → Denotes (calls ++ [.add i]) (is ++ [i])
  | filter {calls inner is body} (f : Filter) : Denotes calls is → Denotes inner body →
      Denotes (calls ++ .openFilter f.kind :: inner ++ [.closeFilter f]) (is ++ [.filter f body])

/-- The calls end in those of the open scopes: each scope was opened, and what came after that, up to
the next opening, denotes its instructions. -/
inductive Leaves : List ComposerCall → List OpenScope → Prop
  | program {calls is} (before : List ComposerCall) : Denotes calls is →
      Leaves (before ++ .openProgram :: calls) [⟨.program, is⟩]
  | filter {past scopes calls is} (kind : FilterKind) : Leaves past scopes → Denotes calls is →
      Leaves (past ++ .openFilter kind :: calls) (⟨.filter kind, is⟩ :: scopes)

theorem Leaves.extend {past more : List ComposerCall} {s : OpenScope} {scopes : List OpenScope}
    {js : List Instruction} (h : Leaves past (s :: scopes))
    (hm : ∀ calls is, Denotes calls is → Denotes (calls ++ more) (is ++ js)) :
    Leaves (past ++ more) ({ s with body := s.body ++ js } :: scopes) := by
  cases h with
  | program before hd =>
    rw [List.append_assoc, List.cons_append]
    exact .program before (hm _ _ hd)
  | filter kind hp hd =>
    rw [List.append_assoc, List.cons_append]
    exact .filter kind hp (hm _ _ hd)

namespace Composer

def follow? (c : Composer) (calls : List ComposerCall) : Option Composer :=
  calls.foldlM (fun c call => (c.perform call).toOption.map Prod.snd) c

theorem follow?_append (c : Composer) (calls more : List ComposerCall) :
    c.follow? (calls ++ more) = (c.follow? calls).bind fun d => d.follow? more :=
  List.foldlM_append

theorem follow?_cons (c : Composer) (call : ComposerCall) (calls : List ComposerCall) :
    c.follow? (call :: calls) =
      ((c.perform call).toOption.map Prod.snd).bind fun d => d.follow? calls := by
  simp [follow?, List.foldlM_cons]

theorem follow?_of_ok {c d : Composer} {call : ComposerCall} {r : Option Program}
    (h : c.perform call = .ok (r, d)) (calls : List ComposerCall) :
    c.follow? (call :: calls) = d.follow? calls := by
  rw [follow?_cons, h]
  rfl

/-- The successful calls lead to the same composer on their own. -/
theorem follow?_accepted (c : Composer) (calls : List ComposerCall) :
    c.follow? (accepted answer c calls) = some (stateAfter answer c calls) := by
  induction calls generalizing c with
  | nil => rfl
  | cons call calls ih =>
    rw [stateAfter_cons, accepted]
    rcases hp : c.perform call with e | ⟨r, d⟩
    · simpa [answer_of_error hp] using ih c
    · simpa [answer_of_ok hp, follow?_of_ok hp] using ih d

/-- What a successful call leaves of brackets that stand open. -/
theorem leaves_perform {c d : Composer} {call : ComposerCall} {r : Option Program}
    {past : List ComposerCall} (h : c.Open → Leaves past c.scopes)
    (hp : c.perform call = .ok (r, d)) (hd : d.Open) : Leaves (past ++ [call]) d.scopes := by
  obtain ⟨_ | ⟨s, scopes⟩⟩ := c
  · cases call <;> cases hp
    exact .program past .nil
  have hs : Leaves past (s :: scopes) := h (List.cons_ne_nil _ _)
  cases call with
  | openProgram => cases hp
  | openFilter kind =>
    cases hp
    exact .filter kind hs .nil
  | add i =>
    cases hp
    exact hs.extend fun _ _ hc => hc.add i
  | closeFilter f =>
    by_cases hk : s.kind = .filter f.kind
    · cases scopes with
      | nil => simp [perform, closeFilter, hk, Composer.add, Except.map] at hp
      | cons t scopes =>
        simp only [perform, closeFilter, hk, if_true, Composer.add, Except.map] at hp
        cases hp
        cases hs with
        | filter kind hout hin =>
          obtain rfl : kind = f.kind := ScopeKind.filter.inj hk
          rw [List.append_assoc]
          refine hout.extend fun calls is hc => ?_
          rw [← List.append_assoc]
          exact hc.filter f hin
    · simp [perform, closeFilter, hk, Except.map] at hp
  | closeProgram =>
    cases scopes with
    | nil =>
      cases hp
      exact absurd rfl hd
    | cons t scopes => cases hp

theorem leaves_of_follow {c d : Composer} {past calls : List ComposerCall}
    (h : c.Open → Leaves past c.scopes) (hf : c.follow? calls = some d) (hd : d.Open) :
    Leaves (past ++ calls) d.scopes := by
  induction calls generalizing c past with
  | nil =>
    obtain rfl : c = d := Option.some.inj hf
    simpa using h hd
  | cons call calls ih =>
    rw [follow?_cons] at hf
    rcases hp : c.perform call with e | ⟨r, m⟩
    · simp [hp, Except.toOption] at hf
    · rw [List.append_cons]
      refine ih (leaves_perform h hp) ?_
      simpa [hp, Except.toOption] using hf

/-- Brackets that are all closed succeed in any open scope, and their instructions are added. -/
theorem follow?_of_denotes {c : Composer} {calls : List ComposerCall} {is : List Instruction}
    (hc : c.Open) (h : Denotes calls is) : c.follow? calls = some (c.extend is) := by
  induction h generalizing c with
  | nil => exact congrArg some c.extend_nil.symm
  | @add calls is i _ ih =>
    have hadd : (c.extend is).perform (.add i) = .ok (none, c.extend (is ++ [i])) := by
      rw [perform, (add_eq_ok (hc.extend is)).2 rfl, extend_append]
      rfl
    rw [follow?_append, ih hc, Option.bind_some, follow?_of_ok hadd]
    rfl
  | @filter calls inner is body f _ _ ih ihin =>
    have hout : (c.extend is).Open := hc.extend is
    have hopen : (c.extend is).perform (.openFilter f.kind) =
        .ok (none, ⟨⟨.filter f.kind, []⟩ :: (c.extend is).scopes⟩) := by
      rw [perform, (openFilter_eq_ok hout).2 rfl]
      rfl
    have hclose : (Composer.mk (⟨.filter f.kind, body⟩ :: (c.extend is).scopes)).perform
        (.closeFilter f) = .ok (none, c.extend (is ++ [.filter f body])) := by
      rw [perform, (closeFilter_eq_ok hout).2 rfl, extend_append]
      rfl
    rw [List.append_assoc, follow?_append, ih hc, Option.bind_some, List.cons_append,
      follow?_of_ok hopen, follow?_append, ihin (List.cons_ne_nil _ _), Option.bind_some]
    exact follow?_of_ok hclose []

theorem closeProgram_eq_ok {c d : Composer} {p : Program} :
    c.closeProgram = .ok (p, d) ↔ ∃ s, c.scopes = [s] ∧ p = ⟨s.body⟩ ∧ d = ⟨[]⟩ := by
  obtain ⟨_ | ⟨s, _ | ⟨t, scopes⟩⟩⟩ := c <;> simp [closeProgram, eq_comm]

/-- A program is closed exactly when the successful calls since it was opened are brackets that are
all closed, and it is what they denote. -/
theorem closeProgram_iff_denotes {calls : List ComposerCall} {c : Composer} {p : Program}
    (hc : follow? {} calls = some c) :
    c.closeProgram = .ok (p, {}) ↔
      ∃ before body, calls = before ++ .openProgram :: body ∧ Denotes body p.instructions := by
  rw [closeProgram_eq_ok]
  constructor
  · rintro ⟨s, hs, hp, -⟩
    have hl : Leaves ([] ++ calls) c.scopes :=
      leaves_of_follow (fun h => absurd rfl h) hc (by simp [Open, hs])
    rw [List.nil_append, hs] at hl
    cases hl with
    | program before hd => exact ⟨before, _, rfl, hp ▸ hd⟩
    | filter kind hout _ => cases hout
  · rintro ⟨before, body, hcalls, hd⟩
    rw [hcalls, follow?_append, Option.bind_eq_some_iff] at hc
    obtain ⟨m, _, hm⟩ := hc
    obtain ⟨_ | ⟨s, scopes⟩⟩ := m
    · have hopen : perform ⟨[]⟩ .openProgram = .ok (none, ⟨[⟨.program, []⟩]⟩) := rfl
      rw [follow?_of_ok hopen, follow?_of_denotes (List.cons_ne_nil _ _) hd] at hm
      obtain rfl := Option.some.inj hm
      exact ⟨⟨.program, p.instructions⟩, rfl, rfl, rfl⟩
    · simp [follow?_cons, perform, openProgram, Except.map, Except.toOption] at hm

end Composer

/-- Brackets denote one list of instructions only. -/
theorem Denotes.unique {calls : List ComposerCall} {is js : List Instruction}
    (hi : Denotes calls is) (hj : Denotes calls js) : is = js := by
  have hc : (Composer.mk [⟨.program, []⟩]).Open := List.cons_ne_nil _ _
  have h := (Composer.follow?_of_denotes hc hi).symm.trans (Composer.follow?_of_denotes hc hj)
  simpa [Composer.extend] using h

/-- What holds of the two stacks when `done` are the calls that have succeeded so far. -/
structure Stacks.Consistent (s : Stacks) (done : List ComposerCall) : Prop where
  lengths : s.lists.length = s.kinds.length
  bottom : ∀ kind, s.kinds.getLast? = some kind → kind = .program
  unchanged : ∀ call e, (s.answer call).1 = .error e → (s.answer call).2 = s
  closes : ∀ f : Filter, s.kinds.head? = some (.filter f.kind) → (s.closeFilter f).1 = .ok ()
  builds : ∀ p, s.closeProgram.1 = .ok p ↔
    ∃ before body, done = before ++ .openProgram :: body ∧ Denotes body p.instructions
  emptied : ∀ p, s.closeProgram.1 = .ok p → s.closeProgram.2 = {}

namespace Stacks

theorem closeFilter_ofComposer {c : Composer} (h : c.Grounded) {f : Filter}
    (hk : (ofComposer c).kinds.head? = some (.filter f.kind)) :
    ((ofComposer c).closeFilter f).1 = .ok () := by
  obtain ⟨_ | ⟨s, _ | ⟨t, scopes⟩⟩⟩ := c
  · cases hk
  · have hp : s.kind = .program := h s rfl
    simp [ofComposer, hp] at hk
  · have hs : s.kind = .filter f.kind := by simpa [ofComposer] using hk
    simp [ofComposer, closeFilter, close, add, hs]

theorem closeProgram_ofComposer {c : Composer} (h : c.Grounded) {p : Program} :
    ((ofComposer c).closeProgram.1 = .ok p ↔ c.closeProgram = .ok (p, {})) ∧
      ((ofComposer c).closeProgram.1 = .ok p → (ofComposer c).closeProgram.2 = {}) := by
  obtain ⟨_ | ⟨s, _ | ⟨t, scopes⟩⟩⟩ := c
  · simp [ofComposer, closeProgram, Composer.closeProgram]
  · have hp : s.kind = .program := h s rfl
    simp [ofComposer, closeProgram, close, Composer.closeProgram, hp]
  · simp [ofComposer, closeProgram, Composer.closeProgram]

end Stacks

/-- After any calls, successful or not, from the start: the two stacks are consistent with the calls
that have succeeded, and they are the scopes of the composer, which gives the same answers. -/
theorem stacks_consistent (calls : List ComposerCall) :
    (stateAfter Stacks.answer {} calls).Consistent (accepted Stacks.answer {} calls) ∧
    stateAfter Stacks.answer {} calls =
      Stacks.ofComposer (stateAfter Composer.answer {} calls) ∧
    ∀ call, ((stateAfter Stacks.answer {} calls).answer call).1 =
      ((stateAfter Composer.answer {} calls).answer call).1 := by
  have hf := Composer.follow?_accepted {} calls
  obtain ⟨hs, hg⟩ := Stacks.stateAfter_ofComposer Composer.grounded_nil calls
  have ha := Stacks.accepted_ofComposer Composer.grounded_nil calls
  change stateAfter Stacks.answer {} calls = _ at hs
  change accepted Stacks.answer {} calls = _ at ha
  rw [hs, ha]
  generalize stateAfter Composer.answer {} calls = c at hf hg
  refine ⟨?_, rfl, fun call => by rw [Stacks.answer_ofComposer hg]⟩
  constructor
  case lengths => simp [Stacks.ofComposer]
  case bottom =>
    intro kind hk
    simp only [Stacks.ofComposer, List.getLast?_map, Option.map_eq_some_iff] at hk
    obtain ⟨s, hs, rfl⟩ := hk
    exact hg s hs
  case unchanged =>
    intro call e he
    rw [Stacks.answer_ofComposer hg] at he ⊢
    rcases hp : c.perform call with _ | ⟨r, d⟩
    · rw [Composer.answer_of_error hp]
    · simp [Composer.answer_of_ok hp] at he
  case closes => exact fun f hk => Stacks.closeFilter_ofComposer hg hk
  case builds =>
    exact fun p => (Stacks.closeProgram_ofComposer hg).1.trans (Composer.closeProgram_iff_denotes hf)
  case emptied => exact fun p => (Stacks.closeProgram_ofComposer hg).2

end ChainQuery
