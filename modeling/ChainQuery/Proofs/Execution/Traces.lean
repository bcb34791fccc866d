import ChainQuery.Proofs.Execution.Laws

/-!
# What a journal tells about a run

The journal of an instruction is a well-bracketed list of visits, and together with the state before
it determines the outputs and the cursors after it. The end of a visit clears the cursor of its kind: an
instruction gives a cursor back as it was unless it visits an element of that kind, and then no element
of that kind is current after it.
-/

namespace ChainQuery

def JournalEntry.enters (c : Cursor) : JournalEntry → Bool
  | entered e => e.cursor = c
  | _ => false

def Journal.visits (c : Cursor) (j : Journal) : Bool :=
  j.any (JournalEntry.enters c)

def Journal.visit (e : Element) (body : Journal) (failure : Option ExecutionError) : Journal :=
  .entered e :: (body ++ [.left e.cursor failure])

/-- Journals whose visits are closed, with the visits of a kind at most so many deep. -/
inductive Nested (c : Cursor) : Nat → Journal → Prop where
  | nil {n : Nat} : Nested c n []
  | staged {n : Nat} (item : OutputItem) : Nested c n [.staged item]
  | moved {n : Nat} (path : String) : Nested c n [.moved path]
  | append {n : Nat} {j k : Journal} : Nested c n j → Nested c n k → Nested c n (j ++ k)
  | inner {n : Nat} {e : Element} {j : Journal} {failure : Option ExecutionError} :
      e.cursor = c → Nested c n j → Nested c (n + 1) (Journal.visit e j failure)
  | outer {n : Nat} {e : Element} {j : Journal} {failure : Option ExecutionError} :
      e.cursor ≠ c → Nested c n j → Nested c n (Journal.visit e j failure)

theorem Nested.visits_eq_false {c : Cursor} {j : Journal} (h : Nested c 0 j) :
    j.visits c = false := by
  generalize hn : 0 = n at h
  induction h with
  | nil => rfl
  | staged item => rfl
  | moved path => rfl
  | append _ _ ihj ihk =>
    rw [Journal.visits, List.any_append, ← Journal.visits, ← Journal.visits, ihj hn, ihk hn]
    rfl
  | inner _ _ _ => cases hn
  | outer he _ ih =>
    simp only [Journal.visits] at ih
    simp [Journal.visits, Journal.visit, JournalEntry.enters, he, ih hn]

theorem entered_mem_body {e : Element} {last : JournalEntry} {body pre rest : Journal}
    (h : body ++ [last] = pre ++ .entered e :: rest) (hlast : last ≠ .entered e) :
    ∃ rest', body = pre ++ .entered e :: rest' ∧ rest = rest' ++ [last] := by
  rcases List.append_eq_append_iff.mp h with ⟨k, -, hk⟩ | ⟨k, hbody, hk⟩
  · rcases k with _ | ⟨x, k⟩
    · exact absurd (List.cons.inj hk).1 hlast
    · obtain ⟨-, hnil⟩ := List.cons.inj hk
      exact absurd hnil.symm (List.append_ne_nil_of_right_ne_nil _ (List.cons_ne_nil _ _))
  · rcases k with _ | ⟨x, k⟩
    · exact absurd (List.cons.inj hk).1.symm hlast
    · obtain ⟨rfl, hrest⟩ := List.cons.inj hk
      exact ⟨k, hbody, hrest⟩

/-- The visit of an element that a journal begins is ended in it, and the visits of that kind inside
are nested less deep. -/
theorem Nested.visit_of_entered {c : Cursor} {n : Nat} {j pre rest : Journal} {e : Element}
    (h : Nested c n j) (hj : j = pre ++ .entered e :: rest) (he : e.cursor = c) :
    ∃ m body failure post, m < n ∧ Nested c m body ∧ rest = body ++ .left c failure :: post := by
  induction h generalizing pre rest with
  | nil => cases pre <;> cases hj
  | staged item =>
    obtain ⟨rest', hnil, -⟩ := entered_mem_body (show [] ++ [_] = pre ++ _ from hj) nofun
    cases pre <;> cases hnil
  | moved path =>
    obtain ⟨rest', hnil, -⟩ := entered_mem_body (show [] ++ [_] = pre ++ _ from hj) nofun
    cases pre <;> cases hnil
  | @append n j k _ _ ihj ihk =>
    rcases List.append_eq_append_iff.mp hj with ⟨k', -, hk⟩ | ⟨k', hj', hk⟩
    · exact ihk hk
    · rcases k' with _ | ⟨x, k'⟩
      · exact ihk (show k = [] ++ _ from hk.symm)
      · obtain ⟨rfl, hrest⟩ := List.cons.inj hk
        obtain ⟨m, body, failure, post, hm, hbody, hk'⟩ := ihj hj'
        refine ⟨m, body, failure, post ++ k, hm, hbody, ?_⟩
        rw [hrest, hk']
        exact List.append_assoc ..
  | @inner n e' body failure he' hbody ih =>
    rcases pre with _ | ⟨x, pre⟩
    · obtain ⟨-, hrest⟩ := List.cons.inj hj
      rw [he'] at hrest
      exact ⟨n, body, failure, [], Nat.lt_succ_self n, hbody, hrest.symm⟩
    · obtain ⟨rest', hsplit, hrest⟩ := entered_mem_body (List.cons.inj hj).2 nofun
      obtain ⟨m, inside, failure', post, hm, hinside, hrest'⟩ := ih hsplit
      -- the visit lies in the body, so that the end of this one comes after it
      refine ⟨m, inside, failure', post ++ [.left e'.cursor failure], Nat.lt_succ_of_lt hm,
        hinside, ?_⟩
      rw [hrest, hrest']
      exact List.append_assoc ..
  | @outer n e' body failure he' hbody ih =>
    rcases pre with _ | ⟨x, pre⟩
    · cases (List.cons.inj hj).1
      exact absurd he he'
    · obtain ⟨rest', hsplit, hrest⟩ := entered_mem_body (List.cons.inj hj).2 nofun
      obtain ⟨m, inside, failure', post, hm, hinside, hrest'⟩ := ih hsplit
      refine ⟨m, inside, failure', post ++ [.left e'.cursor failure], hm, hinside, ?_⟩
      rw [hrest, hrest']
      exact List.append_assoc ..

namespace RunState

def current (s : RunState) : Cursor → Option Element
  | .block => s.block.map .block
  | .transaction => s.transaction.map .transaction
  | .logEntry => s.logEntry.map .logEntry

theorem current_enter_of_ne {s : RunState} {e : Element} {c : Cursor} (h : e.cursor ≠ c) :
    (s.enter e).current c = s.current c := by
  cases e <;> cases c <;> first | rfl | exact absurd rfl h

theorem current_exit_self (s : RunState) (c : Cursor) (failure : Option ExecutionError) :
    (s.exit c failure).current c = none := by
  cases c <;> rfl

theorem current_exit_of_ne {s : RunState} {k c : Cursor} (failure : Option ExecutionError)
    (h : k ≠ c) : (s.exit k failure).current c = s.current c := by
  cases k <;> cases c <;> first | rfl | exact absurd rfl h

/-- A state is the one after a journal: the entries were added, the outputs have followed them, and
no element is current of a kind that was visited. -/
structure Leads (s : RunState) (j : Journal) (t : RunState) : Prop where
  journal : t.journal = s.journal ++ j
  accepts : s.outputs.Accepts j
  outputs : t.outputs = s.outputs.replay j
  current : ∀ c, t.current c = if j.visits c then none else s.current c

theorem leads_nil {s t : RunState} (h : s.Quiet t) : s.Leads [] t where
  journal := by rw [h.journal, List.append_nil]
  accepts := trivial
  outputs := h.outputs
  current := by
    intro c
    cases c with
    | block => exact congrArg (Option.map Element.block) h.block
    | transaction => exact congrArg (Option.map Element.transaction) h.transaction
    | logEntry => exact congrArg (Option.map Element.logEntry) h.logEntry

theorem Leads.append {s t u : RunState} {j k : Journal} (hj : s.Leads j t) (hk : t.Leads k u) :
    s.Leads (j ++ k) u where
  journal := by rw [hk.journal, hj.journal, List.append_assoc]
  accepts := by
    refine Outputs.succeeds_append.mpr ⟨hj.accepts, ?_⟩
    rw [← hj.outputs]
    exact hk.accepts
  outputs := by rw [hk.outputs, hj.outputs, Outputs.replay_append]
  current := by
    intro c
    have hvisits : Journal.visits c (j ++ k) = (j.visits c || k.visits c) := List.any_append
    rw [hk.current, hj.current, hvisits]
    cases j.visits c <;> cases k.visits c <;> rfl

theorem leads_perform {s : RunState} {e : JournalEntry} (hvisits : ∀ c, e.enters c = false)
    (haccepts : s.outputs.Accepts [e]) : s.Leads [e] (s.perform e) where
  journal := rfl
  accepts := haccepts
  outputs := rfl
  current := by
    intro c
    have hnone : Journal.visits c [e] = false := by simp [Journal.visits, hvisits]
    rw [hnone]
    cases c <;> rfl

theorem Leads.visit {s t : RunState} {e : Element} {j : Journal} (h : (s.enter e).Leads j t)
    (failure : Option ExecutionError) :
    s.Leads (Journal.visit e j failure) (t.exit e.cursor failure) where
  journal := by
    have hexit : (t.exit e.cursor failure).journal = t.journal ++ [.left e.cursor failure] := by
      cases e <;> rfl
    have henter : (s.enter e).journal = s.journal ++ [.entered e] := by
      cases e <;> rfl
    rw [hexit, h.journal, henter, Journal.visit]
    simp
  accepts := by
    have henter : (s.enter e).outputs = s.outputs := by cases e <;> rfl
    have hbody := h.accepts
    rw [henter] at hbody
    have hentered : s.outputs.Accepts [.entered e] := Outputs.accepts_singleton nofun
    refine ⟨hentered.1, Outputs.succeeds_append.mpr ⟨hbody, ?_⟩⟩
    exact Outputs.accepts_singleton nofun
  outputs := by
    have henter : (s.enter e).outputs = s.outputs := by cases e <;> rfl
    have hexit : (t.exit e.cursor failure).outputs =
        (t.outputs.follow (.left e.cursor failure)).1 := rfl
    rw [hexit, h.outputs, henter, Journal.visit, Outputs.replay_cons, Outputs.replay_append]
    rfl
  current := by
    intro c
    by_cases hc : e.cursor = c
    · subst hc
      rw [current_exit_self]
      simp [Journal.visits, Journal.visit, JournalEntry.enters]
    · rw [current_exit_of_ne failure hc, h.current, current_enter_of_ne hc]
      have hvisits : Journal.visits c (Journal.visit e j failure) = j.visits c := by
        simp [Journal.visits, Journal.visit, JournalEntry.enters, hc]
      rw [hvisits]

end RunState

def Traced (c : Cursor) (n : Nat) (s t : RunState) : Prop :=
  ∃ j, Nested c n j ∧ s.Leads j t

theorem laws_traced (c : Cursor) : Laws c (Traced c) where
  chains := by
    intro n
    constructor
    · intro s t h
      exact ⟨[], .nil, RunState.leads_nil h⟩
    · intro s t u hst htu
      obtain ⟨j, hj, hst⟩ := hst
      obtain ⟨k, hk, htu⟩ := htu
      exact ⟨j ++ k, hj.append hk, hst.append htu⟩
  staged := by
    intro n s item o hstage
    have haccepts : s.outputs.Accepts [.staged item] := by
      refine ⟨fun _ => ?_, trivial⟩
      rw [Outputs.follow, hstage]
    exact ⟨_, .staged item, RunState.leads_perform (fun _ => rfl) haccepts⟩
  moved := by
    intro n s path
    have haccepts : s.outputs.Accepts [.moved path] := by
      apply Outputs.accepts_singleton
      intro item heq
      cases heq
    exact ⟨_, .moved path, RunState.leads_perform (fun _ => rfl) haccepts⟩
  inner := by
    intro n s e t failure he h
    obtain ⟨j, hj, hst⟩ := h
    exact ⟨_, .inner he hj, hst.visit failure⟩
  outer := by
    intro n s e t failure he h
    obtain ⟨j, hj, hst⟩ := h
    exact ⟨_, .outer he hj, hst.visit failure⟩

/-- A cursor after an instruction is the one before it, or empty if an element of its kind was
visited; an instruction without filters of its kind leaves it alone. -/
theorem cursors_after_execute {looks : Nat} {i : Instruction} {s t : RunState}
    {result : Except ExecutionError Unit} (h : (i.execute looks).run s = some (result, t)) :
    (∃ j, t.journal = s.journal ++ j ∧
      ∀ c, t.current c = if Journal.visits c j then none else s.current c) ∧
      ∀ c, i.depth c = 0 → t.current c = s.current c := by
  constructor
  · obtain ⟨j, -, hleads⟩ := i.keeps_execute (laws_traced .block) looks (Nat.le_refl _) s result t h
    exact ⟨j, hleads.journal, hleads.current⟩
  · intro c hdepth
    obtain ⟨j, hnested, hleads⟩ :=
      i.keeps_execute (laws_traced c) looks (Nat.le_of_eq hdepth) s result t h
    rw [hleads.current, hnested.visits_eq_false]
    rfl

def ChainSource.single : ChainSource where
  head := fun _ => .ok 1
  block := fun _ number => .ok (if number = 1 then some { number := 1 } else none)
  call := fun _ _ _ _ => .error .notConnected

def singleScan (body : List Instruction) : Instruction :=
  .filter (.blocks ⟨.number (.literal (.int 1)), .number (.literal (.int 1))⟩) body

/-- The state of a run over the chain of one block, in the visit of that block. -/
def singleVisit : RunState :=
  { RunState.start {} {} {} with chain := some .single }.enter (.block { number := 1 })

theorem cursors_after_singleScan :
    ∃ t, ((singleScan []).execute 0).run singleVisit = some (.ok (), t) ∧
      (∃ j, t.journal = singleVisit.journal ++ j ∧
        ∀ c, t.current c = if Journal.visits c j then none else singleVisit.current c) ∧
      ∀ c, (singleScan []).depth c = 0 → t.current c = singleVisit.current c := by
  exact ⟨_, rfl, @cursors_after_execute 0 (singleScan []) singleVisit _ _ rfl⟩

/-- In the visit of a block, a scan leaves no block current. -/
theorem cursor_lost_after_scan :
    ¬ ∀ (looks : Nat) (i : Instruction) (s t : RunState) (result : Except ExecutionError Unit),
      (i.execute looks).run s = some (result, t) → ∀ c, t.current c = s.current c := by
  intro h
  have hblock := h 0 (singleScan []) singleVisit _ _ rfl .block
  cases hblock

end ChainQuery
