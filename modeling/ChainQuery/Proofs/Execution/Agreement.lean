import ChainQuery.Proofs.Execution.Fragments
import ChainQuery.Proofs.Execution.Moves

/-!
# Runs that agree

No step of a run depends on the journal and the deeds, and only the terms and the filters that look at
the current transaction depend on it. Hence the instructions that do not look at it go the same way
from two states that differ in nothing else.
-/

namespace ChainQuery

/-- A state with another current transaction and other histories. -/
def RunState.apart (s : RunState) (x : Option Transaction) (j : Journal) (d : List Deed) : RunState :=
  { s with transaction := x, journal := j, deeds := d }

/-- Two states with related transactions and journals that differ in nothing else than the deeds. -/
structure RunState.Apart (T : Option Transaction → Option Transaction → Prop)
    (J : Journal → Journal → Prop) (s t : RunState) : Prop where
  transaction : T s.transaction t.transaction
  journal : J s.journal t.journal
  same : t = s.apart t.transaction t.journal t.deeds

/-- A difference of transactions and journals that a fragment does not show. -/
structure Fragment.Overlooks (F : Fragment) (T : Option Transaction → Option Transaction → Prop)
    (J : Journal → Journal → Prop) : Prop where
  reads : ∀ {v : View} {x}, T v.transaction x → F.Alike v { v with transaction := x }
  append : ∀ {j k} e, J j k → J (j ++ [e]) (k ++ [e])
  visits : ∀ {senders recipients}, F.filter (.transactions senders recipients) → ∀ x, T x x
  candidates : ∀ {contracts signature}, F.filter (.logEntries contracts signature) →
    ∀ {x y}, T x y → x = y

/-- Neither of two steps returns, or both do with the same result and in related states. -/
def Run.EndAlike (S : RunState → RunState → Prop)
    (x y : Option (Except ExecutionError α × RunState)) : Prop :=
  Option.Rel (fun p q => p.1 = q.1 ∧ S p.2 q.2) x y

/-- Two steps end alike from related states. -/
def Run.Agree (S : RunState → RunState → Prop) (x y : Run α) : Prop :=
  ∀ s t, S s t → EndAlike S (x.run s) (y.run t)

section States
variable {T : Option Transaction → Option Transaction → Prop} {J : Journal → Journal → Prop}
variable {s t : RunState}

theorem RunState.Apart.exists_eq (h : s.Apart T J t) :
    ∃ x j d, T s.transaction x ∧ J s.journal j ∧ t = s.apart x j d :=
  ⟨_, _, _, h.transaction, h.journal, h.same⟩

/-- Related states see the same, except for the transaction. -/
theorem RunState.Apart.toView (h : s.Apart T J t) :
    t.toView = { s.toView with transaction := t.transaction } := by
  obtain ⟨x, j, d, -, -, rfl⟩ := h.exists_eq
  rfl

section Visits
variable {U : Option Transaction → Option Transaction → Prop}
variable (hJ : ∀ {j k} e, J j k → J (j ++ [e]) (k ++ [e])) (h : s.Apart T J t)
include hJ h

theorem RunState.Apart.enter (e : Element)
    (hT : U (s.enter e).transaction (t.enter e).transaction) :
    (s.enter e).Apart U J (t.enter e) := by
  obtain ⟨x, j, d, -, hj, rfl⟩ := h.exists_eq
  cases e <;> exact ⟨hT, hJ _ hj, rfl⟩

theorem RunState.Apart.exit (c : Cursor) (failure : Option ExecutionError)
    (hT : U (s.exit c failure).transaction (t.exit c failure).transaction) :
    (s.exit c failure).Apart U J (t.exit c failure) := by
  obtain ⟨x, j, d, -, hj, rfl⟩ := h.exists_eq
  cases c <;> exact ⟨hT, hJ _ hj, rfl⟩

end Visits

end States

/-- No fragment shows a difference between the journals only. -/
theorem Fragment.overlooks_journal (F : Fragment) {J : Journal → Journal → Prop}
    (hJ : ∀ {j k} e, J j k → J (j ++ [e]) (k ++ [e])) : F.Overlooks Eq J where
  reads := by
    rintro v _ rfl
    exact ⟨rfl, fun _ _ => rfl⟩
  append := hJ
  visits _ _ := rfl
  candidates _ _ _ h := h

theorem TransactionScope.visitAll_any (body : Run Unit) (t : Transaction) (ts : List Transaction) :
    visitAll .any .any body (t :: ts) =
      (do Run.guarded (context t) (visit body t); visitAll .any .any body ts) := rfl

namespace Run

section Rules
variable {S : RunState → RunState → Prop}

theorem EndAlike.cases {x y : Option (Except ExecutionError α × RunState)} (h : EndAlike S x y) :
    (x = none ∧ y = none) ∨ ∃ result u v, x = some (result, u) ∧ y = some (result, v) ∧ S u v := by
  cases h with
  | none => exact .inl ⟨rfl, rfl⟩
  | @some p q hpq =>
    obtain ⟨result, u⟩ := p
    obtain ⟨_, v⟩ := q
    obtain ⟨rfl, hS⟩ := hpq
    exact .inr ⟨result, u, v, rfl, rfl, hS⟩

theorem EndAlike.imp {S' : RunState → RunState → Prop}
    {x y : Option (Except ExecutionError α × RunState)} (h : EndAlike S x y)
    (hS : ∀ u v, S u v → S' u v) : EndAlike S' x y := by
  rcases h.cases with ⟨rfl, rfl⟩ | ⟨result, u, v, rfl, rfl, huv⟩
  · exact .none
  · exact .some ⟨rfl, hS u v huv⟩

theorem EndAlike.bind {x y : Run α} {f g : α → Run β} {s t : RunState}
    (hx : EndAlike S (x.run s) (y.run t))
    (hf : ∀ a u v, S u v → EndAlike S ((f a).run u) ((g a).run v)) :
    EndAlike S ((x >>= f).run s) ((y >>= g).run t) := by
  rw [run_bind, run_bind]
  rcases hx.cases with ⟨hx, hy⟩ | ⟨result, u, v, hx, hy, huv⟩
  · rw [hx, hy]
    exact .none
  · rw [hx, hy]
    cases result with
    | error e => exact .some ⟨rfl, huv⟩
    | ok a => exact hf a u v huv

theorem EndAlike.outcome {x y : Run α} {s t : RunState} (hx : EndAlike S (x.run s) (y.run t)) :
    EndAlike S ((outcome x).run s) ((outcome y).run t) := by
  rw [run_outcome, run_outcome]
  rcases hx.cases with ⟨hx, hy⟩ | ⟨result, u, v, hx, hy, huv⟩
  · rw [hx, hy]
    exact .none
  · rw [hx, hy]
    exact .some ⟨rfl, huv⟩

theorem EndAlike.visit {S' : RunState → RunState → Prop} {x y : Run Unit} {s t : RunState}
    (e : Element) (he : e.cursor ≠ .block)
    (hx : EndAlike S (x.run (s.enter e)) (y.run (t.enter e)))
    (hS : ∀ u v failure, S u v → S' (u.exit e.cursor failure) (v.exit e.cursor failure)) :
    EndAlike S' ((do resume (← visiting e x) : Run Unit).run s)
      ((do resume (← visiting e y) : Run Unit).run t) := by
  rw [run_resume_visiting e he, run_resume_visiting e he]
  rcases hx.cases with ⟨hx, hy⟩ | ⟨result, u, v, hx, hy, huv⟩
  · rw [hx, hy]
    exact .none
  · rw [hx, hy]
    exact .some ⟨rfl, hS u v _ huv⟩

theorem agree_pure (a : α) : Agree S (pure a) (pure a) :=
  fun _ _ h => .some ⟨rfl, h⟩

theorem agree_exhausted : Agree S (exhausted : Run α) exhausted :=
  fun _ _ _ => .none

theorem agree_bind {x y : Run α} {f g : α → Run β} (hx : Agree S x y)
    (hf : ∀ a, Agree S (f a) (g a)) : Agree S (x >>= f) (y >>= g) :=
  fun s t h => (hx s t h).bind fun a => hf a

end Rules

section Apartness
variable {T : Option Transaction → Option Transaction → Prop} {J : Journal → Journal → Prop}

theorem agree_apart {x y : Run α} {result : RunState → Except ExecutionError α}
    {next : RunState → RunState} (hx : ∀ s, x.run s = some (result s, next s))
    (hkeeps : ∀ s, (next s).transaction = s.transaction ∧ (next s).journal = s.journal)
    (hy : ∀ s t j d, ∃ d', y.run (s.apart t j d) = some (result s, (next s).apart t j d')) :
    Agree (RunState.Apart T J) x y := by
  intro s t h
  obtain ⟨x', j, d, hT, hJ, rfl⟩ := h.exists_eq
  obtain ⟨d', hrun⟩ := hy s x' j d
  obtain ⟨htransaction, hjournal⟩ := hkeeps s
  rw [hx, hrun]
  refine .some ⟨rfl, ?_, ?_, rfl⟩
  · rw [htransaction]
    exact hT
  · rw [hjournal]
    exact hJ

theorem agree_raise (e : ExecutionError) :
    Agree (RunState.Apart T J) (raise e : Run α) (raise e) :=
  agree_apart (fun _ => rfl) (fun _ => ⟨rfl, rfl⟩) fun _ _ _ _ => ⟨_, rfl⟩

theorem agree_inView {read : View → Except ExecutionError α}
    (h : ∀ s t, RunState.Apart T J s t → read s.toView = read t.toView) :
    Agree (RunState.Apart T J) (inView read) (inView read) := by
  intro s t hst
  show EndAlike _ ((ofExcept (read s.toView)).run s) ((ofExcept (read t.toView)).run t)
  rw [h s t hst]
  cases read t.toView with
  | ok a => exact agree_pure a s t hst
  | error e => exact agree_raise e s t hst

theorem agree_report (context : String) (e : ExecutionError) :
    Agree (RunState.Apart T J) (report context e) (report context e) :=
  agree_apart (fun _ => rfl) (fun _ => ⟨rfl, rfl⟩) fun _ _ _ _ => ⟨_, rfl⟩

theorem agree_fail (context : String) (e : ExecutionError) :
    Agree (RunState.Apart T J) (fail context e) (fail context e) :=
  agree_apart (fun _ => rfl) (fun _ => ⟨rfl, rfl⟩) fun _ _ _ _ => ⟨_, rfl⟩

theorem agree_beginning (i i' : Instruction) :
    Agree (RunState.Apart T J) (beginning i) (beginning i') :=
  agree_apart (fun _ => rfl) (fun _ => ⟨rfl, rfl⟩) fun _ _ _ _ => ⟨_, rfl⟩

theorem agree_begun {x y : Run α} (h : Agree (RunState.Apart T J) x y) (i : Instruction) :
    Agree (RunState.Apart T J) x (do beginning i; y) := by
  intro s t hst
  obtain ⟨x', j, d, hx, hj, rfl⟩ := hst.exists_eq
  exact h s ((s.apart x' j d).log (.began i _)) ⟨hx, hj, rfl⟩

theorem agree_catches {x y : Run α} {f g : Except ExecutionError α → Run Unit} {context : String}
    (hx : Agree (RunState.Apart T J) x y)
    (hf : ∀ a, Agree (RunState.Apart T J) (f (.ok a)) (g (.ok a)))
    (herror : ∀ e, f (.error e) = report context e) (herror' : ∀ e, g (.error e) = report context e) :
    Agree (RunState.Apart T J) (outcome x >>= f) (outcome y >>= g) := by
  refine agree_bind (fun s t h => (hx s t h).outcome) fun result => ?_
  cases result with
  | ok a => exact hf a
  | error e =>
    rw [herror, herror']
    exact agree_report context e

theorem EndAlike.guarded (context : String) {x y : Run Unit} {s t : RunState}
    (hx : EndAlike (RunState.Apart T J) (x.run s) (y.run t)) :
    EndAlike (RunState.Apart T J) ((guarded context x).run s) ((guarded context y).run t) := by
  refine hx.outcome.bind fun result => ?_
  cases result with
  | ok _ => exact agree_pure _
  | error e => exact agree_report context e

theorem agree_ended (b : Block) (result : Except ExecutionError Unit) (failure : Option WriterError) :
    Agree (RunState.Apart T J) (Scan.ended b result failure) (Scan.ended b result failure) :=
  Scan.ended_of (P := fun x => Agree (RunState.Apart T J) x x) (agree_pure ()) agree_report
    agree_fail b result failure

section Visits
variable {body : Run Unit} (hJ : ∀ {j k} e, J j k → J (j ++ [e]) (k ++ [e]))
variable (hbody : Agree (RunState.Apart T J) body body)
include hJ hbody

theorem agree_visitBlock (b : Block) :
    Agree (RunState.Apart T J) (Scan.visit body b) (Scan.visit body b) := by
  intro s t h
  rw [Scan.run_visit_ended, Scan.run_visit_ended]
  rcases (hbody _ _ (h.enter hJ (.block b) h.transaction)).cases with
    ⟨hx, hy⟩ | ⟨result, u, v, hx, hy, huv⟩
  · rw [hx, hy]
    exact .none
  · have houtputs : v.outputs = u.outputs := by
      obtain ⟨x, j, d, -, -, rfl⟩ := huv.exists_eq
      rfl
    rw [hx, hy]
    simp only [houtputs]
    exact agree_ended b result _ _ _ (huv.exit hJ .block _ huv.transaction)

theorem agree_visitTransaction (t : Transaction) (hT : ∀ x, T x x) :
    Agree (RunState.Apart T J) (TransactionScope.visit body t) (TransactionScope.visit body t) :=
  fun _ _ h => (hbody _ _ (h.enter hJ (.transaction t) (hT _))).visit (.transaction t) t.cursor_ne_block
    fun _ _ failure huv => huv.exit hJ .transaction failure (hT _)

theorem agree_visitLogEntry (l : LogEntry) :
    Agree (RunState.Apart T J) (LogEntryScope.visit body l) (LogEntryScope.visit body l) :=
  fun _ _ h => (hbody _ _ (h.enter hJ (.logEntry l) h.transaction)).visit (.logEntry l) l.cursor_ne_block
    fun _ _ failure huv => huv.exit hJ .logEntry failure huv.transaction

end Visits

/-- The instructions of a fragment agree with themselves on states whose difference it does not show. -/
theorem inherits_agree {F : Fragment} (hF : F.Overlooks T J) :
    Inherits F fun _ x => Agree (RunState.Apart T J) x x where
  pure := agree_pure
  raise := agree_raise
  fail := agree_fail
  view hread := agree_inView fun s t h => by
    rw [h.toView]
    exact hread _ _ (hF.reads h.transaction)
  look {α f} hblind hf := by
    intro s t h
    have hsame : f t = f s := by
      obtain ⟨x, j, d, -, -, rfl⟩ := h.exists_eq
      exact hblind s x s.outputs s.errors j d
    rw [run_get_bind, run_get_bind, hsame]
    exact hf s s t h
  bind := agree_bind
  catches hx hf herror := agree_catches hx hf herror herror
  beginning i := agree_beginning i i
  note i := agree_apart (fun _ => rfl) (fun _ => ⟨rfl, rfl⟩) fun _ _ _ _ => ⟨_, rfl⟩
  bound bindings := agree_apart (fun _ => rfl) (fun _ => ⟨rfl, rfl⟩) fun _ _ _ _ => ⟨_, rfl⟩
  attached chain := agree_apart (fun _ => rfl) (fun _ => ⟨rfl, rfl⟩) fun _ _ _ _ => ⟨_, rfl⟩
  staged item := by
    intro s t h
    obtain ⟨x, j, d, hx, hj, rfl⟩ := h.exists_eq
    rw [Emission.run_stage, Emission.run_stage, show (s.apart x j d).outputs = s.outputs from rfl]
    cases s.outputs.stage item with
    | ok _ => exact .some ⟨rfl, hx, hF.append _ hj, rfl⟩
    | error e => exact agree_raise _ _ _ h
  moved path := by
    intro s t h
    obtain ⟨x, j, d, hx, hj, rfl⟩ := h.exists_eq
    have hmoved : (s.perform (.moved path)).Apart T J ((s.apart x j d).perform (.moved path)) :=
      ⟨hx, hF.append _ hj, rfl⟩
    rw [Statement.run_setFolder, Statement.run_setFolder,
      show (s.apart x j d).outputs = s.outputs from rfl]
    cases (s.outputs.disk.makeFolders path).2 with
    | none => exact .some ⟨rfl, hmoved⟩
    | some e => exact agree_raise _ _ _ hmoved
  exhausted _ _ := agree_exhausted
  visitBlock b _ hbody := agree_visitBlock hF.append hbody b
  visitTransaction t hfilter hbody := agree_visitTransaction hF.append hbody t (hF.visits hfilter)
  candidates hfilter := agree_inView fun s t h => by
    rw [h.toView, ← hF.candidates hfilter h.transaction]
  visitLogEntry l _ hbody := agree_visitLogEntry hF.append hbody l

/-- Programs whose instructions end alike do so themselves. -/
theorem EndAlike.run? (hJ : ∀ {j k} e, J j k → J (j ++ [e]) (k ++ [e])) {looks : Nat} {p q : Program}
    {s t : RunState} (h : EndAlike (RunState.Apart T J)
      ((Program.executeEach looks p.instructions).run s)
      ((Program.executeEach looks q.instructions).run t)) :
    EndAlike (RunState.Apart T J) (p.run? looks s) (q.run? looks t) := by
  rw [Program.run?, Program.run?, Program.run_execute_ended, Program.run_execute_ended]
  rcases h.cases with ⟨hx, hy⟩ | ⟨result, u, v, hx, hy, huv⟩
  · rw [hx, hy]
    exact .none
  · obtain ⟨x, j, d, hT, hj, rfl⟩ := huv.exists_eq
    rw [hx, hy]
    have hclosed : (u.perform (.closed (failure? result))).Apart T J
        ((u.apart x j d).perform (.closed (failure? result))) := ⟨hT, hJ _ hj, rfl⟩
    cases result with
    | error fatal => exact .some ⟨rfl, hclosed⟩
    | ok _ =>
      show EndAlike _ ((Program.ended (.ok ()) (u.outputs.follow (.closed none)).2).run _)
        ((Program.ended (.ok ()) (u.outputs.follow (.closed none)).2).run _)
      cases (u.outputs.follow (.closed none)).2 with
      | none => exact .some ⟨rfl, hclosed⟩
      | some w => exact agree_raise _ _ _ hclosed

end Apartness

end Run
end ChainQuery
