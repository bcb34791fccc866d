import ChainQuery.Execution.Program
import ChainQuery.Proofs.Output.Replay

/-!
# Relations that a run keeps

Which relations between the state before a step and the state after it are kept by the steps that
scans and filters are made of. The only changes that such a step makes by itself are quiet ones; what
a visit does to the outputs and the cursors is up to the relation.
-/

namespace ChainQuery

namespace RunState

/-- Nothing happens to the cursors, the outputs and the journal. -/
structure Quiet (s t : RunState) : Prop where
  block : t.block = s.block
  transaction : t.transaction = s.transaction
  logEntry : t.logEntry = s.logEntry
  outputs : t.outputs = s.outputs
  journal : t.journal = s.journal

theorem Quiet.refl (s : RunState) : s.Quiet s := ⟨rfl, rfl, rfl, rfl, rfl⟩

def perform (s : RunState) (e : JournalEntry) : RunState :=
  { s.record e with outputs := (s.outputs.follow e).1 }

def exit (s : RunState) (c : Cursor) (failure : Option ExecutionError) : RunState :=
  { s.leave c failure with outputs := (s.outputs.follow (.left c failure)).1 }

end RunState

namespace Run

/-- A step leads only to states that stand in a relation to the state before. -/
def Keeps (R : RunState → RunState → Prop) (x : Run α) : Prop :=
  ∀ s result t, x.run s = some (result, t) → R s t

structure Chains (R : RunState → RunState → Prop) : Prop where
  quiet : ∀ {s t}, s.Quiet t → R s t
  trans : ∀ {s t u}, R s t → R t u → R s u

theorem run_bind (x : Run α) (f : α → Run β) (s : RunState) :
    (x >>= f).run s = match x.run s with
      | some (.ok a, t) => (f a).run t
      | some (.error e, t) => some (.error e, t)
      | none => none := by
  show (x.run s).bind (fun p => ExceptT.bindCont f p.1 p.2) = _
  rcases x.run s with _ | ⟨e | a, t⟩
  · rfl
  · rfl
  · rfl

theorem run_get_bind (f : RunState → Run β) (s : RunState) : (get >>= f).run s = (f s).run s := rfl

theorem run_modify_bind (g : RunState → RunState) (f : PUnit → Run β) (s : RunState) :
    (modify g >>= f).run s = (f ⟨⟩).run (g s) := rfl

theorem run_outcome (x : Run α) (s : RunState) :
    (outcome x).run s = (x.run s).map fun p => (.ok p.1, p.2) := by
  show (x.run s).bind (fun p => some (Except.ok p.1, p.2)) = _
  rcases x.run s with _ | p
  · rfl
  · rfl

theorem run_visiting (e : Element) (body : Run Unit) (s : RunState) :
    (visiting e body).run s = (body.run (s.enter e)).map fun p =>
      (.ok p.1, p.2.leave e.cursor (failure? p.1)) := by
  rw [visiting, run_modify_bind, run_bind, run_outcome]
  rcases body.run (s.enter e) with _ | ⟨result, t⟩
  · rfl
  · rfl

section Chained
variable {R : RunState → RunState → Prop}

theorem Keeps.bind {x : Run α} {f : α → Run β} (hx : Keeps R x)
    (htrans : ∀ {s t u}, R s t → R t u → R s u) (hf : ∀ a, Keeps R (f a)) : Keeps R (x >>= f) := by
  intro s result t h
  rw [run_bind] at h
  rcases hrun : x.run s with _ | ⟨e | a, u⟩
  · rw [hrun] at h
    cases h
  · rw [hrun] at h
    cases h
    exact hx s _ _ hrun
  · rw [hrun] at h
    exact htrans (hx s _ _ hrun) (hf a u _ _ h)

theorem keeps_exhausted : Keeps R (exhausted : Run α) := by
  intro s result t h
  cases h

theorem keeps_outcome {x : Run α} (hx : Keeps R x) : Keeps R (outcome x) := by
  intro s result t h
  rw [run_outcome] at h
  obtain ⟨⟨result', t'⟩, hrun, heq⟩ := Option.map_eq_some_iff.mp h
  cases heq
  exact hx s _ _ hrun

variable (hR : Chains R)
include hR

theorem keeps_pure (a : α) : Keeps R (pure a) := by
  intro s result t h
  cases h
  exact hR.quiet (.refl s)

theorem keeps_raise (e : ExecutionError) : Keeps R (raise e : Run α) := by
  intro s result t h
  cases h
  exact hR.quiet ⟨rfl, rfl, rfl, rfl, rfl⟩

theorem keeps_ofExcept (e : Except ExecutionError α) : Keeps R (ofExcept e) := by
  cases e with
  | ok a => exact keeps_pure hR a
  | error e => exact keeps_raise hR e

theorem keeps_get : Keeps R (get : Run RunState) := by
  intro s result t h
  cases h
  exact hR.quiet (.refl s)

theorem keeps_modify {g : RunState → RunState} (hg : ∀ s : RunState, s.Quiet (g s)) :
    Keeps R (modify g) := by
  intro s result t h
  cases h
  exact hR.quiet (hg s)

theorem keeps_bind {x : Run α} {f : α → Run β} (hx : Keeps R x) (hf : ∀ a, Keeps R (f a)) :
    Keeps R (x >>= f) :=
  hx.bind hR.trans hf

theorem keeps_inView (read : View → Except ExecutionError α) : Keeps R (inView read) :=
  keeps_bind hR (keeps_get hR) fun _ => keeps_ofExcept hR _

theorem keeps_report (context : String) (e : ExecutionError) : Keeps R (report context e) := by
  intro s result t h
  cases h
  exact hR.quiet ⟨rfl, rfl, rfl, rfl, rfl⟩

theorem keeps_doing (d : Deed) : Keeps R (doing d) :=
  keeps_modify hR fun _ => ⟨rfl, rfl, rfl, rfl, rfl⟩

theorem keeps_fail (context : String) (e : ExecutionError) : Keeps R (fail context e) :=
  keeps_bind hR (keeps_doing hR _) fun _ => keeps_report hR context e

theorem keeps_guarded (context : String) {x : Run Unit} (hx : Keeps R x) :
    Keeps R (guarded context x) := by
  refine keeps_bind hR (keeps_outcome hx) fun result => ?_
  cases result with
  | error e => exact keeps_report hR context e
  | ok _ => exact keeps_pure hR _

theorem keeps_attached : Keeps R attached := by
  refine keeps_bind hR (keeps_get hR) fun s => ?_
  cases s.chain with
  | none => exact keeps_raise hR _
  | some chain => exact keeps_pure hR _

theorem keeps_note (i : Inquiry) : Keeps R (note i) := by
  intro s result t h
  cases h
  exact hR.quiet ⟨rfl, rfl, rfl, rfl, rfl⟩

theorem keeps_answer (e : Except ChainError α) : Keeps R (answer e) :=
  keeps_ofExcept hR _

theorem keeps_askHead : Keeps R askHead :=
  keeps_bind hR (keeps_attached hR) fun _ =>
    keeps_bind hR (keeps_note hR _) fun _ => keeps_answer hR _

theorem keeps_askBlock (number : Nat) : Keeps R (askBlock number) :=
  keeps_bind hR (keeps_attached hR) fun _ =>
    keeps_bind hR (keeps_note hR _) fun _ => keeps_pure hR _

end Chained

end Run

section Scanning
variable {R : RunState → RunState → Prop} (hR : Run.Chains R)
include hR

theorem Bound.keeps_resolve (b : Bound) : Run.Keeps R b.resolve := by
  cases b with
  | number t =>
    refine Run.keeps_bind hR (Run.keeps_inView hR _) fun v => ?_
    cases v with
    | null => exact Run.keeps_pure hR _
    | _ => exact Run.keeps_bind hR (Run.keeps_ofExcept hR _) fun _ => Run.keeps_pure hR _
  | earliest => exact Run.keeps_pure hR _
  | _ => exact Run.keeps_bind hR (Run.keeps_askHead hR) fun _ => Run.keeps_pure hR _

theorem Bound.keeps_resolveFirst (b : Bound) : Run.Keeps R b.resolveFirst := by
  refine Run.keeps_bind hR (b.keeps_resolve hR) fun number => ?_
  cases number with
  | none => exact Run.keeps_raise hR _
  | some n => exact Run.keeps_pure hR _

theorem Limit.keeps_keepsGoing (l : Limit) (number : Nat) : Run.Keeps R (l.keepsGoing number) := by
  cases l with
  | never => exact Run.keeps_pure hR _
  | fixed last => exact Run.keeps_pure hR _
  | pending b => exact Run.keeps_bind hR (b.keeps_resolve hR) fun _ => Run.keeps_pure hR _

section Visits
variable {body : Run Unit} (hvisit : ∀ b, Run.Keeps R (Scan.visit body b))
include hvisit

theorem Scan.keeps_look (number : Nat) : Run.Keeps R (Scan.look body number) := by
  refine Run.keeps_bind hR (Run.keeps_askBlock hR number) fun answer => ?_
  rcases answer with e | _ | b
  · exact Run.keeps_fail hR _ _
  · exact Run.keeps_fail hR _ _
  · exact hvisit b

theorem Scan.keeps_walk (number count : Nat) : Run.Keeps R (Scan.walk body number count) := by
  induction count generalizing number with
  | zero => exact Run.keeps_pure hR _
  | succ count ih =>
    refine Run.keeps_bind hR (Run.keeps_get hR) fun s => ?_
    split
    · exact Run.keeps_pure hR _
    · exact Run.keeps_bind hR (Scan.keeps_look hR hvisit number) fun _ => ih (number + 1)

theorem Scan.keeps_follow (number looks : Nat) : Run.Keeps R (Scan.follow body number looks) := by
  induction looks generalizing number with
  | zero => exact Run.keeps_exhausted
  | succ looks ih =>
    refine Run.keeps_bind hR (Run.keeps_get hR) fun s => ?_
    split
    · exact Run.keeps_pure hR _
    · refine Run.keeps_bind hR (Run.keeps_askBlock hR number) fun answer => ?_
      rcases answer with e | _ | b
      · exact Run.keeps_bind hR (Run.keeps_fail hR _ _) fun _ => ih number
      · exact ih number
      · refine Run.keeps_bind hR (hvisit b) fun _ => ?_
        split
        · exact ih (number + 1)
        · exact Run.keeps_pure hR _

theorem Scan.keeps_run (looks : Nat) (range : BlockRange) :
    Run.Keeps R (Scan.run looks range body) := by
  refine Run.keeps_bind hR (range.first.keeps_resolveFirst hR) fun first => ?_
  refine Run.keeps_bind hR (Run.keeps_get hR) fun s => ?_
  split
  · exact Run.keeps_pure hR _
  · refine Run.keeps_bind hR (Limit.keeps_keepsGoing hR _ first) fun going => ?_
    obtain ⟨goes, limit⟩ := going
    cases goes with
    | false => exact Run.keeps_pure hR _
    | true =>
      rcases hknown : limit.known? with _ | _ | last
      · simpa [hknown] using Scan.keeps_follow hR hvisit first looks
      · simpa [hknown] using Scan.keeps_follow hR hvisit first looks
      · simpa [hknown] using Run.keeps_bind hR (Scan.keeps_look hR hvisit first) fun _ =>
          Scan.keeps_walk hR hvisit (first + 1) (last - first)

end Visits
end Scanning

def Filter.cursor? : Filter → Option Cursor
  | blocks _ => some .block
  | transactions _ _ => some .transaction
  | logEntries _ _ => some .logEntry
  | _ => none

section Visiting
variable {R S : RunState → RunState → Prop} (hR : Run.Chains R) {body : Run Unit}
variable (hbody : Run.Keeps S body)

theorem Scan.run_visit (body : Run Unit) (b : Block) (s : RunState) :
    (visit body b).run s = match body.run (s.enter (.block b)) with
      | none => none
      | some (.ok _, t) =>
        match t.outputs.endBlock.2 with
        | none => some (.ok (), t.exit .block none)
        | some e => (Run.fail (context b.number) (.writer e)).run (t.exit .block none)
      | some (.error e, t) => (Run.report (context b.number) e).run (t.exit .block (some e)) := by
  rw [visit, Run.run_bind, Run.run_visiting]
  rcases body.run (s.enter (.block b)) with _ | ⟨e | _, t⟩
  · rfl
  · rfl
  · -- the outputs are ended after the cursor is cleared, which does not touch them
    have hend : ∀ failure, t.outputs.endBlock.2 = failure →
        (Run.tryOutputs Outputs.endBlock).run (t.leave .block none) =
          some (.ok failure, t.exit .block none) := by
      intro failure hfailure
      subst hfailure
      rfl
    show (Run.tryOutputs Outputs.endBlock >>= _).run (t.leave .block none) = _
    rw [Run.run_bind]
    rcases hfailure : t.outputs.endBlock.2 with _ | e
    · simp only [hend _ hfailure, hfailure]
      rfl
    · simp only [hend _ hfailure, hfailure]

include hR hbody in
theorem Scan.keeps_visit (b : Block)
    (hexit : ∀ s t failure, S (s.enter (.block b)) t → R s (t.exit .block failure)) :
    Run.Keeps R (Scan.visit body b) := by
  intro s result t h
  rw [Scan.run_visit] at h
  rcases hrun : body.run (s.enter (.block b)) with _ | ⟨e | _, u⟩
  · rw [hrun] at h
    cases h
  · rw [hrun] at h
    exact hR.trans (hexit s u _ (hbody _ _ _ hrun)) (Run.keeps_report hR _ _ _ _ _ h)
  · rw [hrun] at h
    have hu := hexit s u none (hbody _ _ _ hrun)
    rcases hend : u.outputs.endBlock.2 with _ | e
    · simp only [hend] at h
      cases h
      exact hu
    · simp only [hend] at h
      exact hR.trans hu (Run.keeps_fail hR _ _ _ _ _ h)

/-- What is left to do at the end of a visit: what has failed is handled. -/
def Scan.ended (b : Block) :
    Except ExecutionError Unit → Option WriterError → Run Unit
  | .ok _, none => return
  | .ok _, some e => Run.fail (context b.number) (.writer e)
  | .error e, _ => Run.report (context b.number) e

theorem Scan.ended_of {P : Run Unit → Prop} (hpure : P (return))
    (hreport : ∀ context e, P (Run.report context e))
    (hfail : ∀ context e, P (Run.fail context e)) (b : Block)
    (result : Except ExecutionError Unit) (failure : Option WriterError) :
    P (ended b result failure) := by
  cases result with
  | error e => exact hreport _ e
  | ok _ =>
    cases failure with
    | none => exact hpure
    | some e => exact hfail _ _

theorem Scan.run_visit_ended (body : Run Unit) (b : Block) (s : RunState) :
    (visit body b).run s = match body.run (s.enter (.block b)) with
      | none => none
      | some (result, t) =>
        (ended b result (t.outputs.follow (.left .block (Run.failure? result))).2).run
          (t.exit .block (Run.failure? result)) := by
  rw [run_visit]
  rcases body.run (s.enter (.block b)) with _ | ⟨e | _, t⟩
  · rfl
  · rfl
  · show _ = (ended b (.ok ()) t.outputs.endBlock.2).run (t.exit .block none)
    rcases hend : t.outputs.endBlock.2 with _ | w
    · simp only [hend]
      rfl
    · simp only [hend]
      rfl

theorem Scan.keeps_ended {S : RunState → RunState → Prop} (hS : Run.Chains S) (b : Block)
    (result : Except ExecutionError Unit) (failure : Option WriterError) :
    Run.Keeps S (ended b result failure) :=
  ended_of (P := Run.Keeps S) (Run.keeps_pure hS _) (Run.keeps_report hS) (Run.keeps_fail hS) b
    result failure

theorem Transaction.cursor_ne_block (t : Transaction) : (Element.transaction t).cursor ≠ .block :=
  nofun

theorem LogEntry.cursor_ne_block (l : LogEntry) : (Element.logEntry l).cursor ≠ .block :=
  nofun

/-- The outputs follow the end of a visit, whose result is that of its body. -/
theorem Run.run_resume_visiting (e : Element) (he : e.cursor ≠ .block) (body : Run Unit)
    (s : RunState) : (do Run.resume (← Run.visiting e body) : Run Unit).run s =
      (body.run (s.enter e)).map fun p => (p.1, p.2.exit e.cursor (Run.failure? p.1)) := by
  rw [Run.run_bind, Run.run_visiting]
  rcases body.run (s.enter e) with _ | ⟨result, u⟩
  · rfl
  · cases e with
    | block b => exact absurd rfl he
    | transaction _ => rfl
    | logEntry _ => rfl

include hbody in
theorem Run.keeps_visiting (e : Element) (he : e.cursor ≠ .block)
    (hexit : ∀ s t failure, S (s.enter e) t → R s (t.exit e.cursor failure)) :
    Run.Keeps R (do Run.resume (← Run.visiting e body)) := by
  intro s result t h
  rw [Run.run_resume_visiting e he] at h
  obtain ⟨⟨result', u⟩, hrun, heq⟩ := Option.map_eq_some_iff.mp h
  cases heq
  exact hexit s u (Run.failure? result') (hbody _ _ _ hrun)

include hR hbody

theorem TransactionScope.keeps_visitAll (senders recipients : AddressCriterion)
    (ts : List Transaction)
    (hexit : ∀ x ∈ ts, ∀ s t failure, S (s.enter (.transaction x)) t →
      R s (t.exit .transaction failure)) :
    Run.Keeps R (TransactionScope.visitAll senders recipients body ts) := by
  induction ts with
  | nil => exact Run.keeps_pure hR _
  | cons t ts ih =>
    have hrest := ih fun x hx => hexit x (List.mem_cons_of_mem t hx)
    refine Run.keeps_bind hR (Run.keeps_guarded hR _ ?_) fun _ => hrest
    refine Run.keeps_bind hR (Run.keeps_inView hR _) fun passes => ?_
    split
    · exact Run.keeps_visiting hbody (.transaction t) t.cursor_ne_block (hexit t List.mem_cons_self)
    · exact Run.keeps_pure hR _

theorem LogEntryScope.keeps_visitAll (contracts : AddressCriterion)
    (signature : Option EventSignature)
    (hexit : ∀ x s t failure, S (s.enter (.logEntry x)) t → R s (t.exit .logEntry failure))
    (ls : List LogEntry) :
    Run.Keeps R (LogEntryScope.visitAll contracts signature body ls) := by
  induction ls with
  | nil => exact Run.keeps_pure hR _
  | cons l ls ih =>
    have hbind : Run.Keeps R (LogEntryScope.bind signature l) := by
      cases signature with
      | none => exact Run.keeps_pure hR _
      | some e =>
        refine Run.keeps_bind hR (Run.keeps_ofExcept hR _) fun bindings => ?_
        exact Run.keeps_modify hR fun _ => ⟨rfl, rfl, rfl, rfl, rfl⟩
    refine Run.keeps_bind hR (Run.keeps_guarded hR _ ?_) fun _ => ih
    refine Run.keeps_bind hR (Run.keeps_inView hR _) fun accepted => ?_
    split
    · split
      · exact Run.keeps_bind hR hbind fun _ =>
          Run.keeps_visiting hbody (.logEntry l) l.cursor_ne_block (hexit l)
      · exact Run.keeps_pure hR _
    · exact Run.keeps_pure hR _

omit hbody in
theorem ContractScope.keeps_callAll (chain : ChainSource) (contract : String) (block : Option Nat)
    (calls : List (ContractRead × List UInt8)) :
    Run.Keeps R (ContractScope.callAll chain contract block calls) := by
  induction calls with
  | nil => exact Run.keeps_pure hR _
  | cons call calls ih =>
    refine Run.keeps_bind hR (Run.keeps_note hR _) fun before => ?_
    exact Run.keeps_bind hR ih fun results => Run.keeps_pure hR _

theorem ContractScope.keeps_run (address : Term) (reads : List ContractRead)
    (hsame : ∀ s t, S s t → R s t) : Run.Keeps R (ContractScope.run address reads body) := by
  refine Run.keeps_bind hR (Run.keeps_inView hR _) fun contract => ?_
  refine Run.keeps_bind hR (Run.keeps_outcome (Run.keeps_inView hR _)) fun data => ?_
  cases data with
  | error e => exact Run.keeps_report hR _ _
  | ok data =>
    refine Run.keeps_bind hR (Run.keeps_attached hR) fun chain => ?_
    refine Run.keeps_bind hR (Run.keeps_get hR) fun s => ?_
    refine Run.keeps_bind hR (ContractScope.keeps_callAll hR _ _ _ _) fun results => ?_
    cases results.mapM id with
    | error e => exact Run.keeps_fail hR _ _
    | ok bindings =>
      refine Run.keeps_bind hR (Run.keeps_modify hR fun _ => ⟨rfl, rfl, rfl, rfl, rfl⟩) fun _ => ?_
      intro s result t h
      exact hsame s t (hbody s result t h)

/-- A filter keeps a relation if the visits of its elements do, or its body when it visits none. -/
theorem Filter.keeps_run (looks : Nat) (f : Filter)
    (hexit : ∀ e : Element, f.cursor? = some e.cursor → ∀ s t failure, S (s.enter e) t →
      R s (t.exit e.cursor failure))
    (hsame : f.cursor? = none → ∀ s t, S s t → R s t) : Run.Keeps R (f.run looks body) := by
  cases f with
  | blocks range =>
    exact Scan.keeps_run hR (fun b => Scan.keeps_visit hR hbody b (hexit (.block b) rfl)) looks range
  | transactions senders recipients =>
    refine Run.keeps_bind hR (Run.keeps_get hR) fun s => ?_
    cases s.block with
    | none => exact Run.keeps_raise hR _
    | some b =>
      exact TransactionScope.keeps_visitAll hR hbody senders recipients b.transactions
        fun x _ => hexit (.transaction x) rfl
  | logEntries contracts signature =>
    refine Run.keeps_bind hR (Run.keeps_inView hR _) fun ls => ?_
    exact LogEntryScope.keeps_visitAll hR hbody contracts signature
      (fun x => hexit (.logEntry x) rfl) ls
  | contract address reads => exact ContractScope.keeps_run hR hbody address reads (hsame rfl)
  | condition predicate =>
    refine Run.keeps_bind hR (Run.keeps_inView hR _) fun holds => ?_
    split
    · intro s result t h
      exact hsame rfl s t (hbody s result t h)
    · exact Run.keeps_pure hR _

end Visiting

end ChainQuery
