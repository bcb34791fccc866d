import ChainQuery.Proofs.Execution.Bindings
import ChainQuery.Proofs.Execution.Laws

/-!
# Runs that do the same

Two computations that do the same where the variables are as some predicate says, and leave variables
of which others hold: one if they succeed, one if they fail. Filters do so if their bodies do.
-/

namespace ChainQuery

namespace Run

/-- Where the variables are as `P` says both do the same, and leave them as `Q` says, or as `R` says
when they fail. -/
structure Leads (P Q R : NameMap Value → Prop) (x y : Run α) : Prop where
  same : ∀ s, P s.variables → x.run s = y.run s
  done : ∀ s a t, P s.variables → y.run s = some (.ok a, t) → Q t.variables
  failed : ∀ s e t, P s.variables → y.run s = some (.error e, t) → R t.variables

abbrev Concur (P : NameMap Value → Prop) (x y : Run α) : Prop :=
  Leads P P P x y

section Concurring
variable {P Q R M : NameMap Value → Prop}

theorem Leads.mono {P' Q' R' : NameMap Value → Prop} {x y : Run α} (h : Leads P' Q' R' x y)
    (hP : ∀ m, P m → P' m) (hQ : ∀ m, Q' m → Q m) (hR : ∀ m, R' m → R m) : Leads P Q R x y where
  same s hs := h.same s (hP _ hs)
  done s a t hs hrun := hQ _ (h.done s a t (hP _ hs) hrun)
  failed s e t hs hrun := hR _ (h.failed s e t (hP _ hs) hrun)

theorem leads_bind_of {x y : Run α} {f g : α → Run β} (hx : Leads P M R x y)
    (hf : ∀ s a t, P s.variables → y.run s = some (.ok a, t) → Leads M Q R (f a) (g a)) :
    Leads P Q R (x >>= f) (y >>= g) where
  same := by
    intro s hs
    rw [run_bind, run_bind, hx.same s hs]
    rcases hrun : y.run s with _ | ⟨e | a, u⟩
    · rfl
    · rfl
    · exact (hf s a u hs hrun).same u (hx.done s a u hs hrun)
  done := by
    intro s b t hs h
    rw [run_bind] at h
    rcases hrun : y.run s with _ | ⟨e | a, u⟩
    · rw [hrun] at h
      cases h
    · rw [hrun] at h
      cases h
    · rw [hrun] at h
      exact (hf s a u hs hrun).done u b t (hx.done s a u hs hrun) h
  failed := by
    intro s e t hs h
    rw [run_bind] at h
    rcases hrun : y.run s with _ | ⟨e' | a, u⟩
    · rw [hrun] at h
      cases h
    · rw [hrun] at h
      cases h
      exact hx.failed s e t hs hrun
    · rw [hrun] at h
      exact (hf s a u hs hrun).failed u e t (hx.done s a u hs hrun) h

theorem leads_bind {x y : Run α} {f g : α → Run β} (hx : Leads P M R x y)
    (hf : ∀ a, Leads M Q R (f a) (g a)) : Leads P Q R (x >>= f) (y >>= g) :=
  leads_bind_of hx fun _ a _ _ _ => hf a

theorem leads_of_still {x : Run α} (hPQ : ∀ m, P m → Q m) (hPR : ∀ m, P m → R m)
    (h : ∀ s result t, x.run s = some (result, t) → t.variables = s.variables) :
    Leads P Q R x x where
  same _ _ := rfl
  done := by
    intro s a t hs hrun
    rw [h s _ t hrun]
    exact hPQ _ hs
  failed := by
    intro s e t hs hrun
    rw [h s _ t hrun]
    exact hPR _ hs

theorem concur_of_still {x : Run α}
    (h : ∀ s result t, x.run s = some (result, t) → t.variables = s.variables) : Concur P x x :=
  leads_of_still (fun _ hm => hm) (fun _ hm => hm) h

theorem Concur.leads {x y : Run α} (h : Concur P x y) (hPQ : ∀ m, P m → Q m)
    (hPR : ∀ m, P m → R m) : Leads P Q R x y :=
  h.mono (fun _ hm => hm) hPQ hPR

theorem concur_bind {x y : Run α} {f g : α → Run β} (hx : Concur P x y)
    (hf : ∀ a, Concur P (f a) (g a)) : Concur P (x >>= f) (y >>= g) :=
  leads_bind hx hf

theorem concur_pure (a : α) : Concur P (pure a) (pure a) := by
  apply concur_of_still
  intro s result t h
  cases h
  rfl

theorem concur_exhausted : Concur P (exhausted : Run α) exhausted := by
  apply concur_of_still
  intro s result t h
  cases h

theorem concur_raise (e : ExecutionError) : Concur P (raise e : Run α) (raise e) := by
  apply concur_of_still
  intro s result t h
  cases h
  rfl

theorem concur_ofExcept (e : Except ExecutionError α) : Concur P (ofExcept e) (ofExcept e) := by
  cases e with
  | ok a => exact concur_pure a
  | error e => exact concur_raise e

theorem eq_ok_of_run {e : Except ExecutionError α} {a : α} {s t : RunState}
    (h : (ofExcept e).run s = some (.ok a, t)) : e = .ok a := by
  cases e with
  | error e => cases h
  | ok b =>
    cases h
    rfl

theorem leads_get : Leads P P R (get : Run RunState) get where
  same _ _ := rfl
  done := by
    intro s a t hs h
    cases h
    exact hs
  failed := by
    intro s e t _ h
    cases h

theorem leads_modify {g : RunState → RunState} (hg : ∀ s, P s.variables → Q (g s).variables) :
    Leads P Q R (modify g) (modify g) where
  same _ _ := rfl
  done := by
    intro s a t hs h
    cases h
    exact hg s hs
  failed := by
    intro s e t _ h
    cases h

theorem concur_inView (read : View → Except ExecutionError α) :
    Concur P (inView read) (inView read) :=
  concur_bind leads_get fun _ => concur_ofExcept _

theorem concur_report (context : String) (e : ExecutionError) :
    Concur P (report context e) (report context e) := by
  apply concur_of_still
  intro s result t h
  cases h
  rfl

theorem leads_doing (d : Deed) : Leads P P R (doing d) (doing d) :=
  leads_modify fun _ hs => hs

theorem concur_fail (context : String) (e : ExecutionError) :
    Concur P (fail context e) (fail context e) :=
  concur_bind (leads_doing _) fun _ => concur_report context e

theorem leads_outcome {x y : Run α} (h : Leads P Q Q x y) :
    Leads P Q R (outcome x) (outcome y) where
  same := by
    intro s hs
    rw [run_outcome, run_outcome, h.same s hs]
  done := by
    intro s result t hs hrun
    rw [run_outcome] at hrun
    obtain ⟨⟨e | a, u⟩, hy, hpair⟩ := Option.map_eq_some_iff.mp hrun
    · cases hpair
      exact h.failed s e u hs hy
    · cases hpair
      exact h.done s a u hs hy
  failed := by
    intro s e t _ hrun
    rw [run_outcome] at hrun
    obtain ⟨_, _, hpair⟩ := Option.map_eq_some_iff.mp hrun
    cases hpair

theorem leads_guarded (context : String) {x y : Run Unit} (h : Leads P Q Q x y) :
    Leads P Q Q (guarded context x) (guarded context y) := by
  refine leads_bind (leads_outcome h) fun result => ?_
  cases result with
  | error e => exact concur_report context e
  | ok _ => exact concur_pure _

theorem concur_attached : Concur P attached attached := by
  refine concur_bind leads_get fun s => ?_
  cases s.chain with
  | none => exact concur_raise _
  | some chain => exact concur_pure _

theorem concur_note (i : Inquiry) : Concur P (note i) (note i) := by
  apply concur_of_still
  intro s result t h
  cases h
  rfl

theorem concur_answer (e : Except ChainError α) : Concur P (answer e) (answer e) :=
  concur_ofExcept _

theorem concur_askHead : Concur P askHead askHead :=
  concur_bind concur_attached fun _ => concur_bind (concur_note _) fun _ => concur_answer _

theorem concur_askBlock (number : Nat) : Concur P (askBlock number) (askBlock number) :=
  concur_bind concur_attached fun _ => concur_bind (concur_note _) fun _ => concur_pure _

theorem concur_visiting (e : Element) {x y : Run Unit} (h : Concur P x y) :
    Concur P (visiting e x) (visiting e y) := by
  have henter : ∀ s : RunState, (s.enter e).variables = s.variables := by
    intro s
    cases e <;> rfl
  have hleave : ∀ (s : RunState) c failure, (s.leave c failure).variables = s.variables := by
    intro s c failure
    cases c <;> rfl
  refine concur_bind (leads_modify fun s hs => ?_) fun _ =>
    concur_bind (leads_outcome h) fun result =>
      concur_bind (leads_modify fun s hs => ?_) fun _ => concur_pure _
  · rw [henter]
    exact hs
  · rw [hleave]
    exact hs

theorem concur_tryOutputs (change : Outputs → Outputs × Option WriterError) :
    Concur P (tryOutputs change) (tryOutputs change) := by
  apply concur_of_still
  intro s result t h
  cases h
  rfl

theorem concur_resume (result : Except ExecutionError α) :
    Concur P (resume result) (resume result) := by
  apply concur_of_still
  intro s r t h
  cases h
  rfl

end Concurring

end Run

section Scanning
variable {P : NameMap Value → Prop}

theorem Bound.concur_resolve (b : Bound) : Run.Concur P b.resolve b.resolve := by
  cases b with
  | number t =>
    refine Run.concur_bind (Run.concur_inView _) fun v => ?_
    cases v with
    | null => exact Run.concur_pure _
    | _ => exact Run.concur_bind (Run.concur_ofExcept _) fun _ => Run.concur_pure _
  | earliest => exact Run.concur_pure _
  | _ => exact Run.concur_bind Run.concur_askHead fun _ => Run.concur_pure _

theorem Bound.concur_resolveFirst (b : Bound) : Run.Concur P b.resolveFirst b.resolveFirst := by
  refine Run.concur_bind b.concur_resolve fun number => ?_
  cases number with
  | none => exact Run.concur_raise _
  | some n => exact Run.concur_pure _

theorem Limit.concur_keepsGoing (l : Limit) (number : Nat) :
    Run.Concur P (l.keepsGoing number) (l.keepsGoing number) := by
  cases l with
  | never => exact Run.concur_pure _
  | fixed last => exact Run.concur_pure _
  | pending b => exact Run.concur_bind b.concur_resolve fun _ => Run.concur_pure _

variable {x y : Run Unit} (h : Run.Concur P x y)
include h

theorem Scan.concur_visit (b : Block) : Run.Concur P (visit x b) (visit y b) := by
  refine Run.concur_bind (Run.concur_visiting (.block b) h) fun result => ?_
  cases result with
  | ok _ =>
    refine Run.concur_bind (Run.concur_tryOutputs _) fun failure => ?_
    cases failure with
    | none => exact Run.concur_pure _
    | some e => exact Run.concur_fail _ _
  | error e => exact Run.concur_bind (Run.leads_modify fun _ hs => hs) fun _ => Run.concur_report _ _

theorem Scan.concur_look (number : Nat) : Run.Concur P (look x number) (look y number) := by
  refine Run.concur_bind (Run.concur_askBlock number) fun answer => ?_
  rcases answer with e | _ | b
  · exact Run.concur_fail _ _
  · exact Run.concur_fail _ _
  · exact Scan.concur_visit h b

theorem Scan.concur_walk (number count : Nat) :
    Run.Concur P (walk x number count) (walk y number count) := by
  induction count generalizing number with
  | zero => exact Run.concur_pure _
  | succ count ih =>
    refine Run.concur_bind Run.leads_get fun s => ?_
    split
    · exact Run.concur_pure _
    · exact Run.concur_bind (Scan.concur_look h number) fun _ => ih (number + 1)

theorem Scan.concur_follow (number looks : Nat) :
    Run.Concur P (follow x number looks) (follow y number looks) := by
  induction looks generalizing number with
  | zero => exact Run.concur_exhausted
  | succ looks ih =>
    refine Run.concur_bind Run.leads_get fun s => ?_
    split
    · exact Run.concur_pure _
    · refine Run.concur_bind (Run.concur_askBlock number) fun answer => ?_
      rcases answer with e | _ | b
      · exact Run.concur_bind (Run.concur_fail _ _) fun _ => ih number
      · exact ih number
      · refine Run.concur_bind (Scan.concur_visit h b) fun _ => ?_
        split
        · exact ih (number + 1)
        · exact Run.concur_pure _

theorem Scan.concur_run (looks : Nat) (range : BlockRange) :
    Run.Concur P (run looks range x) (run looks range y) := by
  refine Run.concur_bind range.first.concur_resolveFirst fun first => ?_
  refine Run.concur_bind Run.leads_get fun s => ?_
  split
  · exact Run.concur_pure _
  · refine Run.concur_bind (Limit.concur_keepsGoing _ first) fun going => ?_
    obtain ⟨goes, limit⟩ := going
    cases goes with
    | false => exact Run.concur_pure _
    | true =>
      rcases hknown : limit.known? with _ | _ | last
      · simpa [hknown] using Scan.concur_follow h first looks
      · simpa [hknown] using Scan.concur_follow h first looks
      · simpa [hknown] using Run.concur_bind (Scan.concur_look h first) fun _ =>
          Scan.concur_walk h (first + 1) (last - first)

end Scanning

theorem ContractScope.concur_callAll {P : NameMap Value → Prop} (chain : ChainSource)
    (contract : String) (block : Option Nat) (calls : List (ContractRead × List UInt8)) :
    Run.Concur P (callAll chain contract block calls) (callAll chain contract block calls) := by
  induction calls with
  | nil => exact Run.concur_pure _
  | cons call calls ih =>
    exact Run.concur_bind (Run.concur_note _) fun _ => Run.concur_bind ih fun _ => Run.concur_pure _

section Visiting
variable {P : NameMap Value → Prop} {x y : Run Unit} (h : Run.Concur P x y)
include h

theorem TransactionScope.concur_visitAll (senders recipients : AddressCriterion)
    (ts : List Transaction) :
    Run.Concur P (visitAll senders recipients x ts) (visitAll senders recipients y ts) := by
  induction ts with
  | nil => exact Run.concur_pure _
  | cons t ts ih =>
    refine Run.concur_bind (Run.leads_guarded _ ?_) fun _ => ih
    refine Run.concur_bind (Run.concur_inView _) fun passes => ?_
    split
    · exact Run.concur_bind (Run.concur_visiting _ h) fun _ => Run.concur_resume _
    · exact Run.concur_pure _

theorem LogEntryScope.concur_visitAll (contracts : AddressCriterion)
    (signature : Option EventSignature)
    (hbind : ∀ bindings : List (String × Value),
      (∀ b ∈ bindings, b.1 ∈ (Filter.logEntries contracts signature).bound) →
        ∀ «variables», P «variables» → P («variables».setAll bindings))
    (ls : List LogEntry) :
    Run.Concur P (visitAll contracts signature x ls) (visitAll contracts signature y ls) := by
  induction ls with
  | nil => exact Run.concur_pure _
  | cons l ls ih =>
    have hbound : Run.Concur P (bind signature l) (bind signature l) := by
      cases signature with
      | none => exact Run.concur_pure _
      | some e =>
        refine Run.leads_bind_of (Run.concur_ofExcept _) fun s bindings t _ hrun => ?_
        refine Run.leads_modify fun s hs => hbind bindings ?_ _ hs
        intro b hb
        rw [Filter.bound, ← EventSignature.decode_names (Run.eq_ok_of_run hrun)]
        exact List.mem_map_of_mem hb
    refine Run.concur_bind (Run.leads_guarded _ ?_) fun _ => ih
    refine Run.concur_bind (Run.concur_inView _) fun accepted => ?_
    split
    · split
      · exact Run.concur_bind hbound fun _ =>
          Run.concur_bind (Run.concur_visiting _ h) fun _ => Run.concur_resume _
      · exact Run.concur_pure _
    · exact Run.concur_pure _

end Visiting

/-- A filter that may run its body more than once. -/
def Filter.repeats : Filter → Bool
  | contract _ _ => false
  | condition _ => false
  | _ => true

section Filtering
variable {P Q R : NameMap Value → Prop} {x y : Run Unit}

theorem ContractScope.leads_run (hPQ : ∀ m, P m → Q m) (hPR : ∀ m, P m → R m)
    (h : Run.Leads P Q R x y) (address : Term) (reads : List ContractRead)
    (hbind : ∀ bindings : List (String × Value),
      (∀ b ∈ bindings, b.1 ∈ (Filter.contract address reads).bound) →
        ∀ «variables», P «variables» → P («variables».setAll bindings)) :
    Run.Leads P Q R (run address reads x) (run address reads y) := by
  have hsame : ∀ m, P m → P m := fun _ hm => hm
  refine Run.leads_bind ((Run.concur_inView _).leads hsame hPR) fun contract => ?_
  refine Run.leads_bind (Run.leads_outcome (Run.concur_inView _)) fun data => ?_
  cases data with
  | error e => exact (Run.concur_report _ _).leads hPQ hPR
  | ok data =>
    refine Run.leads_bind (Run.concur_attached.leads hsame hPR) fun chain => ?_
    refine Run.leads_bind Run.leads_get fun s => ?_
    refine Run.leads_bind_of ((concur_callAll _ _ _ _).leads hsame hPR) fun u results v _ hrun => ?_
    cases hall : results.mapM id with
    | error e => exact (Run.concur_fail _ _).leads hPQ hPR
    | ok bindings =>
      refine Run.leads_bind (Run.leads_modify fun u hu => hbind bindings.flatten ?_ _ hu) fun _ => h
      intro b hb
      obtain ⟨some, hmem, hb⟩ := List.mem_flatten.mp hb
      rw [except_mapM_id_eq_ok] at hall
      rw [hall] at hrun
      have hname := callAll_names hrun some (List.mem_map_of_mem hmem) b hb
      obtain ⟨call, hcall, hname⟩ := List.mem_flatMap.mp hname
      exact List.mem_flatMap.mpr ⟨call.1, (List.of_mem_zip hcall).1, hname⟩

/-- A filter leads where its body leads, if the names that it binds may take any values and if the
body may start again where it has ended, unless it runs once at most. -/
theorem Filter.leads_run (looks : Nat) (f : Filter) (hPQ : ∀ m, P m → Q m) (hPR : ∀ m, P m → R m)
    (h : Run.Leads P Q R x y)
    (hagain : f.repeats = true → (∀ m, Q m → P m) ∧ ∀ m, R m → P m)
    (hbind : ∀ bindings : List (String × Value), (∀ b ∈ bindings, b.1 ∈ f.bound) →
      ∀ «variables», P «variables» → P («variables».setAll bindings)) :
    Run.Leads P Q R (f.run looks x) (f.run looks y) := by
  have hsame : ∀ m, P m → P m := fun _ hm => hm
  have hbody : f.repeats = true → Run.Concur P x y := fun hf =>
    h.mono hsame (hagain hf).1 (hagain hf).2
  cases f with
  | blocks range => exact (Scan.concur_run (hbody rfl) looks range).leads hPQ hPR
  | transactions senders recipients =>
    refine Run.Concur.leads ?_ hPQ hPR
    refine Run.concur_bind Run.leads_get fun s => ?_
    cases s.block with
    | none => exact Run.concur_raise _
    | some b => exact TransactionScope.concur_visitAll (hbody rfl) senders recipients b.transactions
  | logEntries contracts signature =>
    refine Run.Concur.leads ?_ hPQ hPR
    refine Run.concur_bind (Run.concur_inView _) fun ls => ?_
    exact LogEntryScope.concur_visitAll (hbody rfl) contracts signature hbind ls
  | contract address reads => exact ContractScope.leads_run hPQ hPR h address reads hbind
  | condition predicate =>
    refine Run.leads_bind ((Run.concur_inView _).leads hsame hPR) fun holds => ?_
    split
    · exact h
    · exact (Run.concur_pure _).leads hPQ hPR

end Filtering

section Statements
variable {P : NameMap Value → Prop}

theorem Emission.concur_execute (e : Emission) : Run.Concur P e.execute e.execute := by
  refine Run.concur_bind (Run.concur_inView _) fun item => ?_
  apply Run.concur_of_still
  intro s result t h
  rw [Emission.run_stage] at h
  cases hstage : s.outputs.stage item with
  | error e =>
    rw [hstage] at h
    cases h
    rfl
  | ok o =>
    rw [hstage] at h
    cases h
    rfl

theorem Statement.concur_setFolder (path : String) :
    Run.Concur P (setFolder path) (setFolder path) := by
  apply Run.concur_of_still
  intro s result t h
  rw [Statement.run_setFolder] at h
  rcases hmake : (s.outputs.disk.makeFolders path).2 with _ | e
  · rw [hmake] at h
    cases h
    rfl
  · rw [hmake] at h
    cases h
    rfl

theorem Statement.concur_connect (url : String) : Run.Concur P (connect url) (connect url) := by
  refine Run.concur_bind Run.leads_get fun s => ?_
  cases s.connector with
  | none => exact Run.concur_bind Run.concur_attached fun _ => Run.concur_pure _
  | some connector =>
    refine Run.concur_bind (Run.concur_note _) fun before => ?_
    exact Run.concur_bind (Run.concur_answer _) fun chain => Run.leads_modify fun _ hs => hs

end Statements
end ChainQuery
