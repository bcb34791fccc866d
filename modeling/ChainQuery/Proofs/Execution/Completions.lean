import ChainQuery.Proofs.Execution.ContractReads
import Mathlib.Data.List.Nodup
import Mathlib.Data.List.Perm.Basic
import Mathlib.Logic.Relation

/-!
# Reads of a contract in any order

The calls of a filter may be completed in any order. Each step towards their completion answers one
call that waits, and if the chain always gives the same answer to the same call, the answers that the
calls have or will have stay the same in every step. So the results depend neither on the order of
the steps nor on the order of the reads, but for their places. Since all of them are bound at once,
to names of which no two are the same, the variables do not depend on it either.
-/

namespace ChainQuery

theorem NameMap.setAll_perm {bindings bindings' : List (String × α)}
    (h : bindings.Perm bindings') (hnodup : (bindings.map Prod.fst).Nodup) (m : NameMap α) :
    m.setAll bindings = m.setAll bindings' := by
  refine h.foldl_eq' (fun b hb c hc m => ?_) m
  by_cases hname : b.1 = c.1
  · rw [List.inj_on_of_nodup_map hnodup hb hc hname]
  · refine ext_get? fun name => ?_
    simp only [get?_set]
    split
    · next hc =>
      subst hc
      rw [if_neg hname]
    · rfl

theorem exists_perm_map {f : α → β} {as : List α} {bs : List β} (h : bs.Perm (as.map f)) :
    ∃ as' : List α, as'.Perm as ∧ as'.map f = bs := by
  have hmap : List.Forall₂ (fun b a => b = f a) (as.map f) as := by
    rw [List.forall₂_map_left_iff]
    exact List.forall₂_same.mpr fun _ _ => rfl
  obtain ⟨as', has', hperm⟩ := List.perm_comp_forall₂ h hmap
  refine ⟨as', hperm, ?_⟩
  rw [← List.forall₂_eq_eq_eq, List.forall₂_map_left_iff]
  exact has'.flip.imp fun _ _ => Eq.symm

/-- The answer to a call does not depend on what has been asked before. -/
def ChainSource.Timeless (chain : ChainSource) : Prop :=
  ∀ before before' contract data block,
    chain.call before contract data block = chain.call before' contract data block

namespace ContractScope

/-- A call that waits for its answer or has it. -/
inductive Slot where
  | waiting (call : ContractRead × List UInt8)
  | answered (result : Except ExecutionError (List (String × Value)))

/-- One of the calls that wait is answered next, whichever. -/
inductive Answers (chain : ChainSource) (contract : String) (block : Option Nat) :
    RunState × List Slot → RunState × List Slot → Prop where
  | next (s : RunState) (earlier later : List Slot) (call : ContractRead × List UInt8) :
      Answers chain contract block (s, earlier ++ .waiting call :: later)
        (s.note (.call contract call.2 block),
          earlier ++ .answered (answer chain contract block s.asked call) :: later)

/-- A way to make calls that answers each of them once, in some order. -/
def Completes (schedule : Schedule) : Prop :=
  ∀ chain contract block calls s, ∃ results t,
    (schedule chain contract block calls).run s = some (.ok results, t) ∧
    Relation.ReflTransGen (Answers chain contract block)
      (s, calls.map .waiting) (t, results.map .answered)

section
variable {chain : ChainSource} {contract : String} {block : Option Nat}

theorem Answers.cons (slot : Slot) {p q : RunState × List Slot} (h : Answers chain contract block p q) :
    Answers chain contract block (p.1, slot :: p.2) (q.1, slot :: q.2) := by
  cases h with
  | next s earlier later call => exact .next s (slot :: earlier) later call

theorem completed_cons (slot : Slot) {s t : RunState} {slots slots' : List Slot}
    (h : Relation.ReflTransGen (Answers chain contract block) (s, slots) (t, slots')) :
    Relation.ReflTransGen (Answers chain contract block) (s, slot :: slots) (t, slot :: slots') :=
  h.lift (fun p => (p.1, slot :: p.2)) fun _ _ => Answers.cons slot

theorem completes_callAll : Completes callAll := by
  intro chain contract block calls s
  refine ⟨_, _, run_callAll chain contract block calls s, ?_⟩
  induction calls generalizing s with
  | nil => exact .refl
  | cons call calls ih =>
    exact .head (.next s [] (calls.map .waiting) call) (completed_cons _ (ih _))

theorem Answers.inquires {p q : RunState × List Slot} (h : Answers chain contract block p q) :
    p.1.Inquires q.1 := by
  cases h with
  | next s earlier later call => exact .note s _

/-- The result that a call has, or will have whenever it is answered. -/
def Slot.result (chain : ChainSource) (contract : String) (block : Option Nat) :
    Slot → Except ExecutionError (List (String × Value))
  | waiting call => answer chain contract block [] call
  | answered result => result

theorem answer_of_timeless (hchain : chain.Timeless) (before : History)
    (call : ContractRead × List UInt8) :
    answer chain contract block before call = answer chain contract block [] call := by
  rw [answer, answer, hchain before [] contract call.2 block]

theorem Answers.results (hchain : chain.Timeless) {p q : RunState × List Slot}
    (h : Answers chain contract block p q) :
    q.2.map (Slot.result chain contract block) = p.2.map (Slot.result chain contract block) := by
  cases h with
  | next s earlier later call =>
    simp only [List.map_append, List.map_cons, Slot.result, answer_of_timeless hchain s.asked]

/-- However many calls have been answered, the results that all of them have in the end are the same. -/
theorem answers_kept (hchain : chain.Timeless) {p q : RunState × List Slot}
    (h : Relation.ReflTransGen (Answers chain contract block) p q) :
    p.1.Inquires q.1 ∧
      q.2.map (Slot.result chain contract block) = p.2.map (Slot.result chain contract block) := by
  induction h with
  | refl => exact ⟨.refl p.1, rfl⟩
  | tail _ hstep ih => exact ⟨ih.1.trans hstep.inquires, (hstep.results hchain).trans ih.2⟩

/-- All ways to complete calls have the same results and leave the same variables. -/
theorem Completes.run {schedule : Schedule} (h : Completes schedule) (hchain : chain.Timeless)
    (contract : String) (block : Option Nat) (calls : List (ContractRead × List UInt8))
    (s : RunState) :
    ∃ t, (schedule chain contract block calls).run s =
        some (.ok (calls.map (answer chain contract block [])), t) ∧ s.Inquires t := by
  obtain ⟨results, t, hrun, hpath⟩ := h chain contract block calls s
  obtain ⟨hinquires, hresults⟩ := answers_kept hchain hpath
  rw [List.map_map, List.map_map] at hresults
  have hanswered : results.map (Slot.result chain contract block ∘ Slot.answered) = results :=
    List.map_id results
  refine ⟨t, ?_, hinquires⟩
  rw [hrun, ← hanswered, hresults]
  rfl

end

/-- What the reads of a filter bind on a chain that always gives the same answer to the same call. -/
def Gathers (address : Term) (reads : List ContractRead) (s : RunState)
    (bindings : List (List (String × Value))) : Prop :=
  ∃ chain contract calls, Calls address reads s chain contract calls ∧
    calls.map (answer chain contract (s.block.map Block.number) []) = bindings.map .ok

section
variable {address : Term} {reads reads' : List ContractRead} {s : RunState}
  {bindings : List (List (String × Value))} {schedule : Schedule}

namespace Gathers

theorem perm (h : Gathers address reads s bindings) (hperm : reads'.Perm reads) :
    ∃ bindings', bindings'.Perm bindings ∧ Gathers address reads' s bindings' := by
  obtain ⟨chain, contract, calls, hcalls, hanswers⟩ := h
  rw [← hcalls.reads] at hperm
  obtain ⟨calls', hpermCalls, hreads⟩ := exists_perm_map hperm
  have hpermAnswers := hpermCalls.map (answer chain contract (s.block.map Block.number) [])
  rw [hanswers] at hpermAnswers
  obtain ⟨bindings', hbindings, hanswers'⟩ := exists_perm_map hpermAnswers
  exact ⟨bindings', hbindings, chain, contract, calls', ⟨hcalls.contract, hcalls.chain, hreads,
    fun call hcall => hcalls.data call (hpermCalls.mem_iff.mp hcall)⟩, hanswers'.symm⟩

/-- The names that are bound are among those of the reads, in the same order. -/
theorem names_sublist (h : Gathers address reads s bindings) :
    (bindings.flatten.map Prod.fst).Sublist (Filter.contract address reads).bound := by
  obtain ⟨chain, contract, calls, hcalls, hanswers⟩ := h
  show List.Sublist _ (reads.flatMap fun r => r.outputs.map Parameter.name)
  rw [← hcalls.reads, List.flatMap_map]
  -- the induction is on the calls and their answers alone
  clear hcalls
  induction calls generalizing bindings with
  | nil =>
    rw [List.map_nil, eq_comm, List.map_eq_nil_iff] at hanswers
    rw [hanswers]
    exact .slnil
  | cons call calls ih =>
    cases bindings with
    | nil => cases hanswers
    | cons first bindings =>
      rw [List.map_cons, List.map_cons, List.cons.injEq] at hanswers
      rw [List.flatten_cons, List.map_append, List.flatMap_cons]
      exact (answer_names hanswers.1).append (ih hanswers.2)

theorem enters (h : Gathers address reads s bindings)
    (hchain : ∀ chain, s.chain = some chain → chain.Timeless) (hschedule : Completes schedule) :
    ∃ u, Run.Enters (runBy schedule address reads) s u ∧
      u.variables = s.variables.setAll bindings.flatten := by
  obtain ⟨chain, contract, calls, hcalls, hanswers⟩ := h
  obtain ⟨t, hrun, hinquires⟩ :=
    hschedule.run (hchain chain hcalls.chain) contract (s.block.map Block.number) calls s
  refine ⟨_, hcalls.enters hrun hanswers, ?_⟩
  rw [← hinquires.variables]
  rfl

end Gathers

theorem skips_of_not_gathers (h : ¬ ∃ bindings, Gathers address reads s bindings)
    (hchain : ∀ chain, s.chain = some chain → chain.Timeless) (hschedule : Completes schedule) :
    ∃ ending, Run.Skips (runBy schedule address reads) s ending ∧
      ending.2.variables = s.variables := by
  obtain ⟨ending, hskips, hinquires, -⟩ | ⟨chain, contract, calls, hcalls⟩ :=
    skips_or_calls address reads s
  · exact ⟨ending, hskips schedule, hinquires.variables⟩
  · obtain ⟨t, hrun, hinquires⟩ :=
      hschedule.run (hchain chain hcalls.chain) contract (s.block.map Block.number) calls s
    cases hall : (calls.map (answer chain contract (s.block.map Block.number) [])).mapM id with
    | error e => exact ⟨_, hcalls.skips hrun hall, (hinquires.trans (.fail _ _ _)).variables⟩
    | ok bindings =>
      exact absurd ⟨bindings, chain, contract, calls, hcalls, except_mapM_id_eq_ok.mp hall⟩ h

end
end ContractScope

/-- Reads of a contract commute. If the names that they bind are all different and the chain always
gives the same answer to the same call, then a filter with the reads in another order, whose calls are
completed in any order, enters its body if the filter does, with the same variables, and leaves the
variables alone otherwise. By `Filter.run_contract`, one of these orders is that of a filter itself. -/
theorem contract_reads_commute (looks : Nat) {address : Term} {reads reads' : List ContractRead}
    {s : RunState} {schedule : ContractScope.Schedule}
    (hnames : (Filter.contract address reads).bound.Nodup) (hperm : reads'.Perm reads)
    (hchain : ∀ chain, s.chain = some chain → chain.Timeless)
    (hschedule : ContractScope.Completes schedule) :
    ((∃ u', Run.Enters (ContractScope.runBy schedule address reads') s u') ↔
      ∃ u, Run.Enters ((Filter.contract address reads).run looks) s u) ∧
    (∀ u u', Run.Enters ((Filter.contract address reads).run looks) s u →
      Run.Enters (ContractScope.runBy schedule address reads') s u' →
      u'.variables = u.variables) ∧
    ((¬ ∃ u, Run.Enters ((Filter.contract address reads).run looks) s u) →
      ∃ ending ending', Run.Skips ((Filter.contract address reads).run looks) s ending ∧
        Run.Skips (ContractScope.runBy schedule address reads') s ending' ∧
        ending.2.variables = s.variables ∧ ending'.2.variables = s.variables) := by
  rw [Filter.run_contract]
  have hcallAll := ContractScope.completes_callAll
  by_cases hgathers : ∃ bindings, ContractScope.Gathers address reads s bindings
  · obtain ⟨bindings, hgathers⟩ := hgathers
    obtain ⟨bindings', hbindings, hgathers'⟩ := hgathers.perm hperm
    obtain ⟨u, hu, hbound⟩ := hgathers.enters hchain hcallAll
    obtain ⟨u', hu', hbound'⟩ := hgathers'.enters hchain hschedule
    refine ⟨⟨fun _ => ⟨u, hu⟩, fun _ => ⟨u', hu'⟩⟩, fun v v' hv hv' => ?_, fun h => absurd ⟨u, hu⟩ h⟩
    have hnodup := hnames.sublist hgathers.names_sublist
    rw [← hu.unique hv, ← hu'.unique hv', hbound, hbound',
      NameMap.setAll_perm hbindings.symm.flatten hnodup]
  · have hgathers' : ¬ ∃ bindings, ContractScope.Gathers address reads' s bindings := by
      rintro ⟨bindings', hgathers'⟩
      obtain ⟨bindings, -, h⟩ := hgathers'.perm hperm.symm
      exact hgathers ⟨bindings, h⟩
    obtain ⟨ending, hskips, hleft⟩ := ContractScope.skips_of_not_gathers hgathers hchain hcallAll
    obtain ⟨ending', hskips', hleft'⟩ :=
      ContractScope.skips_of_not_gathers hgathers' hchain hschedule
    exact ⟨⟨fun ⟨v', hv'⟩ => absurd hskips' (hv'.not_skips _),
      fun ⟨v, hv⟩ => absurd hskips (hv.not_skips _)⟩,
      fun v v' hv _ => absurd hskips (hv.not_skips _),
      fun _ => ⟨ending, ending', hskips, hskips', hleft, hleft'⟩⟩

def ContractScope.callLastFirst (chain : ChainSource) (contract : String) (block : Option Nat) :
    List (ContractRead × List UInt8) → Run (List (Except ExecutionError (List (String × Value))))
  | [] => return []
  | call :: calls => do
    let results ← callLastFirst chain contract block calls
    let before ← Run.note (.call contract call.2 block)
    return answer chain contract block before call :: results

theorem ContractScope.completes_callLastFirst : Completes callLastFirst := by
  intro chain contract block calls s
  induction calls with
  | nil => exact ⟨[], s, rfl, .refl⟩
  | cons call calls ih =>
    obtain ⟨results, t, hrun, hpath⟩ := ih
    refine ⟨answer chain contract block t.asked call :: results,
      t.note (.call contract call.2 block), ?_, ?_⟩
    · rw [callLastFirst, Run.run_bind, hrun]
      rfl
    · exact (completed_cons (.waiting call) hpath).tail (.next t [] _ call)

def ChainSource.sevens : ChainSource where
  head := fun _ => .ok 0
  block := fun _ _ => .ok none
  call := fun _ _ _ _ => .ok (Abi.encodeAll [.uint 7 256])

def sevensStart : RunState :=
  { countingStart with chain := some .sevens }

theorem contract_reads_commute_sevens :
    ∃ u, Run.Enters (ContractScope.runBy ContractScope.callLastFirst (.literal (.address "0xa"))
        [recountRead "next", countRead]) sevensStart u ∧
      u.variables.get? "next" = some (.int 7) ∧ u.variables.get? "count" = some (.int 7) := by
  have hcalls : ContractScope.Calls (.literal (.address "0xa")) [countRead, recountRead "next"]
      sevensStart .sevens "0xa" (countCalls "next") :=
    ⟨rfl, rfl, rfl, countCalls_data "next" (NameMap.get?_set_self _ _ _)⟩
  have hanswers : ContractScope.answers .sevens "0xa" none sevensStart (countCalls "next") =
      [[("count", .int 7)], [("next", .int 7)]].map .ok := by
    show [countRead.decodeResult (Abi.encodeAll [.uint 7 256]),
      (recountRead "next").decodeResult (Abi.encodeAll [.uint 7 256])] = _
    rw [countRead, recountRead, numberRead_decodeResult _ _ (by decide),
      numberRead_decodeResult _ _ (by decide)]
    rfl
  have henters := hcalls.enters (ContractScope.run_callAll _ _ _ _ _) hanswers
  have hchain : ∀ chain, sevensStart.chain = some chain → chain.Timeless := by
    intro chain h
    cases h
    exact fun _ _ _ _ _ => rfl
  obtain ⟨hiff, hsame, -⟩ := @contract_reads_commute 0 (.literal (.address "0xa"))
    [countRead, recountRead "next"] _ _ _ (by decide) (List.Perm.swap _ _ _) hchain
    ContractScope.completes_callLastFirst
  obtain ⟨u', hu'⟩ := hiff.mpr ⟨_, henters⟩
  refine ⟨u', hu', ?_⟩
  rw [hsame _ u' henters hu']
  exact ⟨NameMap.get?_setAll _ _ _, NameMap.get?_setAll _ _ _⟩

end ChainQuery
