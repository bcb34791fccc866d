import ChainQuery.Proofs.Execution.Steps
import ChainQuery.Proofs.Results

/-!
# The names that filters bind

A filter binds the parameters of an event or the results of calls, and no other names. The values come
from the chain and may be any.
-/

namespace ChainQuery

def Filter.bound : Filter → List String
  | logEntries _ (some e) => e.parameters.map Parameter.name
  | contract _ reads => reads.flatMap fun r => r.outputs.map Parameter.name
  | _ => []

theorem EventSignature.collect_names {event : String} {ps : List Parameter} {topics : List String}
    {values : List AbiValue} {bindings : List (String × Value)}
    (h : collect event ps topics values = .ok bindings) :
    bindings.map Prod.fst = ps.map Parameter.name := by
  induction ps generalizing topics values bindings with
  | nil =>
    cases h
    rfl
  | cons p ps ih =>
    unfold collect at h
    split at h
    · cases topics with
      | nil => cases h
      | cons topic topics =>
        simp only [except_bind_eq_ok] at h
        obtain ⟨_, _, rest, hrest, h⟩ := h
        cases h
        rw [List.map_cons, List.map_cons, ih hrest]
    · cases values with
      | nil => cases h
      | cons value values =>
        simp only [except_bind_eq_ok] at h
        obtain ⟨rest, hrest, h⟩ := h
        cases h
        rw [List.map_cons, List.map_cons, ih hrest]

theorem EventSignature.decode_names {e : EventSignature} {l : LogEntry}
    {bindings : List (String × Value)} (h : e.decode l = .ok bindings) :
    bindings.map Prod.fst = e.parameters.map Parameter.name := by
  unfold decode at h
  dsimp only at h
  split at h
  · cases h
  · exact collect_names h

theorem map_fst_zip_sublist : ∀ (as : List α) (bs : List β), ((as.zip bs).map Prod.fst).Sublist as
  | [], _ => .slnil
  | _ :: _, [] => List.nil_sublist _
  | a :: as, _ :: bs => (map_fst_zip_sublist as bs).cons_cons a

theorem ContractRead.decodeResult_names {r : ContractRead} {data : List UInt8}
    {bindings : List (String × Value)} (h : r.decodeResult data = .ok bindings) :
    (bindings.map Prod.fst).Sublist (r.outputs.map Parameter.name) := by
  unfold decodeResult at h
  split at h
  · next values _ =>
    cases h
    rw [List.map_map]
    show ((r.outputs.zip values).map (Parameter.name ∘ Prod.fst)).Sublist _
    rw [← List.map_map]
    exact (map_fst_zip_sublist _ _).map _
  · cases h

/-- The state after calls of a contract, one after the other. -/
def RunState.noteCalls (s : RunState) (contract : String) (block : Option Nat)
    (calls : List (ContractRead × List UInt8)) : RunState :=
  calls.foldl (fun s call => s.note (.call contract call.2 block)) s

namespace ContractScope

/-- What a call gives: the decoded results, or the failure of the call or of the decoding. -/
def answer (chain : ChainSource) (contract : String) (block : Option Nat) (before : History)
    (call : ContractRead × List UInt8) : Except ExecutionError (List (String × Value)) :=
  match chain.call before contract call.2 block with
  | .ok data => call.1.decodeResult data
  | .error e => .error (.chain e)

def answers (chain : ChainSource) (contract : String) (block : Option Nat) (s : RunState) :
    List (ContractRead × List UInt8) → List (Except ExecutionError (List (String × Value)))
  | [] => []
  | call :: calls =>
    answer chain contract block s.asked call ::
      answers chain contract block (s.note (.call contract call.2 block)) calls

variable {chain : ChainSource} {contract : String} {block : Option Nat}
  {calls : List (ContractRead × List UInt8)} {s t : RunState}
  {results : List (Except ExecutionError (List (String × Value)))}

theorem run_callAll (chain : ChainSource) (contract : String) (block : Option Nat)
    (calls : List (ContractRead × List UInt8)) (s : RunState) :
    (callAll chain contract block calls).run s =
      some (.ok (answers chain contract block s calls), s.noteCalls contract block calls) := by
  induction calls generalizing s with
  | nil => rfl
  | cons call calls ih =>
    have hnote : (Run.note (.call contract call.2 block)).run s =
        some (.ok s.asked, s.note (.call contract call.2 block)) := rfl
    rw [callAll, Run.run_bind, hnote]
    dsimp only
    rw [Run.run_bind, ih]
    rfl

theorem mem_answers {result : Except ExecutionError (List (String × Value))} :
    result ∈ answers chain contract block s calls ↔
      ∃ earlier call later, calls = earlier ++ call :: later ∧
        result = answer chain contract block (s.noteCalls contract block earlier).asked call := by
  induction calls generalizing s with
  | nil => simp [answers]
  | cons call calls ih =>
    rw [answers, List.mem_cons, ih]
    constructor
    · rintro (rfl | ⟨earlier, next, later, rfl, rfl⟩)
      · exact ⟨[], call, calls, rfl, rfl⟩
      · exact ⟨call :: earlier, next, later, rfl, rfl⟩
    · rintro ⟨_ | ⟨first, earlier⟩, next, later, heq, rfl⟩
      · cases heq
        exact .inl rfl
      · cases heq
        exact .inr ⟨earlier, next, later, rfl, rfl⟩

theorem answer_names {before : History} {call : ContractRead × List UInt8}
    {bindings : List (String × Value)} (h : answer chain contract block before call = .ok bindings) :
    (bindings.map Prod.fst).Sublist (call.1.outputs.map Parameter.name) := by
  unfold answer at h
  split at h
  · exact ContractRead.decodeResult_names h
  · cases h

/-- Every call that succeeds binds names of its read's results. -/
theorem callAll_names (h : (callAll chain contract block calls).run s = some (.ok results, t)) :
    ∀ bindings, .ok bindings ∈ results → ∀ b ∈ bindings,
      b.1 ∈ calls.flatMap fun call => call.1.outputs.map Parameter.name := by
  intro bindings hmem b hb
  cases (run_callAll chain contract block calls s).symm.trans h
  obtain ⟨earlier, call, later, rfl, hanswer⟩ := mem_answers.mp hmem
  have hcall : call ∈ earlier ++ call :: later := by simp
  exact List.mem_flatMap.mpr
    ⟨call, hcall, (answer_names hanswer.symm).subset (List.mem_map_of_mem hb)⟩

end ContractScope

end ChainQuery
