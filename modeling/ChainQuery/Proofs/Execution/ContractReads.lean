import ChainQuery.Proofs.Abi.RoundTrip
import ChainQuery.Proofs.Execution.Bindings
import ChainQuery.Proofs.Scan.Turns

/-!
# Reads of a contract

A filter for a contract goes through five stages before its body: it evaluates the address, encodes all
calls, looks for a chain, makes the calls and decodes what they return. Nothing is bound before the last
stage is over. So the body either starts with the results of all reads, later ones over earlier ones,
or it does not start, and then the filter has changed nothing but the records of a run.
-/

namespace ChainQuery

theorem NameMap.get?_setAll (m : NameMap α) (bindings : List (String × α)) (name : String) :
    (m.setAll bindings).get? name = (bindings.reverse.lookup name).or (m.get? name) := by
  induction bindings generalizing m with
  | nil => rfl
  | cons b bindings ih =>
    rw [List.reverse_cons, List.lookup_append, Option.or_assoc]
    show ((m.set b.1 b.2).setAll bindings).get? name = _
    rw [ih, get?_set, List.lookup_cons, List.lookup_nil]
    by_cases h : b.1 = name
    · simp [h]
    · simp [h, beq_false_of_ne (Ne.symm h)]

namespace Run

/-- What stands around a body comes before it: from a state on, the body is all that is left to run. -/
def Enters (around : Run Unit → Run Unit) (s u : RunState) : Prop :=
  ∀ body, (around body).run s = body.run u

/-- What stands around a body comes to an end without it. -/
def Skips (around : Run Unit → Run Unit) (s : RunState)
    (ending : Except ExecutionError Unit × RunState) : Prop :=
  ∀ body, (around body).run s = some ending

section
variable {around : Run Unit → Run Unit} {s u v : RunState}

theorem Enters.unique (h : Enters around s u) (h' : Enters around s v) : u = v := by
  cases (h (pure ())).symm.trans (h' (pure ()))
  rfl

theorem Enters.not_skips (h : Enters around s u) (ending : Except ExecutionError Unit × RunState) :
    ¬ Skips around s ending := by
  intro h'
  cases (h exhausted).symm.trans (h' exhausted)

end

theorem run_inView (read : View → Except ExecutionError α) (s : RunState) :
    (inView read).run s = match read s.toView with
      | .ok a => some (.ok a, s)
      | .error e => some (.error e, s.log (.raised e)) := by
  rw [inView, run_get_bind]
  cases read s.toView <;> rfl

theorem run_attached (s : RunState) :
    attached.run s = match s.chain with
      | some chain => some (.ok chain, s)
      | none => some (.error (.chain .notConnected), s.log (.raised (.chain .notConnected))) := by
  rw [attached, run_get_bind]
  cases s.chain <;> rfl

end Run

namespace RunState

/-- Questions are asked and failures are handled, and no instruction begins. -/
structure Inquires (s t : RunState) : Prop where
  view : t.toView = s.toView
  chain : t.chain = s.chain
  connector : t.connector = s.connector
  outputs : t.outputs = s.outputs
  cancels : t.cancels = s.cancels
  journal : t.journal = s.journal
  deeds : ∃ later, t.deeds = later ++ s.deeds ∧ ∀ i view, .began i view ∉ later

namespace Inquires

variable {s t u : RunState}

theorem refl (s : RunState) : s.Inquires s :=
  ⟨rfl, rfl, rfl, rfl, rfl, rfl, [], rfl, nofun⟩

theorem trans (h : s.Inquires t) (h' : t.Inquires u) : s.Inquires u := by
  obtain ⟨later, hdeeds, hbegan⟩ := h.deeds
  obtain ⟨later', hdeeds', hbegan'⟩ := h'.deeds
  refine ⟨h'.view.trans h.view, h'.chain.trans h.chain, h'.connector.trans h.connector,
    h'.outputs.trans h.outputs, h'.cancels.trans h.cancels, h'.journal.trans h.journal,
    later' ++ later, by rw [hdeeds', hdeeds, List.append_assoc], fun i view hmem => ?_⟩
  exact (List.mem_append.mp hmem).elim (hbegan' i view) (hbegan i view)

theorem raised (s : RunState) (e : ExecutionError) : s.Inquires (s.log (.raised e)) :=
  ⟨rfl, rfl, rfl, rfl, rfl, rfl, [.raised e], rfl, by simp⟩

theorem note (s : RunState) (i : Inquiry) : s.Inquires (s.note i) :=
  ⟨rfl, rfl, rfl, rfl, rfl, rfl, [.asked i], rfl, by simp⟩

theorem handle (s : RunState) (context : String) (e : ExecutionError) :
    s.Inquires (s.handle context e) := by
  refine ⟨rfl, rfl, rfl, rfl, rfl, rfl, [_], rfl, fun i view hmem => ?_⟩
  split at hmem <;> simp at hmem

theorem fail (s : RunState) (context : String) (e : ExecutionError) :
    s.Inquires (s.fail context e).2 :=
  (raised s e).trans (handle _ context e)

theorem noteCalls (s : RunState) (contract : String) (block : Option Nat)
    (calls : List (ContractRead × List UInt8)) : s.Inquires (s.noteCalls contract block calls) := by
  induction calls generalizing s with
  | nil => exact refl s
  | cons call calls ih => exact (note s _).trans (ih _)

theorem «variables» (h : s.Inquires t) : t.variables = s.variables :=
  congrArg View.variables h.view

end Inquires
end RunState

namespace ContractScope

/-- A way to make calls, whose results are in the order of the calls. -/
abbrev Schedule :=
  ChainSource → String → Option Nat → List (ContractRead × List UInt8) →
    Run (List (Except ExecutionError (List (String × Value))))

/-- Binds what calls have given and runs the body, or handles the first failure among them. -/
def conclude (contract : String) (body : Run Unit)
    (results : List (Except ExecutionError (List (String × Value)))) : Run Unit := do
  match results.mapM id with
  | .error e => Run.fail (context contract) e
  | .ok bindings => do
    modify fun s => s.setVariables bindings.flatten
    body

/-- The filter with another way to make its calls. -/
def runBy (schedule : Schedule) (address : Term) (reads : List ContractRead) (body : Run Unit) :
    Run Unit := do
  let contract ← Run.inView (contractText address)
  match ← Run.outcome (Run.inView fun view => reads.mapM (ContractRead.encodeCall view)) with
  | .error e => Run.report (context contract) e
  | .ok data => do
    let chain ← Run.attached
    let block := (← get).block.map Block.number
    let results ← schedule chain contract block (reads.zip data)
    conclude contract body results

theorem run_runBy (schedule : Schedule) (address : Term) (reads : List ContractRead)
    (body : Run Unit) (s : RunState) :
    (runBy schedule address reads body).run s = match contractText address s.toView with
      | .error e => some (.error e, s.log (.raised e))
      | .ok contract => match reads.mapM (ContractRead.encodeCall s.toView) with
        | .error e => some (s.fail (context contract) e)
        | .ok data => match s.chain with
          | none => some (.error (.chain .notConnected), s.log (.raised (.chain .notConnected)))
          | some chain =>
            (schedule chain contract (s.block.map Block.number) (reads.zip data) >>=
              conclude contract body).run s := by
  rw [runBy, Run.run_bind, Run.run_inView]
  cases contractText address s.toView with
  | error e => rfl
  | ok contract =>
    dsimp only
    rw [Run.run_bind, Run.run_outcome, Run.run_inView]
    cases reads.mapM (ContractRead.encodeCall s.toView) with
    | error e => rfl
    | ok data =>
      dsimp only [Option.map_some]
      rw [Run.run_bind, Run.run_attached]
      cases s.chain with
      | none => rfl
      | some chain => rfl

/-- The calls of reads whose address and arguments are evaluated in a state that has a chain. -/
structure Calls (address : Term) (reads : List ContractRead) (s : RunState) (chain : ChainSource)
    (contract : String) (calls : List (ContractRead × List UInt8)) : Prop where
  contract : contractText address s.toView = .ok contract
  chain : s.chain = some chain
  reads : calls.map Prod.fst = reads
  data : ∀ call ∈ calls, call.1.encodeCall s.toView = .ok call.2

section
variable {address : Term} {reads : List ContractRead} {s t : RunState} {chain chain' : ChainSource}
  {contract contract' : String} {calls calls' : List (ContractRead × List UInt8)}
  {results : List (Except ExecutionError (List (String × Value)))}

namespace Calls

theorem mapM_encodeCall (h : Calls address reads s chain contract calls) :
    reads.mapM (ContractRead.encodeCall s.toView) = .ok (calls.map Prod.snd) := by
  rw [except_mapM_eq_ok, ← h.reads, List.forall₂_map_left_iff, List.forall₂_map_right_iff]
  exact List.forall₂_same.mpr h.data

theorem zip (h : Calls address reads s chain contract calls) :
    reads.zip (calls.map Prod.snd) = calls := by
  rw [← h.reads]
  exact (List.zip_of_prod rfl rfl).symm

theorem unique (h : Calls address reads s chain contract calls)
    (h' : Calls address reads s chain' contract' calls') :
    chain = chain' ∧ contract = contract' ∧ calls = calls' := by
  refine ⟨Option.some.inj (h.chain.symm.trans h'.chain),
    Except.ok.inj (h.contract.symm.trans h'.contract), ?_⟩
  rw [← h.zip, ← h'.zip, Except.ok.inj (h.mapM_encodeCall.symm.trans h'.mapM_encodeCall)]

theorem of_mapM {data : List (List UInt8)} (hcontract : contractText address s.toView = .ok contract)
    (hchain : s.chain = some chain)
    (hdata : reads.mapM (ContractRead.encodeCall s.toView) = .ok data) :
    Calls address reads s chain contract (reads.zip data) := by
  obtain ⟨hlength, hdata⟩ := List.forall₂_iff_zip.mp (except_mapM_eq_ok.mp hdata)
  exact ⟨hcontract, hchain, List.map_fst_zip (Nat.le_of_eq hlength), fun call hcall => hdata hcall⟩

theorem run_runBy (h : Calls address reads s chain contract calls) (schedule : Schedule)
    (body : Run Unit) :
    (runBy schedule address reads body).run s =
      (schedule chain contract (s.block.map Block.number) calls >>= conclude contract body).run s := by
  rw [ContractScope.run_runBy, h.contract]
  dsimp only
  rw [h.mapM_encodeCall, h.chain]
  dsimp only
  rw [h.zip]

variable {schedule : Schedule}

/-- The results are bound at once, and the body is what is left. -/
theorem enters (h : Calls address reads s chain contract calls)
    (hrun : (schedule chain contract (s.block.map Block.number) calls).run s = some (.ok results, t))
    {bindings : List (List (String × Value))} (hresults : results = bindings.map .ok) :
    Run.Enters (runBy schedule address reads) s (t.setVariables bindings.flatten) := by
  intro body
  rw [h.run_runBy, Run.run_bind, hrun]
  dsimp only
  rw [conclude, except_mapM_id_eq_ok.mpr hresults]
  rfl

/-- One result that is missing is enough to bind nothing. -/
theorem skips (h : Calls address reads s chain contract calls)
    (hrun : (schedule chain contract (s.block.map Block.number) calls).run s = some (.ok results, t))
    {e : ExecutionError} (he : results.mapM id = .error e) :
    Run.Skips (runBy schedule address reads) s (t.fail (context contract) e) := by
  intro body
  rw [h.run_runBy, Run.run_bind, hrun]
  dsimp only
  rw [conclude, he]
  exact Run.run_fail _ _ _

end Calls

/-- Something fails in one of the stages before the body. -/
inductive Fails (address : Term) (reads : List ContractRead) (s : RunState) : Prop where
  | address {e} : contractText address s.toView = .error e → Fails address reads s
  | encoding {read e} : read ∈ reads → read.encodeCall s.toView = .error e → Fails address reads s
  | detached : s.chain = none → Fails address reads s
  | call {chain contract earlier read data later e} :
      Calls address reads s chain contract (earlier ++ (read, data) :: later) →
      chain.call (s.noteCalls contract (s.block.map Block.number) earlier).asked contract data
        (s.block.map Block.number) = .error e →
      Fails address reads s
  | decoding {chain contract earlier read data later returned e} :
      Calls address reads s chain contract (earlier ++ (read, data) :: later) →
      chain.call (s.noteCalls contract (s.block.map Block.number) earlier).asked contract data
        (s.block.map Block.number) = .ok returned →
      read.decodeResult returned = .error e →
      Fails address reads s

/-- Without calls to make, a filter ends before the first one, however it makes them. -/
theorem skips_or_calls (address : Term) (reads : List ContractRead) (s : RunState) :
    (∃ ending, (∀ schedule, Run.Skips (runBy schedule address reads) s ending) ∧
        s.Inquires ending.2 ∧ Fails address reads s) ∨
      ∃ chain contract calls, Calls address reads s chain contract calls := by
  cases hcontract : contractText address s.toView with
  | error e =>
    refine .inl ⟨(.error e, s.log (.raised e)), fun schedule body => ?_, .raised s e,
      .address hcontract⟩
    rw [run_runBy, hcontract]
  | ok contract =>
    cases hdata : reads.mapM (ContractRead.encodeCall s.toView) with
    | error e =>
      obtain ⟨read, hread, he⟩ := exists_of_except_mapM_eq_error hdata
      refine .inl ⟨_, fun schedule body => ?_, .fail s (context contract) e, .encoding hread he⟩
      rw [run_runBy, hcontract]
      dsimp only
      rw [hdata]
    | ok data =>
      cases hchain : s.chain with
      | none =>
        refine .inl ⟨(.error (.chain .notConnected), s.log (.raised (.chain .notConnected))),
          fun schedule body => ?_, .raised s _, .detached hchain⟩
        rw [run_runBy, hcontract]
        dsimp only
        rw [hdata, hchain]
      | some chain => exact .inr ⟨chain, contract, _, Calls.of_mapM hcontract hchain hdata⟩

/-- A filter that can make its calls fails if one of the answers is a failure. -/
theorem Calls.fails_iff (h : Calls address reads s chain contract calls) :
    Fails address reads s ↔
      ∃ e, .error e ∈ answers chain contract (s.block.map Block.number) s calls := by
  constructor
  · intro hfails
    cases hfails with
    | address he => cases h.contract.symm.trans he
    | encoding hread he =>
      rw [← h.reads] at hread
      obtain ⟨call, hcall, rfl⟩ := List.mem_map.mp hread
      cases (h.data call hcall).symm.trans he
    | detached hchain => cases h.chain.symm.trans hchain
    | call hcalls he =>
      obtain ⟨rfl, rfl, rfl⟩ := h.unique hcalls
      exact ⟨_, mem_answers.mpr ⟨_, _, _, rfl, by rw [answer, he]⟩⟩
    | @decoding _ _ _ _ _ _ _ e hcalls hreturned he =>
      obtain ⟨rfl, rfl, rfl⟩ := h.unique hcalls
      refine ⟨e, mem_answers.mpr ⟨_, _, _, rfl, ?_⟩⟩
      rw [answer, hreturned]
      exact he.symm
  · rintro ⟨e, he⟩
    obtain ⟨earlier, ⟨read, data⟩, later, rfl, hanswer⟩ := mem_answers.mp he
    unfold answer at hanswer
    split at hanswer
    · next hreturned => exact .decoding h hreturned hanswer.symm
    · next hcall => exact .call h hcall

theorem Calls.not_fails (h : Calls address reads s chain contract calls)
    {bindings : List (List (String × Value))}
    (hanswers : answers chain contract (s.block.map Block.number) s calls = bindings.map .ok) :
    ¬ Fails address reads s := by
  rw [h.fails_iff, hanswers]
  rintro ⟨e, he⟩
  obtain ⟨_, -, he⟩ := List.mem_map.mp he
  cases he

end
end ContractScope

theorem Filter.run_contract (looks : Nat) (address : Term) (reads : List ContractRead) :
    (contract address reads).run looks =
      ContractScope.runBy ContractScope.callAll address reads := rfl

/-- Reads of a contract bind all or nothing. If the address cannot be evaluated, a call cannot be
encoded, there is no chain, or a call or the decoding of what it returns fails, then the filter comes to
an end without its body, and has begun no instruction and changed no variable. Otherwise the body runs
once, after every read has been evaluated in the state before the filter, and starts with the variables
of that state in which each name has the last value that a read gives it. -/
theorem contract_reads_all_or_nothing (looks : Nat) (address : Term) (reads : List ContractRead)
    (s : RunState) :
    (ContractScope.Fails address reads s →
      ∃ ending, Run.Skips ((Filter.contract address reads).run looks) s ending ∧
        s.Inquires ending.2 ∧ ending.2.variables = s.variables) ∧
    (¬ ContractScope.Fails address reads s →
      ∃ chain contract calls t, ∃ bindings : List (List (String × Value)),
        ContractScope.Calls address reads s chain contract calls ∧
        ContractScope.answers chain contract (s.block.map Block.number) s calls =
          bindings.map .ok ∧
        Run.Enters ((Filter.contract address reads).run looks) s (t.setVariables bindings.flatten) ∧
        s.Inquires t ∧
        ∀ name, (t.setVariables bindings.flatten).variables.get? name =
          (bindings.flatten.reverse.lookup name).or (s.variables.get? name)) := by
  rw [Filter.run_contract]
  obtain ⟨ending, hskips, hinquires, hfails⟩ | ⟨chain, contract, calls, hcalls⟩ :=
    ContractScope.skips_or_calls address reads s
  · exact ⟨fun _ => ⟨ending, hskips ContractScope.callAll, hinquires, hinquires.variables⟩,
      fun h => absurd hfails h⟩
  · have hrun := ContractScope.run_callAll chain contract (s.block.map Block.number) calls s
    have hinquires := RunState.Inquires.noteCalls s contract (s.block.map Block.number) calls
    cases hall : (ContractScope.answers chain contract (s.block.map Block.number) s calls).mapM id with
    | error e =>
      obtain ⟨_, hmem, rfl⟩ := exists_of_except_mapM_eq_error hall
      have hend := hinquires.trans (.fail _ (ContractScope.context contract) e)
      exact ⟨fun _ => ⟨_, hcalls.skips hrun hall, hend, hend.variables⟩,
        fun h => absurd (hcalls.fails_iff.mpr ⟨e, hmem⟩) h⟩
    | ok bindings =>
      have hanswers := except_mapM_id_eq_ok.mp hall
      refine ⟨fun h => absurd h (hcalls.not_fails hanswers), fun _ => ⟨chain, contract, calls, _,
        bindings, hcalls, hanswers, hcalls.enters hrun hanswers, hinquires, fun name => ?_⟩⟩
      rw [← hinquires.variables]
      exact NameMap.get?_setAll _ _ _

/-- A chain on which every call returns how much has been asked before. -/
def ChainSource.counting : ChainSource where
  head := fun _ => .ok 0
  block := fun _ _ => .ok none
  call := fun before _ _ _ => .ok (Abi.encodeAll [.uint before.length 256])

def countingStart : RunState :=
  { RunState.start {} {} {} with
    chain := some .counting
    «variables» := NameMap.set ∅ "count" (.int 5) }

def numberRead (name : String) (inputs : List Argument) : ContractRead :=
  ⟨name, inputs, [{ name := name, type := .uint 256 }]⟩

theorem numberRead_decodeResult (name : String) (inputs : List Argument) {n : Nat}
    (hn : n < 2 ^ 256) :
    (numberRead name inputs).decodeResult (Abi.encodeAll [.uint n 256]) =
      .ok [(name, (AbiValue.uint n 256).toValue)] := by
  have hvalues : AbiType.AllHave [.uint 256] [.uint n 256] := .cons (.uint (by decide) hn) .nil
  have hlength : (Abi.encodeAll [.uint n 256]).length < 2 ^ 64 := by
    show (Abi.word n ++ [] ++ []).length < 2 ^ 64
    rw [List.append_nil, List.append_nil, Abi.length_word]
    decide
  have hdecoded : Abi.decodeAll? [.uint 256] (Abi.encodeAll [.uint n 256]) = some [.uint n 256] :=
    Abi.decodeAll?_encodeAll hvalues (by decide) hlength (.inr (by decide))
  have htypes : (numberRead name inputs).outputs.map Parameter.type = [.uint 256] := rfl
  rw [ContractRead.decodeResult, htypes, hdecoded]
  rfl

/-- A read without arguments, and a read whose argument is the variable that the first one binds. -/
def countRead : ContractRead :=
  numberRead "count" []

def recountRead (name : String) : ContractRead :=
  numberRead name [⟨.named "count", .uint 256⟩]

theorem recountRead_encodeCall (name : String) {view : View}
    (h : view.variables.get? "count" = some (.int 5)) :
    (recountRead name).encodeCall view =
      .ok ((recountRead name).selector ++ Abi.encodeAll [.uint 5 256]) := by
  have hargument : Argument.eval view ⟨.named "count", .uint 256⟩ = .ok (.uint 5 256) := by
    rw [Argument.eval, Term.eval, View.read, h]
    rfl
  rw [ContractRead.encodeCall, recountRead, numberRead, List.mapM_cons, hargument]
  rfl

def countCalls (name : String) : List (ContractRead × List UInt8) :=
  [(countRead, countRead.selector ++ Abi.encodeAll []),
    (recountRead name, (recountRead name).selector ++ Abi.encodeAll [.uint 5 256])]

theorem countCalls_data (name : String) {view : View}
    (h : view.variables.get? "count" = some (.int 5)) :
    ∀ call ∈ countCalls name, call.1.encodeCall view = .ok call.2 := by
  rw [countCalls, List.forall_mem_cons, List.forall_mem_singleton]
  exact ⟨rfl, recountRead_encodeCall name h⟩

theorem contract_reads_counting :
    (∃ ending, Run.Skips ((Filter.contract (.named "token")
        [countRead, recountRead "count"]).run 0) countingStart ending ∧
      ending.2.variables = countingStart.variables) ∧
    ∃ u, Run.Enters ((Filter.contract (.literal (.address "0xa"))
        [countRead, recountRead "count"]).run 0) countingStart u ∧
      u.variables.get? "count" = some (.int 1) := by
  constructor
  · have hfails : ContractScope.Fails (.named "token") [countRead, recountRead "count"]
        countingStart := .address rfl
    obtain ⟨ending, hskips, -, hvariables⟩ :=
      (contract_reads_all_or_nothing 0 (.named "token") _ countingStart).1 hfails
    exact ⟨ending, hskips, hvariables⟩
  · have hcalls : ContractScope.Calls (.literal (.address "0xa")) [countRead, recountRead "count"]
        countingStart .counting "0xa" (countCalls "count") :=
      ⟨rfl, rfl, rfl, countCalls_data "count" (NameMap.get?_set_self _ _ _)⟩
    have hanswers : ContractScope.answers .counting "0xa" none countingStart (countCalls "count") =
        [[("count", .int 0)], [("count", .int 1)]].map .ok := by
      show [countRead.decodeResult (Abi.encodeAll [.uint 0 256]),
        (recountRead "count").decodeResult (Abi.encodeAll [.uint 1 256])] = _
      rw [countRead, recountRead, numberRead_decodeResult _ _ (by decide),
        numberRead_decodeResult _ _ (by decide)]
      rfl
    obtain ⟨chain, contract, calls, t, bindings, hcalls', hanswers', henters, -, hvariables⟩ :=
      (contract_reads_all_or_nothing 0 (.literal (.address "0xa")) _ countingStart).2
        (hcalls.not_fails hanswers)
    obtain ⟨rfl, rfl, rfl⟩ := hcalls.unique hcalls'
    obtain rfl := List.map_injective_iff.mpr (fun _ _ => Except.ok.inj)
      (hanswers.symm.trans hanswers')
    exact ⟨_, henters, hvariables "count"⟩

end ChainQuery
