import ChainQuery.Proofs.Execution.Agreement
import ChainQuery.Proofs.Execution.Atomicity
import ChainQuery.Proofs.Execution.Containment
import ChainQuery.Proofs.Execution.Termination

/-!
# Log entries by transaction

The log entries of a block can be visited all at once or transaction by transaction. Where neither the
body nor its terms have to do with the current transaction, only the visits of the transactions in the
journal tell the two from each other.
-/

namespace ChainQuery

def JournalEntry.cursor? : JournalEntry → Option Cursor
  | entered e => some e.cursor
  | left c _ => some c
  | _ => none

/-- A journal without the beginnings and the ends of the visits of a kind. -/
def Journal.without (c : Cursor) (j : Journal) : Journal :=
  j.filter fun e => e.cursor? ≠ some c

theorem Journal.without_append (c : Cursor) (j k : Journal) :
    Journal.without c (j ++ k) = j.without c ++ k.without c :=
  List.filter_append ..

/-- The instructions that visit nothing and read nothing of the current transaction. -/
def Fragment.offTransactions : Fragment where
  filter f := f.cursor? = none
  term t := ∀ field, t ≠ .chain (.transaction field)

/-- No transaction is current in the first of two states, and a given one or none in the second. -/
def RunState.Lacks (current : Option Transaction) (s t : RunState) : Prop :=
  s.Apart (fun x y => x = none ∧ y = current)
    (fun j k => j.without .transaction = k.without .transaction) t

theorem Journal.append_without {j k : Journal}
    (h : j.without .transaction = k.without .transaction) (e : JournalEntry) :
    Journal.without .transaction (j ++ [e]) = Journal.without .transaction (k ++ [e]) := by
  rw [without_append, without_append, h]

theorem Fragment.offTransactions_overlooks (current : Option Transaction) :
    offTransactions.Overlooks (fun x y => x = none ∧ y = current)
      (fun j k => j.without .transaction = k.without .transaction) where
  reads {v x} _ := by
    refine ⟨rfl, fun t ht => ?_⟩
    cases t with
    | literal value => rfl
    | named name => rfl
    | chain field =>
      cases field with
      | block f => rfl
      | transaction f => exact absurd rfl (ht f)
      | logEntry f => rfl
  append e h := Journal.append_without h e
  visits hfilter := nomatch hfilter
  candidates hfilter := nomatch hfilter

namespace RunState

theorem Lacks.log {s t : RunState} {current : Option Transaction} (h : s.Lacks current t)
    (d : Deed) : s.Lacks current (t.log d) := by
  obtain ⟨_, j, d, hx, hj, rfl⟩ := h.exists_eq
  exact ⟨hx, hj, rfl⟩

theorem Lacks.enter {s t : RunState} (h : s.Lacks none t) (x : Transaction) :
    s.Lacks (some x) (t.enter (.transaction x)) := by
  obtain ⟨_, j, d, ⟨hx, -⟩, hj, rfl⟩ := h.exists_eq
  refine ⟨⟨hx, rfl⟩, ?_, rfl⟩
  show _ = Journal.without .transaction (j ++ [_])
  rw [Journal.without_append, hj]
  exact (List.append_nil _).symm

theorem Lacks.exit {s t : RunState} {x : Transaction} (h : s.Lacks (some x) t)
    (failure : Option ExecutionError) : s.Lacks none (t.exit .transaction failure) := by
  obtain ⟨_, j, d, ⟨hx, -⟩, hj, rfl⟩ := h.exists_eq
  refine ⟨⟨hx, rfl⟩, ?_, rfl⟩
  show _ = Journal.without .transaction (j ++ [_])
  rw [Journal.without_append, hj]
  exact (List.append_nil _).symm

end RunState

theorem LogEntryScope.visitAll_append (contracts : AddressCriterion)
    (signature : Option EventSignature) (body : Run Unit) (ls ls' : List LogEntry) :
    visitAll contracts signature body (ls ++ ls') =
      (do visitAll contracts signature body ls; visitAll contracts signature body ls') := by
  induction ls with
  | nil => rfl
  | cons l ls ih => rw [List.cons_append, visitAll, visitAll, ih, bind_assoc]

theorem LogEntryScope.candidates_of_transaction {view : View} {t : Transaction}
    (hview : view.transaction = some t) : candidates view = .ok t.logs := by
  rw [candidates, hview]

theorem LogEntryScope.run_of_candidates (contracts : AddressCriterion)
    (signature : Option EventSignature) (body : Run Unit) {s : RunState} {ls : List LogEntry}
    (hs : candidates s.toView = .ok ls) :
    (LogEntryScope.run contracts signature body).run s =
      (visitAll contracts signature body ls).run s := by
  have hcandidates : (Run.inView candidates).run s = some (.ok ls, s) := by
    show (Run.ofExcept (candidates s.toView)).run s = _
    rw [hs]
    rfl
  rw [LogEntryScope.run, Run.run_bind, hcandidates]

section Groupings
variable (looks : Nat) (contracts : AddressCriterion) (signature : Option EventSignature)
variable {body : List Instruction}

/-- In the visit of a transaction its log entries are the candidates. -/
theorem executeAll_logEntries {s : RunState} {t : Transaction} (hs : s.transaction = some t) :
    (executeAll looks [.filter (.logEntries contracts signature) body]).run s =
      (LogEntryScope.visitAll contracts signature (executeAll looks body) t.logs).run
        (s.log (.began (.filter (.logEntries contracts signature) body) s.toView)) := by
  rw [executeAll, executeAll, bind_pure_unit, Instruction.execute, Filter.run]
  exact LogEntryScope.run_of_candidates contracts signature _
    (LogEntryScope.candidates_of_transaction hs)

variable (hbody : Instruction.WithinAll .offTransactions body)
include hbody

/-- The visit of a transaction for its log entries is like visiting these at once. -/
theorem TransactionScope.endAlike_visit (t : Transaction) {s u : RunState} (h : s.Lacks none u) :
    Run.EndAlike (RunState.Lacks none)
      ((LogEntryScope.visitAll contracts signature (executeAll looks body) t.logs).run s)
      ((Run.guarded (context t) (visit
        (executeAll looks [.filter (.logEntries contracts signature) body]) t)).run u) := by
  have hoverlooks := Fragment.offTransactions_overlooks (some t)
  have hagree := Run.inherits_agree hoverlooks
  have hentries := hagree.logEntries contracts signature (fun l => Run.agree_visitLogEntry
    hoverlooks.append (hagree.executeAll looks hbody) l) t.logs
  have hvisit : ∀ v : RunState, (visit (executeAll looks
      [.filter (.logEntries contracts signature) body]) t).run v =
        ((LogEntryScope.visitAll contracts signature (executeAll looks body) t.logs).run
          ((v.enter (.transaction t)).log
            (.began (.filter (.logEntries contracts signature) body)
              (v.enter (.transaction t)).toView))).map fun p =>
          (p.1, p.2.exit .transaction (Run.failure? p.1)) := by
    intro v
    rw [visit, Run.run_resume_visiting (.transaction t) t.cursor_ne_block,
      executeAll_logEntries looks contracts signature rfl]
    rfl
  -- each log entry has a guard of its own, so that the one around the transaction handles nothing
  have hcontained : Run.Contained (visit (executeAll looks
      [.filter (.logEntries contracts signature) body]) t) u := by
    intro e v hrun
    rw [hvisit] at hrun
    obtain ⟨⟨result, w⟩, hw, heq⟩ := Option.map_eq_some_iff.mp hrun
    cases heq
    exact Run.contained_logEntries _ _ _ _ _ e w hw
  rw [Run.run_guarded_contained _ hcontained, hvisit, Option.map_map]
  rcases (hentries s _ ((h.enter t).log _)).cases with ⟨hx, hy⟩ | ⟨result, v, w, hx, hy, hvw⟩
  · rw [hx, hy]
    exact .none
  · have hvw : v.Lacks (some t) w := hvw
    rw [hx, hy]
    refine .some ⟨rfl, ?_⟩
    cases result with
    | ok _ => exact hvw.exit none
    | error e => exact (hvw.exit (some e)).log _

theorem TransactionScope.endAlike_visitAll (ts : List Transaction) {s u : RunState}
    (h : s.Lacks none u) :
    Run.EndAlike (RunState.Lacks none)
      ((LogEntryScope.visitAll contracts signature (executeAll looks body)
        (ts.flatMap Transaction.logs)).run s)
      ((visitAll .any .any
        (executeAll looks [.filter (.logEntries contracts signature) body]) ts).run u) := by
  induction ts generalizing s u with
  | nil => exact .some ⟨rfl, h⟩
  | cons t ts ih =>
    rw [List.flatMap_cons, LogEntryScope.visitAll_append, visitAll_any]
    exact (endAlike_visit looks contracts signature hbody t h).bind fun _ v w hvw => ih hvw

/-- Visiting the log entries of a block at once or transaction by transaction comes to the same, also
in the order of the entries, except for the visits of the transactions themselves. -/
theorem logEntries_by_transaction {s : RunState} {b : Block} (hblock : s.block = some b)
    (hnone : s.transaction = none) :
    (((Instruction.filter (.logEntries contracts signature) body).execute looks).run s).isSome ∧
    Run.EndAlike (fun t u => u = { t with journal := u.journal, deeds := u.deeds } ∧
        u.journal.without .transaction = t.journal.without .transaction)
      (((Instruction.filter (.logEntries contracts signature) body).execute looks).run s)
      (((Instruction.filter (.transactions .any .any)
        [.filter (.logEntries contracts signature) body]).execute looks).run s) := by
  have hcandidates : LogEntryScope.candidates s.toView = .ok b.logs := by
    rw [LogEntryScope.candidates, hnone, hblock]
  rw [Instruction.execute, Instruction.execute, Filter.run, Filter.run,
    LogEntryScope.run_of_candidates _ _ _ hcandidates, TransactionScope.run, Run.run_get_bind, hblock]
  have hreturns := Run.inherits_returns (F := .offTransactions) fun _ hfilter =>
    absurd hfilter (Option.some_ne_none _)
  refine ⟨hreturns.logEntries contracts signature (fun l => Run.returns_visiting
    (hreturns.executeAll looks hbody) (.logEntry l) l.cursor_ne_block) b.logs s, ?_⟩
  have hends := TransactionScope.endAlike_visitAll looks contracts signature hbody b.transactions
    (s := s) (u := s) ⟨⟨hnone, hnone⟩, rfl, rfl⟩
  refine hends.imp fun t u htu => ?_
  obtain ⟨x, j, d, ⟨hx, rfl⟩, hj, rfl⟩ := htu.exists_eq
  refine ⟨?_, hj.symm⟩
  rw [RunState.apart, ← hx]

end Groupings

/-- The visit of a block with three log entries in two transactions, while an address is watched. -/
def watchedVisit : RunState :=
  ({ RunState.start {} {} {} with
    «variables» := NameMap.set ∅ "watched" (.address "0xa") }).enter (.block
      { number := 1
        transactions := [{ hash := "t", logs := [{ address := "0xA" }] },
          { hash := "u"
            logs := [{ address := "0xb", logIndex := 1 }, { address := "0xa", logIndex := 2 }] }] })

def watchNext : List Instruction :=
  [fixedLine "seen", .assign ⟨"watched"⟩ (.literal (.address "0xB"))]

theorem logEntries_by_transaction_watchNext :
    ∃ t u, ((Instruction.filter (.logEntries (.held "watched") none) watchNext).execute 0).run
        watchedVisit = some (.ok (), t) ∧
      t.outputs.lines.lines.staged = ["seen", "seen"] ∧
      ((Instruction.filter (.transactions .any .any)
        [.filter (.logEntries (.held "watched") none) watchNext]).execute 0).run
          watchedVisit = some (.ok (), u) ∧ u.outputs = t.outputs := by
  have hbody : Instruction.WithinAll .offTransactions watchNext := by
    refine ⟨fun t ht => ?_, nofun, trivial⟩
    rw [List.mem_singleton.mp ht]
    exact nofun
  obtain ⟨t, hrun, hstaged⟩ : ∃ t, ((Instruction.filter (.logEntries (.held "watched") none)
      watchNext).execute 0).run watchedVisit = some (.ok (), t) ∧
        t.outputs.lines.lines.staged = ["seen", "seen"] := ⟨_, rfl, rfl⟩
  have hends := (logEntries_by_transaction 0 (.held "watched") none hbody (s := watchedVisit) rfl
    rfl).2
  rcases hends.cases with ⟨hnone, -⟩ | ⟨result, t', u, hfirst, hsecond, hsame, -⟩
  · cases hnone.symm.trans hrun
  · cases hfirst.symm.trans hrun
    rw [hsame] at hsecond
    exact ⟨t, _, hrun, hstaged, hsecond, rfl⟩

end ChainQuery
