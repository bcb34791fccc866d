import ChainQuery.Proofs.Execution.Agreement
import ChainQuery.Proofs.Execution.Atomicity

/-!
# Address criteria as conditions

A transaction filter with lists of senders and recipients lets the same transactions through as a
condition on the sender and the recipient in a filter of all transactions. The latter visits the other
transactions as well, without running its body for them.
-/

namespace ChainQuery

/-- Whether an address is listed, without regard to the case of letters. A missing one is not. -/
def Text.listed (addresses : List String) : Option String → Bool
  | some a => addresses.any fun b => equalFold b a
  | none => false

def Transaction.between (senders recipients : List String) (t : Transaction) : Bool :=
  Text.listed senders (some t.sender) && Text.listed recipients t.recipient

/-- The condition that a field of the current transaction is one of the listed addresses. -/
def Predicate.listed (field : TransactionField) (addresses : List String) : Predicate :=
  .compare .member (.chain (.transaction field)) (.literal (.list (addresses.map .address)))

def Predicate.between (senders recipients : List String) : Predicate :=
  .and (.listed .sender senders) (.listed .recipient recipients)

section Matching
variable {senders recipients : List String}

theorem AddressCriterion.accepts_listed (addresses : List String) (m : NameMap Value)
    (address : Option String) :
    (listed addresses).accepts m address = .ok (Text.listed addresses address) := by
  cases address <;> rfl

theorem TransactionScope.passes_listed (t : Transaction) (view : View) :
    passes (.listed senders) (.listed recipients) t view = .ok (t.between senders recipients) := by
  rw [passes, AddressCriterion.accepts_listed, AddressCriterion.accepts_listed, Transaction.between]
  cases Text.listed senders (some t.sender) <;> rfl

/-- Membership in a list of addresses; `null`, which stands for a missing one, is in none. -/
theorem Value.memberOf_addresses (addresses : List String) (address : Option String) :
    memberOf ((address.map Value.address).getD .null) (addresses.map .address) =
      .ok (Text.listed addresses address) := by
  induction addresses with
  | nil => cases address <;> rfl
  | cons b addresses ih =>
    cases address with
    | none => exact ih
    | some a =>
      have hequals : (Value.address b).equals (.address a) = .ok (Text.equalFold b a) := by
        rw [equals]
      rw [List.map_cons, memberOf, Option.map_some, Option.getD_some, hequals]
      rw [Option.map_some, Option.getD_some] at ih
      cases hb : Text.equalFold b a with
      | true => simp [Text.listed, hb]
      | false => simpa [Text.listed, hb] using ih

theorem Predicate.eval_listed (addresses : List String) (address : Option String)
    {field : TransactionField} {t : Transaction}
    (hfield : field.read t = .ok ((address.map Value.address).getD .null)) {view : View}
    (hview : view.transaction = some t) :
    (listed field addresses).eval view = .ok (Text.listed addresses address) := by
  have hread : (Term.chain (.transaction field)).eval view =
      .ok ((address.map Value.address).getD .null) := by
    rw [Term.eval, ChainField.read, hview]
    exact hfield
  rw [listed, eval, hread]
  exact Value.memberOf_addresses addresses address

theorem Predicate.eval_between {t : Transaction} {view : View} (hview : view.transaction = some t) :
    (between senders recipients).eval view = .ok (t.between senders recipients) := by
  rw [between, eval, eval_listed senders (some t.sender) rfl hview,
    eval_listed recipients t.recipient rfl hview, Transaction.between]
  cases Text.listed senders (some t.sender) <;> rfl

end Matching

/-- A journal and another one that also has visits of transactions that do not pass, in which nothing
happens. -/
inductive Journal.Idles (passes : Transaction → Bool) : Journal → Journal → Prop where
  | refl (j : Journal) : Idles passes j j
  | entry {j k : Journal} (e : JournalEntry) : Idles passes j k →
      Idles passes (j ++ [e]) (k ++ [e])
  | idle {j k : Journal} {t : Transaction} : passes t = false → Idles passes j k →
      Idles passes j (k ++ [.entered (.transaction t), .left .transaction none])

/-- Two states that differ in idle visits, with no transaction current. -/
def RunState.Idles (passes : Transaction → Bool) (s t : RunState) : Prop :=
  s.Apart (fun x y => x = none ∧ y = none) (Journal.Idles passes) t

theorem RunState.Idles.visit {passes : Transaction → Bool} {s u : RunState} (h : s.Idles passes u)
    {t : Transaction} (ht : passes t = false) (d : Deed) :
    s.Idles passes (((u.enter (.transaction t)).log d).exit .transaction none) := by
  obtain ⟨x, j, e, ⟨hx, -⟩, hj, rfl⟩ := h.exists_eq
  refine ⟨⟨hx, rfl⟩, ?_, rfl⟩
  show Journal.Idles passes s.journal
    ((j ++ [.entered (.transaction t)]) ++ [.left .transaction none])
  rw [List.append_assoc]
  exact hj.idle ht

section Conditions
variable {senders recipients : List String}

/-- With criteria that list addresses, exactly the transactions between these are visited. -/
theorem TransactionScope.visitAll_listed (body : Run Unit) (ts : List Transaction) :
    visitAll (.listed senders) (.listed recipients) body ts =
      visitAll .any .any body (ts.filter (Transaction.between senders recipients)) := by
  induction ts with
  | nil => rfl
  | cons t ts ih =>
    have hpasses : Run.inView (passes (.listed senders) (.listed recipients) t) =
        (return t.between senders recipients) := by
      rw [Run.inView]
      simp only [passes_listed]
      rfl
    rw [visitAll, hpasses, pure_bind, ih]
    cases ht : t.between senders recipients with
    | true =>
      rw [List.filter_cons_of_pos ht, visitAll_any]
      rfl
    | false =>
      rw [List.filter_cons_of_neg (ne_true_of_eq_false ht)]
      rfl

variable (looks : Nat) {body : List Instruction}

theorem executeAll_between {s : RunState} {t : Transaction} (hs : s.transaction = some t) :
    (executeAll looks [.filter (.condition (.between senders recipients)) body]).run s =
      (if t.between senders recipients then executeAll looks body else pure ()).run
        (s.log (.began (.filter (.condition (.between senders recipients)) body) s.toView)) := by
  rw [executeAll, executeAll, bind_pure_unit, Instruction.execute, Filter.run]
  show (Run.ofExcept (Predicate.eval s.toView _) >>= _ : Run Unit).run (s.log _) = _
  rw [Predicate.eval_between hs]
  rfl

theorem TransactionScope.endAlike_passing {t : Transaction}
    (ht : t.between senders recipients = true) {s u : RunState}
    (h : s.Idles (Transaction.between senders recipients) u) :
    Run.EndAlike (RunState.Idles (Transaction.between senders recipients))
      ((Run.guarded (context t) (visit (executeAll looks body) t)).run s)
      ((Run.guarded (context t) (visit (executeAll looks
        [.filter (.condition (.between senders recipients)) body]) t)).run u) := by
  have hagree := (Run.inherits_agree (Fragment.overlooks_journal .all
    (J := Journal.Idles (Transaction.between senders recipients)) .entry)).executeAll looks
      (Instruction.withinAll_all body)
  have hbody : Run.EndAlike (RunState.Apart Eq (Journal.Idles (Transaction.between senders recipients)))
      ((executeAll looks body).run (s.enter (.transaction t)))
      ((executeAll looks [.filter (.condition (.between senders recipients)) body]).run
        (u.enter (.transaction t))) := by
    obtain ⟨x, j, d, -, hj, rfl⟩ := h.exists_eq
    rw [executeAll_between looks rfl, if_pos ht]
    exact hagree _ _ ⟨rfl, hj.entry _, rfl⟩
  have hvisit := hbody.visit (.transaction t) t.cursor_ne_block fun v w failure
    (hvw : v.Apart Eq (Journal.Idles (Transaction.between senders recipients)) w) =>
      hvw.exit (U := fun x y => x = none ∧ y = none) .entry .transaction failure ⟨rfl, rfl⟩
  exact hvisit.guarded (context t)

theorem TransactionScope.run_visit_idle {t : Transaction}
    (ht : t.between senders recipients = false) (u : RunState) :
    ∃ d, (Run.guarded (context t) (visit (executeAll looks
      [.filter (.condition (.between senders recipients)) body]) t)).run u =
        some (.ok (), ((u.enter (.transaction t)).log d).exit .transaction none) := by
  refine ⟨.began (.filter (.condition (.between senders recipients)) body)
    (u.enter (.transaction t)).toView, ?_⟩
  rw [Run.guarded, Run.run_bind, Run.run_outcome, visit,
    Run.run_resume_visiting (.transaction t) t.cursor_ne_block, executeAll_between looks rfl,
    if_neg (ne_true_of_eq_false ht)]
  rfl

theorem TransactionScope.endAlike_between (ts : List Transaction) {s u : RunState}
    (h : s.Idles (Transaction.between senders recipients) u) :
    Run.EndAlike (RunState.Idles (Transaction.between senders recipients))
      ((visitAll (.listed senders) (.listed recipients) (executeAll looks body) ts).run s)
      ((visitAll .any .any
        (executeAll looks [.filter (.condition (.between senders recipients)) body]) ts).run u) := by
  rw [visitAll_listed]
  induction ts generalizing s u with
  | nil => exact .some ⟨rfl, h⟩
  | cons t ts ih =>
    cases ht : t.between senders recipients with
    | true =>
      rw [List.filter_cons_of_pos ht, visitAll_any, visitAll_any]
      exact (endAlike_passing looks ht h).bind fun _ v w hvw => ih hvw
    | false =>
      -- only the second run visits it
      obtain ⟨d, hrun⟩ := run_visit_idle looks ht u
      rw [List.filter_cons_of_neg (ne_true_of_eq_false ht), visitAll_any, Run.run_bind _ _ u, hrun]
      exact ih (h.visit ht d)

end Conditions

/-- A transaction filter that lists senders and recipients runs its body for the transactions between
them, one after the other, and so does a condition in a filter of all transactions. Nothing tells the
two apart but the idle visits of the other transactions. -/
theorem listed_criteria_as_condition (looks : Nat) (senders recipients : List String)
    (body : List Instruction) {s : RunState} {b : Block} (hblock : s.block = some b)
    (hnone : s.transaction = none) :
    ((Instruction.filter (.transactions (.listed senders) (.listed recipients)) body).execute
        looks).run s = (TransactionScope.visitAll .any .any (executeAll looks body)
          (b.transactions.filter (Transaction.between senders recipients))).run s ∧
    Run.EndAlike (fun t u => u = { t with journal := u.journal, deeds := u.deeds } ∧
        Journal.Idles (Transaction.between senders recipients) t.journal u.journal)
      (((Instruction.filter (.transactions (.listed senders) (.listed recipients)) body).execute
        looks).run s)
      (((Instruction.filter (.transactions .any .any)
        [.filter (.condition (.between senders recipients)) body]).execute looks).run s) := by
  rw [Instruction.execute, Instruction.execute, Filter.run, Filter.run, TransactionScope.run,
    TransactionScope.run, Run.run_get_bind, Run.run_get_bind, hblock]
  refine ⟨congrArg (fun x : Run Unit => x.run s)
    (TransactionScope.visitAll_listed _ _), ?_⟩
  have hstart : s.Idles (Transaction.between senders recipients) s :=
    ⟨⟨hnone, hnone⟩, .refl _, rfl⟩
  refine (TransactionScope.endAlike_between looks b.transactions hstart).imp fun t u htu => ?_
  obtain ⟨x, j, d, ⟨hx, rfl⟩, hj, rfl⟩ := htu.exists_eq
  refine ⟨?_, hj⟩
  rw [RunState.apart, ← hx]

/-- The visit of a block in which an address sends two transactions to another one, in different
letters, and makes a contract. -/
def exchangeVisit : RunState :=
  (RunState.start {} {} {}).enter (.block
    { number := 1
      transactions := [{ hash := "t", sender := "0xA", recipient := some "0xb" },
        { hash := "u", sender := "0xa" },
        { hash := "v", sender := "0xa", recipient := some "0xB" },
        { hash := "w", sender := "0xb", recipient := some "0xa" }] })

theorem listed_criteria_as_condition_exchangeVisit :
    ∃ t u, ((Instruction.filter (.transactions (.listed ["0xa"]) (.listed ["0xc", "0xb"]))
        [fixedLine "seen"]).execute 0).run exchangeVisit = some (.ok (), t) ∧
      t.outputs.lines.lines.staged = ["seen", "seen"] ∧
      ((Instruction.filter (.transactions .any .any)
        [.filter (.condition (.between ["0xa"] ["0xc", "0xb"])) [fixedLine "seen"]]).execute 0).run
          exchangeVisit = some (.ok (), u) ∧ u.outputs = t.outputs := by
  obtain ⟨t, hrun, hstaged⟩ : ∃ t, ((Instruction.filter (.transactions (.listed ["0xa"])
      (.listed ["0xc", "0xb"])) [fixedLine "seen"]).execute 0).run exchangeVisit = some (.ok (), t) ∧
        t.outputs.lines.lines.staged = ["seen", "seen"] := ⟨_, rfl, rfl⟩
  have hends := (listed_criteria_as_condition 0 ["0xa"] ["0xc", "0xb"] [fixedLine "seen"]
    (s := exchangeVisit) rfl rfl).2
  rcases hends.cases with ⟨hnone, -⟩ | ⟨result, t', u, hlisted, hcondition, hsame, -⟩
  · cases hnone.symm.trans hrun
  · cases hlisted.symm.trans hrun
    rw [hsame] at hcondition
    exact ⟨t, _, hrun, hstaged, hcondition, rfl⟩

end ChainQuery
