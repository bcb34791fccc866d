import ChainQuery.Node.Convert
import ChainQuery.Proofs.Node.Quantities
import ChainQuery.Proofs.Results
import Mathlib.Data.List.Nodup

/-!
# Blocks from answers

What becomes of the answers of a node. A number in an answer is read as the one that it denotes or
refused, except that the time of a block wraps. Log entries come to the transactions with their hashes,
each of them once, in the order of their indices.
-/

namespace ChainQuery

section Fields

/-- The numbers of a block, by their names in an answer. -/
def Block.quantities (b : Block) : List (String × Option Int) :=
  [("number", some b.number), ("timestamp", some b.timestamp), ("gasUsed", some b.gasUsed),
    ("gasLimit", some b.gasLimit)]

/-- The numbers of a transaction. The amount is the one that its text denotes. -/
def Transaction.quantities (t : Transaction) : List (String × Option Int) :=
  [("blockNumber", some t.blockNumber), ("transactionIndex", some t.transactionIndex),
    ("value", Text.readSigned? t.amount.toList), ("gas", some t.gas), ("gasPrice", some t.gasPrice),
    ("nonce", some t.nonce)]

def LogEntry.quantities (l : LogEntry) : List (String × Option Int) :=
  [("blockNumber", some l.blockNumber), ("transactionIndex", some l.transactionIndex),
    ("logIndex", some l.logIndex)]

namespace Node

open Quantity (Denotes)

variable {j : Json} {name s : String} {n m : Nat}

theorem textField_eq_ok : textField j name = .ok s ↔ j.field name = .string s := by
  unfold textField
  cases j.field name <;> simp [Json.string?]

theorem textFieldOr_of_field (h : j.field name = .string s) (default : String) :
    textFieldOr j name default = s := by
  rw [textFieldOr, h]
  rfl

theorem eq_of_field (hfield : j.field name = .string s) (hs : Denotes s n) {default : String}
    (h : Quantity.read (textFieldOr j name default) = .ok m) : m = n := by
  rw [textFieldOr_of_field hfield] at h
  exact Quantity.eq_of_read hs h

theorem eq_of_field64 (hfield : j.field name = .string s) (hs : Denotes s n) {text : String}
    (htext : textField j name = .ok text) (h : Quantity.read64 text = .ok m) :
    m = n ∧ n < Nat.pow 2 64 := by
  obtain rfl : s = text := Json.string.inj (hfield.symm.trans (textField_eq_ok.mp htext))
  exact Quantity.eq_of_read64 hs h

/-- A number of 64 bits is another one with a sign just if its first bit is set. -/
theorem wrapSigned_eq_iff (h : n < Nat.pow 2 64) : wrapSigned n = n ↔ ¬ Nat.pow 2 63 ≤ n := by
  unfold wrapSigned
  simp only [Nat.pow_eq, Nat.reducePow, Int.ofNat_eq_natCast, Int.bmod_def] at h ⊢
  omega

theorem readBlock_quantities (hfield : j.field name = .string s) (hs : Denotes s n) {b : Block}
    (h : readBlock j = .ok b) {i : Option Int} (hi : (name, i) ∈ b.quantities) :
    i = some (n : Int) ↔ ¬(name = "timestamp" ∧ Nat.pow 2 63 ≤ n) := by
  simp only [readBlock, except_bind_eq_ok] at h
  obtain ⟨transactions, -, numberText, hnumberText, number, hnumber, hash, -, parentHash, -,
    secondsText, hsecondsText, seconds, hseconds, gasUsed, hgasUsed, gasLimit, hgasLimit, h⟩ := h
  cases h
  simp only [Block.quantities, List.mem_cons, Prod.mk.injEq, List.not_mem_nil, or_false] at hi
  obtain ⟨rfl, rfl⟩ | ⟨rfl, rfl⟩ | ⟨rfl, rfl⟩ | ⟨rfl, rfl⟩ := hi
  · simp [(eq_of_field64 hfield hs hnumberText hnumber).1]
  · obtain ⟨rfl, hwidth⟩ := eq_of_field64 hfield hs hsecondsText hseconds
    simp [wrapSigned_eq_iff hwidth]
  · simp [eq_of_field hfield hs hgasUsed]
  · simp [eq_of_field hfield hs hgasLimit]

theorem readBlock_transactions {b : Block} (h : readBlock j = .ok b) :
    List.Forall₂ (fun item t => readTransaction item = .ok t)
      (((j.field "transactions").array?).getD []) b.transactions := by
  simp only [readBlock, except_bind_eq_ok] at h
  obtain ⟨transactions, htransactions, _, -, _, -, _, -, _, -, _, -, _, -, _, -, _, -, h⟩ := h
  cases h
  exact except_mapM_eq_ok.mp htransactions

theorem readTransaction_quantities (hfield : j.field name = .string s) (hs : Denotes s n)
    {t : Transaction} (h : readTransaction j = .ok t) {i : Option Int}
    (hi : (name, i) ∈ t.quantities) : i = some (n : Int) := by
  unfold readTransaction at h
  split at h
  · cases h
  · simp only [except_bind_eq_ok] at h
    obtain ⟨hash, -, blockText, hblockText, blockNumber, hblock, indexText, hindexText, index, hindex,
      sender, -, amount, hamount, gas, hgas, gasPrice, hgasPrice, nonce, hnonce, h⟩ := h
    cases h
    simp only [Transaction.quantities, List.mem_cons, Prod.mk.injEq, List.not_mem_nil, or_false] at hi
    obtain ⟨rfl, rfl⟩ | ⟨rfl, rfl⟩ | ⟨rfl, rfl⟩ | ⟨rfl, rfl⟩ | ⟨rfl, rfl⟩ | ⟨rfl, rfl⟩ := hi
    · rw [(eq_of_field64 hfield hs hblockText hblock).1]
    · rw [(eq_of_field64 hfield hs hindexText hindex).1]
    · rw [textFieldOr_of_field hfield] at hamount
      rw [Quantity.eq_of_readDecimal hs hamount]
      exact Text.readSigned?_signedDecimal n
    · rw [eq_of_field hfield hs hgas]
    · rw [eq_of_field hfield hs hgasPrice]
    · rw [textFieldOr_of_field hfield] at hnonce
      rw [(Quantity.eq_of_read64 hs hnonce).1]

theorem readLogEntry_quantities (hfield : j.field name = .string s) (hs : Denotes s n)
    {l : LogEntry} (h : readLogEntry j = .ok l) {i : Option Int} (hi : (name, i) ∈ l.quantities) :
    i = some (n : Int) := by
  unfold readLogEntry at h
  split at h
  · cases h
  · simp only [except_bind_eq_ok] at h
    obtain ⟨topics, -, address, -, data, -, blockText, hblockText, blockNumber, hblock,
      transactionHash, -, indexText, hindexText, index, hindex, logText, hlogText, logIndex, hlog,
      h⟩ := h
    cases h
    simp only [LogEntry.quantities, List.mem_cons, Prod.mk.injEq, List.not_mem_nil, or_false] at hi
    obtain ⟨rfl, rfl⟩ | ⟨rfl, rfl⟩ | ⟨rfl, rfl⟩ := hi
    · rw [(eq_of_field64 hfield hs hblockText hblock).1]
    · rw [(eq_of_field64 hfield hs hindexText hindex).1]
    · rw [(eq_of_field64 hfield hs hlogText hlog).1]

/-- Where an answer has a number, it is refused or read as that number, except that the time of a block
is read wrong from 2 ^ 63 seconds on. The transactions of a block are read alike. -/
theorem quantities_read_iff (hfield : j.field name = .string s) (hs : Denotes s n) :
    (∀ b, readBlock j = .ok b →
      List.Forall₂ (fun item t => readTransaction item = .ok t)
        (((j.field "transactions").array?).getD []) b.transactions ∧
      ∀ i, (name, i) ∈ b.quantities →
        (i = some (n : Int) ↔ ¬(name = "timestamp" ∧ Nat.pow 2 63 ≤ n))) ∧
    (∀ t, readTransaction j = .ok t → ∀ i, (name, i) ∈ t.quantities → i = some (n : Int)) ∧
    ∀ l, readLogEntry j = .ok l → ∀ i, (name, i) ∈ l.quantities → i = some (n : Int) :=
  ⟨fun _ h => ⟨readBlock_transactions h, fun _ => readBlock_quantities hfield hs h⟩,
    fun _ h _ => readTransaction_quantities hfield hs h,
    fun _ h _ => readLogEntry_quantities hfield hs h⟩

def emptyBlock (timestamp : String) : Json :=
  .object [("number", .string "0x10"), ("hash", .string "0xb10c"), ("parentHash", .string "0xb10b"),
    ("timestamp", .string timestamp)]

theorem time_of_emptyBlock : ∃ b, readBlock (emptyBlock "0x06553F100") = .ok b ∧
    b.timestamp = 1700000000 := by
  have hs : Denotes "0x06553F100" 1700000000 :=
    ⟨_, [0, 6, 5, 5, 3, 15, 1, 0, 0], rfl, by decide, by decide, by decide⟩
  have hfield : (emptyBlock "0x06553F100").field "timestamp" = .string "0x06553F100" := rfl
  obtain ⟨b, hb⟩ : ∃ b, readBlock (emptyBlock "0x06553F100") = .ok b := ⟨_, rfl⟩
  have htime := ((quantities_read_iff hfield hs).1 b hb).2 (some b.timestamp) (by simp [Block.quantities])
  exact ⟨b, hb, Option.some.inj (htime.mpr (by decide))⟩

theorem time_wraps : Denotes "0x8000000000000000" 9223372036854775808 ∧
    ∃ b, readBlock (emptyBlock "0x8000000000000000") = .ok b ∧
      b.timestamp = -9223372036854775808 :=
  ⟨⟨_, 8 :: List.replicate 15 0, rfl, by decide, by decide, by decide⟩, _, rfl, by decide⟩

end Node
end Fields

section Attachment

/-- Whether an entry has the hash of a transaction, in letters of either case. -/
def Transaction.emitted (t : Transaction) (l : LogEntry) : Bool :=
  Text.equalFold l.transactionHash t.hash

theorem Transaction.equalFold_of_emitted {t u : Transaction} {l : LogEntry}
    (ht : t.emitted l = true) (hu : u.emitted l = true) : Text.equalFold t.hash u.hash = true :=
  Text.equalFold_trans ((Text.equalFold_comm _ _).trans ht) hu

namespace Node

/-- The entries of a list in the order of their indices, those with the same index as they were. -/
structure IndexSorted (sorted logs : List LogEntry) : Prop where
  perm : sorted.Perm logs
  ordered : sorted.Pairwise fun l m => l.logIndex ≤ m.logIndex
  stable : ∀ i, sorted.filter (·.logIndex = i) = logs.filter (·.logIndex = i)

def precedes (l m : LogEntry) : Bool :=
  l.logIndex ≤ m.logIndex

theorem precedes_trans (a b c : LogEntry) (hab : precedes a b = true) (hbc : precedes b c = true) :
    precedes a c = true :=
  decide_eq_true (Nat.le_trans (of_decide_eq_true hab) (of_decide_eq_true hbc))

theorem precedes_total (a b : LogEntry) : (precedes a b || precedes b a) = true := by
  simp [precedes, Nat.le_total]

theorem indexSorted_mergeSort (logs : List LogEntry) : IndexSorted (logs.mergeSort precedes) logs where
  perm := List.mergeSort_perm logs precedes
  ordered := (List.pairwise_mergeSort precedes_trans precedes_total logs).imp of_decide_eq_true
  stable i := by
    -- entries with one index are in order already, so that sorting keeps them as they are
    have hordered : (logs.filter (·.logIndex = i)).Pairwise fun l m => precedes l m = true := by
      refine List.pairwise_of_forall_mem_list fun l hl m hm => decide_eq_true ?_
      have hindex {x : LogEntry} (hx : x ∈ logs.filter (·.logIndex = i)) : x.logIndex = i :=
        of_decide_eq_true (List.mem_filter.mp hx).2
      exact Nat.le_of_eq ((hindex hl).trans (hindex hm).symm)
    have hkept := (List.sublist_mergeSort precedes_trans precedes_total hordered
      List.filter_sublist).filter (·.logIndex = i)
    rw [List.filter_filter] at hkept
    simp only [Bool.and_self] at hkept
    exact (hkept.eq_of_length ((List.mergeSort_perm logs precedes).filter _).length_eq.symm).symm

theorem IndexSorted.filter {sorted logs : List LogEntry} (h : IndexSorted sorted logs)
    (p : LogEntry → Bool) : IndexSorted (sorted.filter p) (logs.filter p) where
  perm := h.perm.filter p
  ordered := h.ordered.filter p
  stable i := by rw [List.filter_comm, h.stable i, List.filter_comm]

theorem IndexSorted.unique {sorted sorted' logs logs' : List LogEntry} (h : IndexSorted sorted logs)
    (h' : IndexSorted sorted' logs') (hperm : logs'.Perm logs)
    (hindices : (logs.map LogEntry.logIndex).Nodup) : sorted' = sorted := by
  refine List.Perm.eq_of_pairwise ?_ h'.ordered h.ordered (h'.perm.trans (hperm.trans h.perm.symm))
  intro l m hl hm hlm hml
  have hmem : l ∈ logs := hperm.subset (h'.perm.subset hl)
  exact List.inj_on_of_nodup_map hindices hmem (h.perm.subset hm) (Nat.le_antisymm hlm hml)

variable {b : Block} {t : Transaction} {sorted logs : List LogEntry}

theorem attachTo_eq (sorted : List LogEntry) (t : Transaction) : attachTo sorted t =
    { t with logs := if sorted.filter t.emitted = [] then t.logs else sorted.filter t.emitted } := by
  unfold attachTo
  rcases hown : sorted.filter fun l => Text.equalFold l.transactionHash t.hash with _ | ⟨l, own⟩
  · have hnone : sorted.filter t.emitted = [] := hown
    rw [hown, if_pos hnone]
  · have hsome : sorted.filter t.emitted = l :: own := hown
    rw [hown, hsome, if_neg (List.cons_ne_nil l own)]

theorem attachTo_attachTo (sorted : List LogEntry) (t : Transaction) :
    attachTo sorted (attachTo sorted t) = attachTo sorted t := by
  rw [attachTo_eq sorted t, attachTo_eq]
  show { t with logs := if sorted.filter t.emitted = [] then _ else sorted.filter t.emitted } = _
  by_cases hown : sorted.filter t.emitted = []
  · simp only [if_pos hown]
  · simp only [if_neg hown]

theorem attachTo_of_empty (h : t.logs = []) (sorted : List LogEntry) :
    attachTo sorted t = { t with logs := sorted.filter t.emitted } := by
  rw [attachTo_eq, h]
  split
  · next hnone => rw [hnone]
  · rfl

theorem attachLogs_attachLogs (b : Block) (logs : List LogEntry) :
    attachLogs (attachLogs b logs) logs = attachLogs b logs := by
  show { b with transactions := (b.transactions.map _).map _ } = _
  rw [List.map_map]
  refine congrArg (fun ts => { b with transactions := ts }) (List.map_congr_left fun t _ => ?_)
  exact attachTo_attachTo (logs.mergeSort precedes) t

theorem attachLogs_perm {logs' : List LogEntry} (hperm : logs'.Perm logs)
    (hindices : (logs.map LogEntry.logIndex).Nodup) (b : Block) :
    attachLogs b logs' = attachLogs b logs := by
  have hsame : logs'.mergeSort precedes = logs.mergeSort precedes :=
    (indexSorted_mergeSort logs).unique (indexSorted_mergeSort logs') hperm hindices
  show { b with transactions := b.transactions.map (attachTo (logs'.mergeSort precedes)) } = _
  rw [hsame]
  rfl

/-- When no two transactions have the same hash, the entries of the transactions are those that have the
hash of some transaction. -/
theorem perm_flatMap_filter {ts : List Transaction} (logs : List LogEntry)
    (hdistinct : ts.Pairwise fun t u => Text.equalFold t.hash u.hash = false) :
    (ts.flatMap fun t => logs.filter t.emitted).Perm (logs.filter fun l => ts.any (·.emitted l)) := by
  induction ts with
  | nil => simp
  | cons t ts ih =>
    obtain ⟨ht, hts⟩ := List.pairwise_cons.mp hdistinct
    have hothers : ∀ l : LogEntry, t.emitted l = true → ts.any (·.emitted l) = false := by
      intro l hl
      refine List.any_eq_false.mpr fun u hu hemitted => ?_
      have hsame := Transaction.equalFold_of_emitted hl hemitted
      rw [ht u hu] at hsame
      cases hsame
    let matching := logs.filter fun l => t.emitted l || ts.any (·.emitted l)
    have hown : matching.filter t.emitted = logs.filter t.emitted := by
      rw [List.filter_filter]
      refine List.filter_congr fun l _ => ?_
      cases t.emitted l <;> simp
    have hrest : matching.filter (!t.emitted ·) = logs.filter fun l => ts.any (·.emitted l) := by
      rw [List.filter_filter]
      refine List.filter_congr fun l _ => ?_
      cases hl : t.emitted l with
      | true => rw [hothers l hl]; rfl
      | false => simp
    rw [List.flatMap_cons, ← hown]
    refine List.Perm.trans ?_ (List.filter_append_perm t.emitted matching)
    rw [hrest]
    exact (ih hts).append_left _

/-- The entries of a list come to the transactions with their hashes, in the order of their indices, each
of them once, and nothing else changes. They come again without a change, and if their indices differ,
then whatever order they are listed in. -/
theorem logs_attached (hempty : ∀ t ∈ b.transactions, t.logs = [])
    (hdistinct : b.transactions.Pairwise fun t u => Text.equalFold t.hash u.hash = false)
    (logs : List LogEntry) :
    ∃ ts : List Transaction, attachLogs b logs = { b with transactions := ts } ∧
      List.Forall₂ (fun t t' => t' = { t with logs := t'.logs } ∧
        IndexSorted t'.logs (logs.filter t.emitted)) b.transactions ts ∧
      (ts.flatMap Transaction.logs).Perm
        (logs.filter fun l => b.transactions.any (·.emitted l)) ∧
      attachLogs (attachLogs b logs) logs = attachLogs b logs ∧
      ∀ logs', logs'.Perm logs → (logs.map LogEntry.logIndex).Nodup →
        attachLogs b logs' = attachLogs b logs := by
  let sorted := logs.mergeSort precedes
  have hattached : ∀ t ∈ b.transactions,
      attachTo sorted t = { t with logs := sorted.filter t.emitted } :=
    fun t ht => attachTo_of_empty (hempty t ht) sorted
  refine ⟨b.transactions.map (attachTo sorted), rfl, ?_, ?_, attachLogs_attachLogs b logs,
    fun logs' hperm hindices => attachLogs_perm hperm hindices b⟩
  · refine List.forall₂_map_right_iff.mpr (List.forall₂_same.mpr fun t ht => ?_)
    rw [hattached t ht]
    exact ⟨rfl, (indexSorted_mergeSort logs).filter t.emitted⟩
  · rw [List.flatMap_map, List.flatMap_congr fun t ht => congrArg Transaction.logs (hattached t ht)]
    exact (perm_flatMap_filter sorted hdistinct).trans ((indexSorted_mergeSort logs).perm.filter _)

def twoTransactions : Block :=
  { transactions := [{ hash := "0xt1" }, { hash := "0xt2" }] }

def twoEntries : List LogEntry :=
  [{ transactionHash := "0xt2", logIndex := 3 }, { transactionHash := "0xT2", logIndex := 1 }]

theorem twoEntries_attached :
    (∀ t ∈ twoTransactions.transactions, t.logs = []) ∧
    (twoTransactions.transactions.Pairwise fun t u => Text.equalFold t.hash u.hash = false) ∧
    ∃ ts : List Transaction, attachLogs twoTransactions twoEntries = { twoTransactions with transactions := ts } ∧
      (ts.flatMap Transaction.logs).Perm twoEntries := by
  have hempty : ∀ t ∈ twoTransactions.transactions, t.logs = [] := by decide
  have hdistinct : twoTransactions.transactions.Pairwise fun t u =>
      Text.equalFold t.hash u.hash = false := by decide
  obtain ⟨ts, hts, -, hperm, -⟩ := logs_attached hempty hdistinct twoEntries
  exact ⟨hempty, hdistinct, ts, hts, hperm⟩

end Node
end Attachment
end ChainQuery
