import ChainQuery.Execution.Journal

/-!
# What is decided about staged items

The end of a block or of a run decides about every item that is still staged then: it is kept if the
body or the run has not failed, and dropped if it has.
-/

namespace ChainQuery

namespace JournalEntry

/-- The decision of an entry about what is staged: the failure, if there is one. -/
def decision? : JournalEntry → Option (Option ExecutionError)
  | left .block failure => some failure
  | closed failure => some failure
  | _ => none

def item? : JournalEntry → Option OutputItem
  | staged item => some item
  | _ => none

end JournalEntry

namespace Journal

def items (j : Journal) : List OutputItem :=
  j.filterMap JournalEntry.item?

def decision? (j : Journal) : Option (Option ExecutionError) :=
  j.findSome? JournalEntry.decision?

/-- The items without a decision after them. -/
def waiting : Journal → List OutputItem
  | [] => []
  | e :: j => if decision? j = none then e.item?.toList ++ waiting j else waiting j

/-- The items for which the next decision is not a failure. -/
def kept : Journal → List OutputItem
  | [] => []
  | e :: j => if decision? j = some none then e.item?.toList ++ kept j else kept j

theorem decision?_append (j k : Journal) : decision? (j ++ k) = (decision? j).or (decision? k) :=
  List.findSome?_append

theorem kept_eq_nil {j : Journal} (h : decision? j = none) : kept j = [] := by
  induction j with
  | nil => rfl
  | cons e j ih =>
    rw [decision?, List.findSome?_cons] at h
    split at h
    · cases h
    · have hj : decision? j = none := h
      rw [kept, hj, if_neg nofun, ih hj]

theorem waiting_append (j k : Journal) :
    waiting (j ++ k) = (if decision? k = none then waiting j else []) ++ waiting k := by
  induction j with
  | nil => simp [waiting]
  | cons e j ih =>
    rw [List.cons_append, waiting, waiting, ih, decision?_append]
    rcases decision? j with _ | f
    · rcases decision? k with _ | g
      · simp
      · simp
    · simp

theorem kept_append (j k : Journal) :
    kept (j ++ k) = kept j ++ (if decision? k = some none then waiting j else []) ++ kept k := by
  induction j with
  | nil => simp [kept, waiting]
  | cons e j ih =>
    rw [List.cons_append, kept, kept, waiting, ih, decision?_append]
    rcases hj : decision? j with _ | f
    · rw [kept_eq_nil hj]
      by_cases hk : decision? k = some none
      · simp [hk]
      · simp [hk]
    · by_cases hf : f = none
      · simp [hf]
      · simp [hf]

theorem decision?_singleton (e : JournalEntry) : decision? [e] = e.decision? := by
  rw [decision?, List.findSome?_singleton]

theorem kept_concat (j : Journal) (e : JournalEntry) :
    kept (j ++ [e]) = if e.decision? = some none then kept j ++ waiting j else kept j := by
  have hkept : kept [e] = [] := rfl
  rw [kept_append, decision?_singleton, hkept]
  split
  · rw [List.append_nil]
  · rw [List.append_nil, List.append_nil]

theorem waiting_concat (j : Journal) (e : JournalEntry) :
    waiting (j ++ [e]) = if e.decision? = none then waiting j ++ e.item?.toList else [] := by
  have hwaiting : waiting [e] = e.item?.toList := List.append_nil _
  rw [waiting_append, decision?_singleton, hwaiting]
  split
  · rfl
  · next hdecision =>
    have hitem : e.item? = none := by
      cases e with
      | staged item => exact absurd rfl hdecision
      | _ => rfl
    rw [hitem]
    rfl

end Journal
end ChainQuery
