import ChainQuery.Proofs.Execution.Traces

/-!
# Who has staged an item

The number of blocks that are open when an item is staged tells which body has staged it: none for
the program itself, and more than at the start of a visit for the body of that visit.
-/

namespace ChainQuery

def JournalEntry.level (n : Nat) : JournalEntry → Nat
  | entered (.block _) => n + 1
  | left .block _ => n - 1
  | _ => n

namespace Journal

def level (n : Nat) (j : Journal) : Nat :=
  j.foldl JournalEntry.level n

/-- The items without a decision after them, each with the number of blocks that were open. -/
def owned (n : Nat) : Journal → List (Nat × OutputItem)
  | [] => []
  | e :: j =>
    (if decision? j = none then e.item?.toList.map fun item => (n, item) else []) ++
      owned (e.level n) j

theorem level_cons (n : Nat) (e : JournalEntry) (j : Journal) :
    level n (e :: j) = level (e.level n) j := rfl

theorem level_append (n : Nat) (j k : Journal) : level n (j ++ k) = level (level n j) k :=
  List.foldl_append

theorem owned_append (n : Nat) (j k : Journal) :
    owned n (j ++ k) = (if decision? k = none then owned n j else []) ++ owned (level n j) k := by
  induction j generalizing n with
  | nil => simp [owned, level]
  | cons e j ih =>
    rw [List.cons_append, owned, owned, ih, decision?_append, level_cons]
    rcases hk : decision? k with _ | f
    · simp
    · simp

theorem le_level {j : Journal} (n : Nat) (h : decision? j = none) : n ≤ level n j := by
  induction j generalizing n with
  | nil => exact Nat.le_refl n
  | cons e j ih =>
    rw [decision?, List.findSome?_cons] at h
    split at h
    · cases h
    · next hdecision =>
      have hstep : n ≤ e.level n := by
        cases e with
        | entered x => cases x <;> simp [JournalEntry.level]
        | left c failure =>
          cases c with
          | block => cases hdecision
          | _ => exact Nat.le_refl n
        | _ => exact Nat.le_refl n
      exact Nat.le_trans hstep (ih (e.level n) h)

/-- An item that waits belongs to the program or to a body that is still open. -/
theorem owned_le_level {n : Nat} {j : Journal} {w : Nat × OutputItem} (h : w ∈ owned n j) :
    w.1 ≤ level n j := by
  induction j generalizing n with
  | nil => cases h
  | cons e j ih =>
    rw [owned] at h
    rcases List.mem_append.mp h with h | h
    · split at h
      · next hdecision =>
        obtain ⟨item, hitem, rfl⟩ := List.mem_map.mp h
        have hlevel : e.level n = n := by
          cases e with
          | staged _ => rfl
          | _ => cases hitem
        rw [level_cons, hlevel]
        exact le_level n hdecision
      · cases h
    · exact ih h

end Journal

/-- The number of open blocks is the same after a journal of closed visits, and its items are staged
while at least as many are open. -/
theorem Nested.level_owned {m : Nat} {j : Journal} (h : Nested .block m j) (n : Nat) :
    j.level n = n ∧ ∀ w ∈ j.owned n, n ≤ w.1 := by
  induction h generalizing n with
  | nil => exact ⟨rfl, nofun⟩
  | staged item =>
    refine ⟨rfl, fun w hw => ?_⟩
    cases List.mem_singleton.mp hw
    exact Nat.le_refl n
  | moved path => exact ⟨rfl, nofun⟩
  | append _ _ ihj ihk =>
    refine ⟨?_, fun w hw => ?_⟩
    · rw [Journal.level_append, (ihj n).1, (ihk n).1]
    · rw [Journal.owned_append, (ihj n).1] at hw
      rcases List.mem_append.mp hw with hw | hw
      · split at hw
        · exact (ihj n).2 w hw
        · cases hw
      · exact (ihk n).2 w hw
  | @inner _ e body failure he _ ih =>
    cases e with
    | block b =>
      refine ⟨?_, fun w hw => ?_⟩
      · rw [Journal.visit, Journal.level_cons, Journal.level_append, JournalEntry.level, (ih _).1]
        rfl
      · rw [Journal.visit, Journal.owned, Journal.owned_append] at hw
        simp [Journal.decision?_append, Journal.decision?_singleton, JournalEntry.decision?,
          Element.cursor, Journal.owned, JournalEntry.item?] at hw
    | _ => cases he
  | @outer _ e body failure he _ ih =>
    have hlevel : ∀ n, (JournalEntry.entered e).level n = n := by
      cases e with
      | block b => exact absurd rfl he
      | _ => exact fun _ => rfl
    have hleft : ∀ n, (JournalEntry.left e.cursor failure).level n = n := by
      cases e with
      | block b => exact absurd rfl he
      | _ => exact fun _ => rfl
    refine ⟨?_, fun w hw => ?_⟩
    · rw [Journal.visit, Journal.level_cons, Journal.level_append, hlevel, (ih _).1]
      exact hleft n
    · rw [Journal.visit, Journal.owned, Journal.owned_append, hlevel] at hw
      have hnone : Journal.owned (Journal.level n body) [.left e.cursor failure] = [] := by
        rw [Journal.owned]
        split <;> rfl
      rw [hnone, List.append_nil] at hw
      rcases List.mem_append.mp hw with hw | hw
      · split at hw <;> cases hw
      · split at hw
        · exact (ih n).2 w hw
        · cases hw

end ChainQuery
