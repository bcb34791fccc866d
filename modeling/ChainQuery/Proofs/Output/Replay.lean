import ChainQuery.Proofs.Execution.Decisions

/-!
# Replaying a journal

What the entries of a journal do to the outputs. A run does nothing else to them, so that its outputs
are those of its start after a replay of its journal.
-/

namespace ChainQuery

namespace Outputs

def moveTo (o : Outputs) (path : String) : Outputs :=
  match o.disk.makeFolders path with
  | (disk, none) => { o with disk := disk }.setFolder path
  | (disk, some _) => { o with disk := disk }

def follow (o : Outputs) : JournalEntry → Outputs × Option WriterError
  | .entered _ => (o, none)
  | .left .block none => o.endBlock
  | .left .block (some _) => (o.discard, none)
  | .left _ _ => (o, none)
  | .staged item =>
    match o.stage item with
    | .ok o => (o, none)
    | .error e => (o, some e)
  | .moved path => (o.moveTo path, none)
  | .closed none => o.endProgram
  | .closed (some _) => o.discard.endProgram

def replay (o : Outputs) (journal : Journal) : Outputs :=
  journal.foldl (fun o e => (o.follow e).1) o

/-- No writer fails while the entries with a property are replayed. -/
def Succeeds (counts : JournalEntry → Prop) (o : Outputs) : Journal → Prop
  | [] => True
  | e :: journal => (counts e → (o.follow e).2 = none) ∧ Succeeds counts (o.follow e).1 journal

def Accepts : Outputs → Journal → Prop :=
  Succeeds fun e => ∃ item, e = .staged item

def Writes : Outputs → Journal → Prop :=
  Succeeds fun e => e.decision?.isSome

instance decidableSucceeds (counts : JournalEntry → Prop) [DecidablePred counts] (o : Outputs) :
    (j : Journal) → Decidable (Succeeds counts o j)
  | [] => .isTrue trivial
  | e :: j => @instDecidableAnd _ _ inferInstance (decidableSucceeds counts (o.follow e).1 j)

instance decidableWrites (o : Outputs) (j : Journal) : Decidable (o.Writes j) :=
  decidableSucceeds (fun e => e.decision?.isSome) o j

theorem replay_cons (o : Outputs) (e : JournalEntry) (journal : Journal) :
    o.replay (e :: journal) = (o.follow e).1.replay journal := rfl

theorem replay_append (o : Outputs) (j k : Journal) : o.replay (j ++ k) = (o.replay j).replay k := by
  unfold replay
  rw [List.foldl_append]

theorem replay_concat (o : Outputs) (j : Journal) (e : JournalEntry) :
    o.replay (j ++ [e]) = ((o.replay j).follow e).1 :=
  o.replay_append j [e]

theorem succeeds_append {counts : JournalEntry → Prop} {o : Outputs} {j k : Journal} :
    Succeeds counts o (j ++ k) ↔ Succeeds counts o j ∧ Succeeds counts (o.replay j) k := by
  induction j generalizing o with
  | nil => simp [Succeeds, replay]
  | cons e j ih =>
    rw [List.cons_append, Succeeds, Succeeds, ih, replay_cons, and_assoc]

/-- A relation of journals to outputs that every entry keeps holds of a journal and what it leads to. -/
theorem replay_induction {counts : JournalEntry → Prop} {motive : Journal → Outputs → Prop}
    {o : Outputs} (hstart : motive [] o)
    (hstep : ∀ (j : Journal) (e : JournalEntry) (o' : Outputs), motive j o' →
      (counts e → (o'.follow e).2 = none) → motive (j ++ [e]) (o'.follow e).1)
    {j : Journal} (h : Succeeds counts o j) : motive j (o.replay j) := by
  have hfrom : ∀ (k before : Journal) (o' : Outputs), motive before o' → Succeeds counts o' k →
      motive (before ++ k) (o'.replay k) := by
    intro k
    induction k with
    | nil =>
      intro before o' hbefore _
      rw [List.append_nil]
      exact hbefore
    | cons e k ih =>
      intro before o' hbefore hk
      rw [List.append_cons, replay_cons]
      exact ih _ _ (hstep before e o' hbefore hk.1) hk.2
  exact hfrom j [] o hstart h

theorem accepts_singleton {o : Outputs} {e : JournalEntry} (h : ∀ item, e ≠ .staged item) :
    o.Accepts [e] := by
  constructor
  · intro hstaged
    obtain ⟨item, heq⟩ := hstaged
    exact absurd heq (h item)
  · trivial

/-- Only staging and the ends of blocks and runs can fail. -/
theorem succeeds_all {o : Outputs} {j : Journal} (haccepts : o.Accepts j) (hwrites : o.Writes j) :
    Succeeds (fun _ => True) o j := by
  induction j generalizing o with
  | nil => trivial
  | cons e j ih =>
    refine ⟨fun _ => ?_, ih haccepts.2 hwrites.2⟩
    cases e with
    | entered x => rfl
    | staged item => exact haccepts.1 ⟨item, rfl⟩
    | moved path => rfl
    | closed failure => exact hwrites.1 rfl
    | left c failure =>
      cases c with
      | block => exact hwrites.1 rfl
      | _ => rfl

end Outputs
end ChainQuery
