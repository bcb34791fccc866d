import ChainQuery.Output.Staging

/-!
# When staged items leave

What a stage gives away along steps, told item by item: an item that is discarded stays behind, and any
other one leaves at the first flush from the end of its block on. Items leave in the order in which
they were staged, each of them once.
-/

namespace ChainQuery

inductive StageStep (α : Type) where
  | push (item : α)
  | endBlock
  | discard
  | endProgram

namespace Staging

/-- A stage after a step, and the items that are due at it. -/
def perform (s : Staging α) : StageStep α → Staging α × List α
  | .push item => (s.push item, [])
  | .endBlock => s.endBlock
  | .discard => (s.discard, [])
  | .endProgram => s.endProgram

/-- The items that are due along steps, each with the mark of the step at which it is. -/
def given (s : Staging α) : List (StageStep α × β) → List (α × β)
  | [] => []
  | (step, mark) :: steps =>
    (s.perform step).2.map (·, mark) ++ (s.perform step).1.given steps

end Staging

namespace StageStep

/-- The mark of the first flush. In the mode that writes at the end only the end of the program is
one. -/
def flush? (mode : EmissionMode) : List (StageStep α × β) → Option β
  | [] => none
  | (.endProgram, mark) :: _ => some mark
  | (.endBlock, mark) :: steps =>
    match mode with
    | .block => some mark
    | .program => flush? mode steps
  | _ :: steps => flush? mode steps

/-- The mark of the step at which an item leaves that is staged before the steps. -/
def departure? (mode : EmissionMode) : List (StageStep α × β) → Option β
  | [] => none
  | (.push _, _) :: steps => departure? mode steps
  | (.discard, _) :: _ => none
  | steps => flush? mode steps

/-- The items that leave, in the order in which they are staged. -/
def departures (mode : EmissionMode) : List (StageStep α × β) → List (α × β)
  | [] => []
  | (.push item, _) :: steps =>
    ((departure? mode steps).map (item, ·)).toList ++ departures mode steps
  | _ :: steps => departures mode steps

/-- Whether what is staged before the steps is discarded. -/
def discards : List (StageStep α) → Bool
  | .push _ :: steps => discards steps
  | .discard :: _ => true
  | _ => false

/-- The items that are staged and not discarded. -/
def kept : List (StageStep α) → List α
  | [] => []
  | .push item :: steps => if discards steps then kept steps else item :: kept steps
  | _ :: steps => kept steps

end StageStep

namespace Staging

open StageStep

/-- What was committed leaves first, then what was staged, and then what comes. -/
theorem given_eq (s : Staging α) (steps : List (StageStep α × β)) :
    s.given steps =
      s.committed.filterMap (fun item => (flush? s.mode steps).map (item, ·)) ++
        s.staged.filterMap (fun item => (departure? s.mode steps).map (item, ·)) ++
          departures s.mode steps := by
  induction steps generalizing s with
  | nil => simp [given, flush?, departure?, departures]
  | cons x steps ih =>
    obtain ⟨step, mark⟩ := x
    rw [given]
    cases step with
    | push item =>
      have hmode : (s.push item).mode = s.mode := rfl
      rw [perform, ih, hmode]
      simp [push, flush?, departure?, departures, Option.toList]
      cases departure? s.mode steps <;> rfl
    | endBlock =>
      cases hmode : s.mode with
      | block => simp [perform, endBlock, ih, hmode, flush?, departure?, departures]
      | program => simp [perform, endBlock, ih, hmode, flush?, departure?, departures]
    | discard => simp [perform, discard, ih, flush?, departure?, departures]
    | endProgram => simp [perform, endProgram, ih, flush?, departure?, departures]

/-- From an empty stage the items leave that were staged and not discarded, in their order. -/
theorem given_eq_departures (mode : EmissionMode) (steps : List (StageStep α × β)) :
    given { mode := mode } steps = departures mode steps := by
  rw [given_eq]
  rfl

def performAll (s : Staging α) (steps : List (StageStep α)) : Staging α :=
  steps.foldl (fun s step => (s.perform step).1) s

def due (s : Staging α) (steps : List (StageStep α)) : List α :=
  (s.given (steps.map (·, ()))).map (·.1)

end Staging
end ChainQuery
