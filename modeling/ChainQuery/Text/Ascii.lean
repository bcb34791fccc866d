/-!
# ASCII letter case

Addresses, hashes and topics are compared without regard to the case of ASCII letters. `foldCase`
is the common form, and `equalFold` compares two texts by it, so it is an equivalence.
-/

namespace ChainQuery.Text

/-- The characters of a text with ASCII capitals made small; every other character is kept. -/
def foldCase (s : String) : List Char :=
  s.toList.map Char.toLower

/-- Two texts that differ at most in the case of ASCII letters. -/
def equalFold (a b : String) : Bool :=
  foldCase a == foldCase b

theorem equalFold_iff {a b : String} : equalFold a b = true ↔ foldCase a = foldCase b := by
  simp [equalFold]

theorem equalFold_comm (a b : String) : equalFold a b = equalFold b a := by
  rw [Bool.eq_iff_iff, equalFold_iff, equalFold_iff, eq_comm]

theorem equalFold_trans {a b c : String} (hab : equalFold a b = true)
    (hbc : equalFold b c = true) : equalFold a c = true := by
  rw [equalFold_iff] at *
  exact hab.trans hbc

def dropStart? [BEq α] : List α → List α → Option (List α)
  | [], cs => some cs
  | _ :: _, [] => none
  | p :: ps, c :: cs => if p == c then dropStart? ps cs else none

theorem eq_append_of_dropStart? [BEq α] [LawfulBEq α] {ps cs rest : List α}
    (h : dropStart? ps cs = some rest) : cs = ps ++ rest := by
  induction ps generalizing cs with
  | nil => simpa [dropStart?] using h
  | cons p ps ih =>
    cases cs with
    | nil => simp [dropStart?] at h
    | cons c cs =>
      by_cases hpc : p = c
      · subst hpc
        simp only [dropStart?, BEq.rfl, if_true] at h
        rw [ih h, List.cons_append]
      · simp [dropStart?, hpc] at h

def dropLast? [BEq α] (c : α) (cs : List α) : Option (List α) :=
  match cs.reverse with
  | [] => none
  | last :: front => if last == c then some front.reverse else none

theorem dropLast?_append [BEq α] [LawfulBEq α] (c : α) (cs : List α) :
    dropLast? c (cs ++ [c]) = some cs := by
  simp [dropLast?]

end ChainQuery.Text
