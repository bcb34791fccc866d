import ChainQuery.Proofs.Text.Blank
import ChainQuery.Proofs.Text.Decimal

/-!
# Numerals

The texts of the two grammars of integers and what they denote: a run of digits, with one sign at most,
and digits among which `_` may stand. Each reader accepts the texts of its grammar and no others.
-/

namespace ChainQuery.Text

/-- One or more decimal digits, and the number that they denote. -/
def DigitRun (cs : List Char) (n : Nat) : Prop :=
  cs ≠ [] ∧ (∀ c ∈ cs, c.isDigit = true) ∧ groupedNumber cs = n

instance (cs : List Char) (n : Nat) : Decidable (DigitRun cs n) :=
  decidable_of_iff (cs ≠ [] ∧ cs.all Char.isDigit = true ∧ groupedNumber cs = n) (by
    rw [List.all_eq_true, DigitRun])

/-- One optional sign and a run of digits, and the integer that they denote. -/
inductive IntegerNumeral : List Char → Int → Prop
  | plain {cs : List Char} {n : Nat} : DigitRun cs n → IntegerNumeral cs n
  | plus {cs : List Char} {n : Nat} : DigitRun cs n → IntegerNumeral ('+' :: cs) n
  | minus {cs : List Char} {n : Nat} : DigitRun cs n → IntegerNumeral ('-' :: cs) (-n)

/-- Digits, perhaps none, among which `_` may stand anywhere, and the number that they denote. -/
def Grouped (cs : List Char) (n : Nat) : Prop :=
  (∀ c ∈ cs, c.isDigit = true ∨ c = '_') ∧ groupedNumber cs = n

instance (cs : List Char) (n : Nat) : Decidable (Grouped cs n) :=
  decidable_of_iff (cs.all (fun c => c.isDigit || c == '_') = true ∧ groupedNumber cs = n) (by
    simp only [List.all_eq_true, Bool.or_eq_true, beq_iff_eq, Grouped])

variable {cs : List Char} {c : Char} {n : Nat} {i : Int}

theorem isDigit_of_digitBelow? {d : Nat} (h : digitBelow? 10 c = some d) : c.isDigit = true := by
  obtain ⟨hvalue, hd⟩ := Option.filter_eq_some_iff.1 h
  have hd : d < 10 := of_decide_eq_true hd
  have hle {a b : Char} : a ≤ b ↔ a.toNat ≤ b.toNat := UInt32.le_iff_toNat_le
  simp only [digitValue?, hle, Char.reduceToNat] at hvalue
  rw [isDigit_iff]
  split at hvalue
  · assumption
  · -- a letter would count ten at least
    split at hvalue
    · cases hvalue
      omega
    · split at hvalue
      · cases hvalue
        omega
      · cases hvalue

theorem exists_digitBelow? (h : c.isDigit = true) : ∃ d, digitBelow? 10 c = some d := by
  have hc := isDigit_iff.1 h
  have hle {a b : Char} : a ≤ b ↔ a.toNat ≤ b.toNat := UInt32.le_iff_toNat_le
  refine ⟨c.toNat - 48, Option.filter_eq_some_iff.2 ⟨?_, by simp; omega⟩⟩
  simp only [digitValue?, hle, Char.reduceToNat]
  rw [if_pos hc]

theorem forall_isDigit_of_mapM {ds : List Nat} (h : cs.mapM (digitBelow? 10) = some ds) :
    ∀ c ∈ cs, c.isDigit = true := by
  induction cs generalizing ds with
  | nil => exact nofun
  | cons c cs ih =>
    rw [List.mapM_cons] at h
    obtain ⟨d, hd, h⟩ := Option.bind_eq_some_iff.1 h
    obtain ⟨ds', hds, -⟩ := Option.bind_eq_some_iff.1 h
    exact List.forall_mem_cons.2 ⟨isDigit_of_digitBelow? hd, ih hds⟩

theorem exists_mapM_digitBelow? (h : ∀ c ∈ cs, c.isDigit = true) :
    ∃ ds, cs.mapM (digitBelow? 10) = some ds := by
  induction cs with
  | nil => exact ⟨[], rfl⟩
  | cons c cs ih =>
    obtain ⟨hc, hcs⟩ := List.forall_mem_cons.1 h
    obtain ⟨d, hd⟩ := exists_digitBelow? hc
    obtain ⟨ds, hds⟩ := ih hcs
    exact ⟨d :: ds, by simp [List.mapM_cons, hd, hds]⟩

theorem readRun?_eq_some : readRun? 10 cs = some n ↔ DigitRun cs n := by
  constructor
  · intro h
    have hnumber := groupedNumber_of_readRun? h
    cases cs with
    | nil => cases h
    | cons c cs =>
      obtain ⟨ds, hds, -⟩ := Option.map_eq_some_iff.1 h
      exact ⟨List.cons_ne_nil c cs, forall_isDigit_of_mapM hds, hnumber⟩
  · rintro ⟨hne, hdigits, rfl⟩
    obtain ⟨ds, hds⟩ := exists_mapM_digitBelow? hdigits
    obtain ⟨c, cs, rfl⟩ := List.exists_cons_of_ne_nil hne
    have hread : readRun? 10 (c :: cs) = some (ofDigits 10 ds) := by
      rw [readRun?, hds, Option.map_some]
    rw [hread, groupedNumber_of_readRun? hread]

theorem not_digitRun_sign (hc : c = '+' ∨ c = '-') : ¬ DigitRun (c :: cs) n := by
  rintro ⟨-, hdigits, -⟩
  have hdigit := hdigits c List.mem_cons_self
  rcases hc with rfl | rfl <;> cases hdigit

theorem DigitRun.head?_ne (h : DigitRun cs n) (hc : c = '+' ∨ c = '-') : cs.head? ≠ some c := by
  intro hhead
  obtain ⟨ds, rfl⟩ := List.head?_eq_some_iff.1 hhead
  exact not_digitRun_sign hc h

/-- A sign is dropped only from a text that begins with it. -/
theorem getD_dropStart?_of_head?_ne (h : cs.head? ≠ some c) : (dropStart? [c] cs).getD cs = cs := by
  cases cs with
  | nil => rfl
  | cons d cs =>
    have hd : (c == d) = false := by
      rw [beq_eq_false_iff_ne]
      rintro rfl
      exact h rfl
    simp [dropStart?, hd]

theorem readSigned?_eq_some : readSigned? cs = some i ↔ IntegerNumeral cs i := by
  constructor
  · intro h
    unfold readSigned? at h
    split at h
    all_goals
      obtain ⟨n, hn, rfl⟩ := Option.map_eq_some_iff.1 h
      have hrun := readRun?_eq_some.1 hn
    · exact .plus hrun
    · exact .minus hrun
    · exact .plain hrun
  · intro h
    cases h with
    | plus hrun => rw [readSigned?, readRun?_eq_some.2 hrun]; rfl
    | minus hrun => rw [readSigned?, readRun?_eq_some.2 hrun]; rfl
    | plain hrun =>
      have hread := readRun?_eq_some.2 hrun
      unfold readSigned?
      split
      · exact absurd hrun (not_digitRun_sign (.inl rfl))
      · exact absurd hrun (not_digitRun_sign (.inr rfl))
      · rw [hread]; rfl

/-- A text denotes one integer at most. -/
theorem IntegerNumeral.unique {j : Int} (hi : IntegerNumeral cs i) (hj : IntegerNumeral cs j) : i = j :=
  Option.some.inj ((readSigned?_eq_some.2 hi).symm.trans (readSigned?_eq_some.2 hj))

theorem readGrouped?_eq_some {bound : Nat} :
    readGrouped? 10 bound cs = some n ↔ Grouped cs n ∧ n < bound := by
  constructor
  · intro h
    obtain ⟨hnumber, hbound⟩ := groupedNumber_of_readGrouped? h
    obtain ⟨hread, -⟩ := Option.filter_eq_some_iff.1 h
    obtain ⟨ds, hds, -⟩ := Option.map_eq_some_iff.1 hread
    refine ⟨⟨fun c hc => ?_, hnumber⟩, hbound⟩
    by_cases hmark : c = '_'
    · exact .inr hmark
    · exact .inl (forall_isDigit_of_mapM hds c (List.mem_filter.2 ⟨hc, by simpa using hmark⟩))
  · rintro ⟨⟨hchars, rfl⟩, hbound⟩
    have hdigits : ∀ c ∈ cs.filter (· ≠ '_'), c.isDigit = true := by
      intro c hc
      obtain ⟨hc, hmark⟩ := List.mem_filter.1 hc
      exact (hchars c hc).resolve_right (by simpa using hmark)
    obtain ⟨ds, hds⟩ := exists_mapM_digitBelow? hdigits
    have hnumber : groupedNumber cs = ofDigits 10 ds := by
      rw [groupedNumber, filterMap_of_mapM hds]
    rw [readGrouped?, hds, Option.map_some, ← hnumber, Option.filter_some,
      if_pos (decide_eq_true hbound)]

theorem Grouped.digitRun (h : Grouped cs n) (hne : cs ≠ []) (hmark : '_' ∉ cs) : DigitRun cs n := by
  refine ⟨hne, fun c hc => (h.1 c hc).resolve_right ?_, h.2⟩
  rintro rfl
  exact hmark hc

theorem IntegerNumeral.ne_nil (h : IntegerNumeral cs i) : cs ≠ [] := by
  cases h with
  | plain hrun => exact hrun.1
  | plus => exact List.cons_ne_nil _ _
  | minus => exact List.cons_ne_nil _ _

theorem IntegerNumeral.digit_or_sign (h : IntegerNumeral cs i) :
    ∀ c ∈ cs, c.isDigit = true ∨ c = '+' ∨ c = '-' := by
  cases h with
  | plain hrun => exact fun c hc => .inl (hrun.2.1 c hc)
  | plus hrun =>
    exact List.forall_mem_cons.2 ⟨.inr (.inl rfl), fun c hc => .inl (hrun.2.1 c hc)⟩
  | minus hrun =>
    exact List.forall_mem_cons.2 ⟨.inr (.inr rfl), fun c hc => .inl (hrun.2.1 c hc)⟩

theorem IntegerNumeral.not_mem (h : IntegerNumeral cs i) (hdigit : c.isDigit = false) (hplus : c ≠ '+')
    (hminus : c ≠ '-') : c ∉ cs := by
  intro hc
  obtain hc | hc | hc := h.digit_or_sign c hc
  · rw [hdigit] at hc
    cases hc
  · exact hplus hc
  · exact hminus hc

theorem IntegerNumeral.trimBlank_eq (h : IntegerNumeral cs i) : trimBlank cs = cs := by
  refine trimBlank_of_forall fun c hc => ?_
  obtain hdigit | rfl | rfl := h.digit_or_sign c hc
  · exact isBlank_of_isDigit hdigit
  · decide
  · decide

/-- The text of an integer is a numeral. -/
theorem numeral_signedDecimal (i : Int) : IntegerNumeral (signedDecimal i).toList i :=
  readSigned?_eq_some.1 (readSigned?_signedDecimal i)

end ChainQuery.Text
