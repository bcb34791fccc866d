import ChainQuery.Expression.Literal
import ChainQuery.Expression.Term
import ChainQuery.Proofs.Text.Blank
import ChainQuery.Proofs.Text.Numerals
import ChainQuery.Proofs.Value.Integers

/-!
# Texts of integers

An integer is read from a literal or from the amount of a transaction in two attempts: as a numeral of
128 bits, and as a number of 256 bits without sign in the grammar that lets `_` stand among the digits.
The second attempt is meant for wide integers, but it takes every text that the first one refuses. So a
text with marks, or with no digit at all, is read as well, and its integer is held as a text however
small it is.
-/

namespace ChainQuery

open Text

theorem lt_wordBound {n : Nat} : n < wordBound ↔ (n : Int) < 2 ^ 256 := by
  have hbound : wordBound = 2 ^ 256 := by decide
  rw [hbound]
  omega

namespace Value

/-- The value of a numeral from `-2 ^ 127` to `2 ^ 256 - 1`. -/
def OfNumeral (v : Value) (cs : List Char) : Prop :=
  ∃ i, IntegerNumeral cs i ∧ (-(2 ^ 127) ≤ i ∧ i < 2 ^ 256) ∧ v = ofInt i

/-- The value of a text that is no numeral: digits with marks among them, or nothing at all. -/
def OfMarked (v : Value) (cs : List Char) : Prop :=
  ∃ n : Nat, Grouped cs n ∧ (n : Int) < 2 ^ 256 ∧ (cs = [] ∨ '_' ∈ cs) ∧ v = bigInt (decimal n)

variable {v w : Value} {cs : List Char} {i : Int}

theorem ofInt_of_fits128 (h : fits128 i = true) : ofInt i = int i := by
  rw [ofInt, if_pos h]

theorem ofInt_wide {n : Nat} (h : fits128 n = false) : ofInt n = bigInt (decimal n) := by
  rw [ofInt, h]
  rfl

theorem readInt128?_eq_some : readInt128? cs = some i ↔ IntegerNumeral cs i ∧ fits128 i = true := by
  rw [readInt128?, Option.filter_eq_some_iff, readSigned?_eq_some]

theorem readInt128?_eq_none (h : ∀ i, IntegerNumeral cs i → fits128 i = false) : readInt128? cs = none := by
  refine Option.eq_none_iff_forall_ne_some.2 fun i hread => ?_
  obtain ⟨hi, hfits⟩ := readInt128?_eq_some.1 hread
  rw [h i hi] at hfits
  cases hfits

theorem readInteger?_of_fits128 (h : IntegerNumeral cs i) (hfits : fits128 i = true) :
    readInteger? cs = some (int i) := by
  rw [readInteger?, readInt128?_eq_some.2 ⟨h, hfits⟩]

/-- A numeral beyond 128 bits is left to the second attempt. -/
theorem readInteger?_of_wide (h : IntegerNumeral cs i) (hwide : fits128 i = false) :
    readInteger? cs = (readGrouped? 10 wordBound cs).map fun n => bigInt (decimal n) := by
  rw [readInteger?, readInt128?_eq_none fun j hj => by rwa [← h.unique hj]]

theorem readGrouped?_sign {c : Char} {bound : Nat} (hc : c = '+' ∨ c = '-') :
    readGrouped? 10 bound (c :: cs) = none := by
  refine Option.eq_none_iff_forall_ne_some.2 fun n hread => ?_
  obtain ⟨⟨hchars, -⟩, -⟩ := readGrouped?_eq_some.1 hread
  have hsign := hchars c List.mem_cons_self
  rcases hc with rfl | rfl <;> simp at hsign

/-- A numeral without a plus sign is read exactly if its integer is in the range. -/
theorem readInteger?_of_numeral (h : IntegerNumeral cs i) (hplus : cs.head? ≠ some '+') :
    readInteger? cs = if -(2 ^ 127) ≤ i ∧ i < 2 ^ 256 then some (ofInt i) else none := by
  cases hfits : fits128 i with
  | true =>
    have hrange := fits128_iff.1 hfits
    rw [readInteger?_of_fits128 h hfits, if_pos (by omega), ofInt_of_fits128 hfits]
  | false =>
    have hrange : ¬ (-(2 ^ 127) ≤ i ∧ i < 2 ^ 127) := by
      rw [← fits128_iff, hfits]
      exact Bool.false_ne_true
    rw [readInteger?_of_wide h hfits]
    cases h with
    | plus => exact absurd rfl hplus
    | minus hrun =>
      rw [readGrouped?_sign (.inr rfl), if_neg (by omega)]
      rfl
    | @plain _ n hrun =>
      rw [readGrouped?_of_readRun? (readRun?_eq_some.2 hrun)]
      by_cases hn : (n : Int) < 2 ^ 256
      · rw [if_pos (lt_wordBound.2 hn), if_pos (by omega), ofInt_wide hfits]
        rfl
      · rw [if_neg (mt lt_wordBound.1 hn), if_neg (by omega)]
        rfl

/-- A text that is read is a numeral, not a wide one with a plus sign, or it has marks or no digit. -/
theorem readInteger?_eq_some :
    readInteger? cs = some v ↔
      (v.OfNumeral cs ∧ ¬ (cs.head? = some '+' ∧ ∃ i, IntegerNumeral cs i ∧ 2 ^ 127 ≤ i)) ∨
        v.OfMarked cs := by
  constructor
  · intro hread
    rw [readInteger?] at hread
    split at hread
    · next i hi =>
      obtain rfl := Option.some.inj hread
      obtain ⟨hi, hfits⟩ := readInt128?_eq_some.1 hi
      have hrange := fits128_iff.1 hfits
      refine .inl ⟨⟨i, hi, by omega, (ofInt_of_fits128 hfits).symm⟩, ?_⟩
      rintro ⟨-, j, hj, hwide⟩
      have := hi.unique hj
      omega
    · next hnone =>
      obtain ⟨n, hn, rfl⟩ := Option.map_eq_some_iff.1 hread
      obtain ⟨hgrouped, hn⟩ := readGrouped?_eq_some.1 hn
      by_cases hmarked : cs = [] ∨ '_' ∈ cs
      · exact .inr ⟨n, hgrouped, lt_wordBound.1 hn, hmarked, rfl⟩
      · obtain ⟨hne, hmark⟩ := not_or.1 hmarked
        have hrun := hgrouped.digitRun hne hmark
        have hwide : fits128 n = false := by
          rw [← Bool.not_eq_true]
          intro hfits
          rw [readInt128?_eq_some.2 ⟨.plain hrun, hfits⟩] at hnone
          cases hnone
        refine .inl ⟨⟨n, .plain hrun, ⟨by omega, lt_wordBound.1 hn⟩, (ofInt_wide hwide).symm⟩, ?_⟩
        rintro ⟨hplus, -⟩
        exact hrun.head?_ne (.inl rfl) hplus
  · rintro (⟨⟨i, hi, hrange, rfl⟩, hplus⟩ | ⟨n, hgrouped, hn, hmarked, rfl⟩)
    · by_cases hsign : cs.head? = some '+'
      · have hwide : ¬ 2 ^ 127 ≤ i := fun hwide => hplus ⟨hsign, i, hi, hwide⟩
        have hfits : fits128 i = true := fits128_iff.2 (by omega)
        rw [readInteger?_of_fits128 hi hfits, ofInt_of_fits128 hfits]
      · rw [readInteger?_of_numeral hi hsign, if_pos hrange]
    · have hnone : readInt128? cs = none := readInt128?_eq_none fun i hi =>
        absurd hmarked (not_or.2 ⟨hi.ne_nil, hi.not_mem (by decide) (by decide) (by decide)⟩)
      rw [readInteger?, hnone, readGrouped?_eq_some.2 ⟨hgrouped, lt_wordBound.2 hn⟩]
      rfl

theorem OfMarked.not_numeral (h : v.OfMarked cs) : ¬ IntegerNumeral cs i := by
  obtain ⟨n, -, -, hmarked, -⟩ := h
  exact fun hi => absurd hmarked (not_or.2 ⟨hi.ne_nil, hi.not_mem (by decide) (by decide) (by decide)⟩)

/-- The integer of a text with marks is held as a text, and refused where a number of 128 bits is needed. -/
theorem OfMarked.toInt_eq (h : v.OfMarked cs) : v.toInt = .error (.typeMismatch "int" "int") := by
  obtain ⟨n, -, -, -, rfl⟩ := h
  rfl

theorem OfMarked.trimBlank_eq (h : v.OfMarked cs) : trimBlank cs = cs := by
  obtain ⟨n, ⟨hchars, -⟩, -⟩ := h
  refine trimBlank_of_forall fun c hc => ?_
  obtain hdigit | rfl := hchars c hc
  · exact isBlank_of_isDigit hdigit
  · decide

theorem OfNumeral.trimBlank_eq (h : v.OfNumeral cs) : trimBlank cs = cs := by
  obtain ⟨i, hi, -⟩ := h
  exact hi.trimBlank_eq

end Value

namespace Literal

variable {text cs ds : List Char} {v : Value} {i : Int}

/-- A text with marks or without digits, perhaps after a plus sign. -/
def Marked (cs : List Char) (v : Value) : Prop :=
  v.OfMarked cs ∨ ∃ ds, cs = '+' :: ds ∧ v.OfMarked ds

/-- The texts that are read as integers without being numerals: those with marks, and those of 128 bits
that have a second sign after a plus sign. -/
inductive Overread : List Char → Value → Prop
  | marked {cs : List Char} {v : Value} : Marked cs v → Overread cs v
  | signed {c : Char} {cs : List Char} {i : Int} : c = '+' ∨ c = '-' → IntegerNumeral (c :: cs) i →
      fits128 i = true → Overread ('+' :: c :: cs) (.int i)

theorem not_ofMarked_plus : ¬ v.OfMarked ('+' :: cs) := by
  rintro ⟨n, ⟨hchars, -⟩, -⟩
  have hplus := hchars '+' List.mem_cons_self
  simp at hplus

theorem numeral_plus : IntegerNumeral ('+' :: cs) i ↔ ∃ n : Nat, DigitRun cs n ∧ i = n := by
  constructor
  · intro h
    cases h with
    | plus hrun => exact ⟨_, hrun, rfl⟩
    | plain hrun => exact absurd hrun (not_digitRun_sign (.inl rfl))
  · rintro ⟨n, hrun, rfl⟩
    exact .plus hrun

theorem Overread.not_numeral (h : Overread cs v) : ¬ IntegerNumeral cs i := by
  intro hi
  cases h with
  | marked hmarked =>
    obtain hmarked | ⟨ds, rfl, hmarked⟩ := hmarked
    · exact hmarked.not_numeral hi
    · obtain ⟨n, hrun, -⟩ := numeral_plus.1 hi
      exact hmarked.not_numeral (.plain hrun)
  | signed hsign =>
    obtain ⟨n, hrun, -⟩ := numeral_plus.1 hi
    exact not_digitRun_sign hsign hrun

theorem readInteger?_after_plus :
    Value.readInteger? ds = some v ↔ v.OfNumeral ('+' :: ds) ∨ Overread ('+' :: ds) v := by
  rw [Value.readInteger?_eq_some]
  constructor
  · rintro (⟨⟨i, hi, hrange, rfl⟩, hplus⟩ | hmarked)
    · cases hi with
      | plain hrun => exact .inl ⟨_, .plus hrun, hrange, rfl⟩
      | plus hrun =>
        have hwide := fun hwide => hplus ⟨rfl, _, .plus hrun, hwide⟩
        have hfits := fits128_iff.2 ⟨hrange.1, Int.not_le.1 hwide⟩
        rw [Value.ofInt_of_fits128 hfits]
        exact .inr (.signed (.inl rfl) (.plus hrun) hfits)
      | @minus _ n hrun =>
        have hfits : fits128 (-n) = true := fits128_iff.2 (by omega)
        rw [Value.ofInt_of_fits128 hfits]
        exact .inr (.signed (.inr rfl) (.minus hrun) hfits)
    · exact .inr (.marked (.inr ⟨ds, rfl, hmarked⟩))
  · rintro (⟨i, hi, hrange, rfl⟩ | hover)
    · obtain ⟨n, hrun, rfl⟩ := numeral_plus.1 hi
      refine .inl ⟨⟨n, .plain hrun, hrange, rfl⟩, ?_⟩
      rintro ⟨hplus, -⟩
      exact hrun.head?_ne (.inl rfl) hplus
    · cases hover with
      | marked hmarked =>
        obtain hmarked | ⟨ds', hds, hmarked⟩ := hmarked
        · exact absurd hmarked not_ofMarked_plus
        · cases hds
          exact .inr hmarked
      | signed hsign hi hfits =>
        have hrange := fits128_iff.1 hfits
        refine .inl ⟨⟨_, hi, by omega, (Value.ofInt_of_fits128 hfits).symm⟩, ?_⟩
        rintro ⟨-, j, hj, hwide⟩
        have := hi.unique hj
        omega

/-- A text is read as an integer exactly if it is a numeral in the range or one of the texts that are
read beside them. -/
theorem scalar?_int_eq_some : scalar? .int cs = some v ↔ v.OfNumeral cs ∨ Overread cs v := by
  by_cases hplus : cs.head? = some '+'
  · obtain ⟨ds, rfl⟩ := List.head?_eq_some_iff.1 hplus
    exact readInteger?_after_plus
  · rw [scalar?, getD_dropStart?_of_head?_ne hplus, Value.readInteger?_eq_some]
    constructor
    · rintro (⟨hnumeral, -⟩ | hmarked)
      · exact .inl hnumeral
      · exact .inr (.marked (.inl hmarked))
    · rintro (hnumeral | hover)
      · exact .inl ⟨hnumeral, fun h => hplus h.1⟩
      · cases hover with
        | marked hmarked =>
          obtain hmarked | ⟨ds, rfl, -⟩ := hmarked
          · exact .inr hmarked
          · exact absurd rfl hplus
        | signed => exact absurd rfl hplus

theorem read_int : read .int text =
    match scalar? .int (trimBlank text) with
    | some v => .ok v
    | none => .error (.unresolvedLiteral (String.ofList (trimBlank text))) := by
  cases hread : scalar? .int (trimBlank text) <;> simp only [read, hread]

theorem read_int_eq_ok :
    read .int text = .ok v ↔ v.OfNumeral (trimBlank text) ∨ Overread (trimBlank text) v := by
  rw [← scalar?_int_eq_some, read_int]
  cases scalar? .int (trimBlank text) with
  | some w => simp
  | none => simp

theorem read_int_error {e : BuildError} (h : read .int text = .error e) :
    e = .unresolvedLiteral (String.ofList (trimBlank text)) := by
  rw [read_int] at h
  split at h
  · cases h
  · exact (Except.error.inj h).symm

/-- A numeral is read exactly if its integer is in the range. -/
theorem read_int_of_numeral (h : IntegerNumeral (trimBlank text) i) :
    read .int text =
      if -(2 ^ 127) ≤ i ∧ i < 2 ^ 256 then .ok (Value.ofInt i)
      else .error (.unresolvedLiteral (String.ofList (trimBlank text))) := by
  split
  · next hrange => exact read_int_eq_ok.2 (.inl ⟨i, h, hrange, rfl⟩)
  · next hrange =>
    cases hread : read .int text with
    | error e => rw [read_int_error hread]
    | ok v =>
      obtain ⟨j, hj, hrange', -⟩ | hover := read_int_eq_ok.1 hread
      · rw [hj.unique h] at hrange'
        exact absurd hrange' hrange
      · exact absurd h hover.not_numeral

end Literal

/-- The amounts that are read otherwise than as the numerals that they are: those with marks or without
digits, those with white space around them, and wide ones with a plus sign. -/
inductive TransactionField.Misread (cs : List Char) : Prop
  | marked {v : Value} : v.OfMarked cs → Misread cs
  | padded {v : Value} : trimBlank cs ≠ cs → v.OfNumeral (trimBlank cs) → Misread cs
  | plus {i : Int} : cs.head? = some '+' → IntegerNumeral cs i → 2 ^ 127 ≤ i ∧ i < 2 ^ 256 → Misread cs

section Amounts

variable {t : Transaction} {v : Value}

theorem TransactionField.read_amount_eq_ok :
    amount.read t = .ok v ↔ Value.readInteger? t.amount.toList = some v := by
  rw [read]
  cases Value.readInteger? t.amount.toList with
  | some w => simp
  | none => simp

theorem eval_amount (view : View) :
    (Term.ofName "tx.value").eval { view with transaction := some t } =
      TransactionField.amount.read t := by
  have hname : Term.ofName "tx.value" = .chain (.transaction .amount) := by decide
  rw [hname]
  rfl

/-- An amount is read as its numeral exactly if it is not one of the texts that are misread. -/
theorem TransactionField.amount_exact_iff :
    (∀ v, amount.read t = .ok v ↔ v.OfNumeral (trimBlank t.amount.toList)) ↔
      ¬ Misread t.amount.toList := by
  simp only [read_amount_eq_ok]
  generalize t.amount.toList = cs
  constructor
  · intro hexact hmisread
    cases hmisread with
    | @marked v hmarked =>
      obtain ⟨i, hi, -⟩ := (hexact v).1 (Value.readInteger?_eq_some.2 (.inr hmarked))
      rw [hmarked.trimBlank_eq] at hi
      exact hmarked.not_numeral hi
    | @padded v hpadded hnumeral =>
      obtain ⟨hread, -⟩ | hmarked := Value.readInteger?_eq_some.1 ((hexact v).2 hnumeral)
      · exact hpadded hread.trimBlank_eq
      · exact hpadded hmarked.trimBlank_eq
    | @plus i hplus hi hwide =>
      have hnumeral : (Value.ofInt i).OfNumeral (trimBlank cs) :=
        ⟨i, by rwa [hi.trimBlank_eq], by omega, rfl⟩
      obtain ⟨-, hnarrow⟩ | hmarked := Value.readInteger?_eq_some.1 ((hexact _).2 hnumeral)
      · exact hnarrow ⟨hplus, i, hi, hwide.1⟩
      · exact hmarked.not_numeral hi
  · intro hgood v
    rw [Value.readInteger?_eq_some]
    constructor
    · rintro (⟨hnumeral, -⟩ | hmarked)
      · rwa [hnumeral.trimBlank_eq]
      · exact absurd (.marked hmarked) hgood
    · intro hnumeral
      by_cases htrim : trimBlank cs = cs
      · rw [htrim] at hnumeral
        obtain ⟨i, hi, hrange, -⟩ := id hnumeral
        refine .inl ⟨hnumeral, ?_⟩
        rintro ⟨hplus, j, hj, hwide⟩
        have := hi.unique hj
        exact hgood (.plus hplus hi (by omega))
      · exact absurd (.padded htrim hnumeral) hgood

end Amounts

/-- Every text is read as the integer that it denotes, and every other text is refused, exactly for the
texts that are not read beside the numerals, and for the amounts that are not misread. A numeral of 128
bits is read as a number, which serves as an integer and, unless it is out of their range, as a block
number; what is read of a text with marks serves as neither, however small it is. -/
theorem integer_texts_exact_iff (text : String) (view : View) (t : Transaction) :
    ((∀ v, Literal.read .int text.toList = .ok v ↔ v.OfNumeral (trimBlank text.toList)) ↔
        ∀ v, ¬ Literal.Overread (trimBlank text.toList) v) ∧
      (∀ v, Literal.Overread (trimBlank text.toList) v → Literal.read .int text.toList = .ok v) ∧
      (∀ e, Literal.read .int text.toList = .error e → e = .unresolvedLiteral (trim text)) ∧
      ((∀ v, (Term.ofName "tx.value").eval { view with transaction := some t } = .ok v ↔
          v.OfNumeral (trimBlank t.amount.toList)) ↔
        ¬ TransactionField.Misread t.amount.toList) ∧
      (∀ i, IntegerNumeral (trimBlank text.toList) i → -(2 ^ 127) ≤ i → i < 2 ^ 127 →
        ∃ v, Literal.read .int text.toList = .ok v ∧ v.toInt = .ok i ∧
          (0 ≤ i → i < 2 ^ 64 → v.toBlockNumber = .ok i.toNat)) ∧
      ∀ v, Literal.Marked (trimBlank text.toList) v →
        v.toInt = .error (.typeMismatch "int" "int") := by
  refine ⟨⟨fun hexact v hover => ?_, fun hgood v => ?_⟩, fun v hover => ?_,
    fun e he => Literal.read_int_error he, ?_, fun i hi hlow hhigh => ?_, fun v hmarked => ?_⟩
  · obtain ⟨i, hi, -⟩ := (hexact v).1 (Literal.read_int_eq_ok.2 (.inr hover))
    exact hover.not_numeral hi
  · rw [Literal.read_int_eq_ok]
    exact ⟨fun h => h.resolve_right (hgood v), .inl⟩
  · exact Literal.read_int_eq_ok.2 (.inr hover)
  · simp only [eval_amount]
    exact TransactionField.amount_exact_iff
  · refine ⟨.int i, Literal.read_int_eq_ok.2 (.inl ⟨i, hi, by omega, ?_⟩), rfl,
      fun hpos hblock => Value.toBlockNumber_int hpos (by simpa [Value.blockNumberBound] using hblock)⟩
    exact (Value.ofInt_of_fits128 (fits128_iff.2 ⟨hlow, hhigh⟩)).symm
  · obtain hmarked | ⟨ds, -, hmarked⟩ := hmarked
    · exact hmarked.toInt_eq
    · exact hmarked.toInt_eq

theorem integer_texts_exact_seven :
    ∃ v, Literal.read .int " +7 ".toList = .ok v ∧ v.toBlockNumber = .ok 7 := by
  have hseven : IntegerNumeral (trimBlank " +7 ".toList) 7 :=
    .plus (by decide)
  obtain ⟨-, -, -, -, hnumeral, -⟩ := integer_texts_exact_iff " +7 " {} default
  obtain ⟨v, hread, -, hblock⟩ := hnumeral 7 hseven (by decide) (by decide)
  exact ⟨v, hread, hblock (by decide) (by decide)⟩

/-- The text `1_000` is no numeral, yet it is read, and as an integer that is no block number. -/
theorem marked_text_read :
    Literal.read .int "1_000".toList = .ok (.bigInt "1000") ∧
      (∀ i, ¬ IntegerNumeral (trimBlank "1_000".toList) i) ∧
      (Value.bigInt "1000").toBlockNumber = .error (.typeMismatch "int" "int") := by
  have hdigits : digits 10 1000 = [1, 0, 0, 0] := by simp [digits]
  have hmarked : (Value.bigInt "1000").OfMarked (trimBlank "1_000".toList) := by
    refine ⟨1000, by decide, by decide, .inr (by decide), ?_⟩
    rw [decimal, render, hdigits]
    decide
  exact ⟨Literal.read_int_eq_ok.2 (.inr (.marked (.inl hmarked))),
    fun i => hmarked.not_numeral, rfl⟩

end ChainQuery
