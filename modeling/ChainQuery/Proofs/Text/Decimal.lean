import ChainQuery.Value.Integer

/-!
# Decimal texts read back

A number that is written in decimal is read back as itself: the digits of a number are the digits
that the grouped grammar reads, a bound that the number meets lets it pass, and a sign in front of
them is taken off.
-/

namespace ChainQuery.Text

theorem digits_lt {radix : Nat} (hr : 2 ≤ radix) (n : Nat) : ∀ d ∈ digits radix n, d < radix := by
  induction n using Nat.strongRecOn with
  | ind n ih =>
    rw [digits]
    split
    · rename_i h
      intro d hd
      rw [List.mem_singleton.1 hd]
      omega
    · rename_i h
      intro d hd
      rcases List.mem_append.1 hd with hd | hd
      · exact ih _ (Nat.div_lt_self (by omega) (by omega)) d hd
      · rw [List.mem_singleton.1 hd]
        exact Nat.mod_lt n (by omega)

theorem digits_ne_nil (radix n : Nat) : digits radix n ≠ [] := by
  rw [digits]
  split <;> simp

/-- The first digit of a number is zero for zero only. -/
theorem head?_digits_ne_zero {radix n : Nat} (hr : 2 ≤ radix) (hn : n ≠ 0) :
    (digits radix n).head? ≠ some 0 := by
  induction n using Nat.strongRecOn with
  | ind n ih =>
    rw [digits]
    split
    · next hsmall =>
      intro hhead
      exact hn (Option.some.inj hhead)
    · next hlarge =>
      have hquotient : n / radix ≠ 0 := Nat.div_ne_zero_iff.2 (by omega)
      have hfirst := ih _ (Nat.div_lt_self (by omega) (by omega)) hquotient
      obtain ⟨d, ds, hds⟩ := List.exists_cons_of_ne_nil (digits_ne_nil radix (n / radix))
      rw [hds] at hfirst ⊢
      exact hfirst

theorem digitChar_eq {d : Nat} (h : d < 16) : digitChar d = Nat.digitChar d := by
  decide +revert

theorem eq_zero_of_digitChar {d : Nat} (h : d < 16) : digitChar d = '0' → d = 0 := by
  decide +revert

theorem ofDigits_replicate_zero (radix zeros : Nat) (ds : List Nat) :
    ofDigits radix (List.replicate zeros 0 ++ ds) = ofDigits radix ds := by
  induction zeros with
  | zero => rfl
  | succ zeros ih => simpa [ofDigits, List.replicate_succ] using ih

theorem render_eq_toDigits {radix : Nat} (hr : 2 ≤ radix ∧ radix ≤ 16) (n : Nat) :
    render radix n = Nat.toDigits radix n := by
  induction n using Nat.strongRecOn with
  | ind n ih =>
    rw [render, digits]
    split
    · next hsmall =>
      rw [Nat.toDigits_of_lt_base (by omega), List.map_singleton, digitChar_eq (by omega)]
    · next hlarge =>
      have hlast : n % radix < radix := Nat.mod_lt n (by omega)
      rw [List.map_append, ← render, ih _ (Nat.div_lt_self (by omega) (by omega)),
        Nat.toDigits_of_base_le (b := radix) (n := n) (by omega) (by omega), List.map_singleton,
        digitChar_eq (by omega)]

theorem decimal_eq_toString (n : Nat) : decimal n = toString n := by
  rw [decimal, render_eq_toDigits (by decide), Nat.toString_eq_ofList_toDigits]

theorem digitBelow?_digitChar {d : Nat} (h : d < 10) : digitBelow? 10 (digitChar d) = some d := by
  decide +revert

theorem digitChar_ne {d : Nat} (h : d < 10) :
    digitChar d ≠ '_' ∧ digitChar d ≠ '+' ∧ digitChar d ≠ '-' := by
  decide +revert

theorem mapM_digitBelow? {ds : List Nat} (h : ∀ d ∈ ds, d < 10) :
    (ds.map digitChar).mapM (digitBelow? 10) = some ds := by
  induction ds with
  | nil => rfl
  | cons d ds ih =>
    have hd := digitBelow?_digitChar (h d List.mem_cons_self)
    have hs := ih fun x hx => h x (List.mem_cons_of_mem d hx)
    simp [List.mapM_cons, hd, hs]

theorem filter_of_mapM {radix : Nat} {cs : List Char} {ds : List Nat}
    (h : cs.mapM (digitBelow? radix) = some ds) : cs.filter (· ≠ '_') = cs := by
  induction cs generalizing ds with
  | nil => rfl
  | cons c cs ih =>
    rw [List.mapM_cons] at h
    obtain ⟨d, hd, h⟩ := Option.bind_eq_some_iff.1 h
    obtain ⟨ds', hds, -⟩ := Option.bind_eq_some_iff.1 h
    have hc : c ≠ '_' := by
      rintro rfl
      cases hd
    rw [List.filter_cons_of_pos (by simpa using hc), ih hds]

/-- A run of digits is read in the grouped grammar as well, if its number is below the bound. -/
theorem readGrouped?_of_readRun? {bound n : Nat} {cs : List Char} (h : readRun? 10 cs = some n) :
    readGrouped? 10 bound cs = if n < bound then some n else none := by
  cases cs with
  | nil => cases h
  | cons c cs =>
    obtain ⟨ds, hds, rfl⟩ := Option.map_eq_some_iff.1 h
    rw [readGrouped?, filter_of_mapM hds, hds, Option.map_some, Option.filter_some]
    simp

theorem render_eq_cons (n : Nat) : ∃ c cs, render 10 n = c :: cs ∧ c ≠ '+' ∧ c ≠ '-' := by
  obtain ⟨d, ds, h⟩ := List.exists_cons_of_ne_nil (digits_ne_nil 10 n)
  have hd : d < 10 := digits_lt (by decide) n d (h ▸ List.mem_cons_self)
  exact ⟨digitChar d, ds.map digitChar, by rw [render, h, List.map_cons], (digitChar_ne hd).2⟩

theorem readRun?_render (n : Nat) : readRun? 10 (render 10 n) = some n := by
  have h : (render 10 n).mapM (digitBelow? 10) = some (digits 10 n) :=
    mapM_digitBelow? (digits_lt (by decide) n)
  obtain ⟨c, cs, hc, -⟩ := render_eq_cons n
  rw [hc] at h ⊢
  rw [readRun?, h, Option.map_some, ofDigits_digits]

/-- A number below the bound is read back from its digits, any other one is refused. -/
theorem readGrouped?_render (bound n : Nat) :
    readGrouped? 10 bound (render 10 n) = if n < bound then some n else none :=
  readGrouped?_of_readRun? (readRun?_render n)

theorem isDigit_digitChar {d : Nat} (h : d < 10) : (digitChar d).isDigit = true := by
  decide +revert

theorem isDigit_of_mem_render {n : Nat} {c : Char} (h : c ∈ render 10 n) : c.isDigit = true := by
  obtain ⟨d, hd, rfl⟩ := List.mem_map.1 h
  exact isDigit_digitChar (digits_lt (by decide) n d hd)

theorem toList_decimal (n : Nat) : (decimal n).toList = render 10 n := by
  rw [decimal, String.toList_ofList]

/-- The text of an integer is read as that integer. -/
theorem readSigned?_signedDecimal (i : Int) : readSigned? (signedDecimal i).toList = some i := by
  cases i with
  | ofNat n =>
    obtain ⟨c, cs, hc, hp, hm⟩ := render_eq_cons n
    have hr := readRun?_render n
    rw [signedDecimal, toList_decimal]
    rw [hc] at hr ⊢
    unfold readSigned?
    split
    · exact absurd (List.cons.inj ‹_›).1 hp
    · exact absurd (List.cons.inj ‹_›).1 hm
    · rw [hr]
      rfl
  | negSucc n =>
    rw [signedDecimal, String.toList_ofList, readSigned?, readRun?_render]
    rfl

theorem render_ne_nil (n : Nat) : render 10 n ≠ [] := by
  simpa [render] using digits_ne_nil 10 n

/-- The number that the digits of a text denote, whatever stands between them. -/
def groupedNumber (cs : List Char) : Nat :=
  ofDigits 10 (cs.filterMap (digitBelow? 10))

/-- The integer that a text denotes: an optional sign, then digits. -/
def groupedInteger (s : String) : Int :=
  match s.toList with
  | '+' :: cs => groupedNumber cs
  | '-' :: cs => -groupedNumber cs
  | cs => groupedNumber cs

theorem filterMap_of_mapM {cs : List Char} {ds : List Nat}
    (h : (cs.filter (· ≠ '_')).mapM (digitBelow? 10) = some ds) :
    cs.filterMap (digitBelow? 10) = ds := by
  induction cs generalizing ds with
  | nil =>
    cases h
    rfl
  | cons c cs ih =>
    by_cases hc : c = '_'
    · subst hc
      exact ih h
    · rw [List.filter_cons_of_pos (by simpa using hc), List.mapM_cons] at h
      obtain ⟨d, hd, h⟩ := Option.bind_eq_some_iff.1 h
      obtain ⟨ds', hds, h⟩ := Option.bind_eq_some_iff.1 h
      cases h
      rw [List.filterMap_cons_some hd, ih hds]

theorem groupedNumber_of_readGrouped? {bound n : Nat} {cs : List Char}
    (h : readGrouped? 10 bound cs = some n) : groupedNumber cs = n ∧ n < bound := by
  obtain ⟨h, hn⟩ := Option.filter_eq_some_iff.1 h
  obtain ⟨ds, hds, rfl⟩ := Option.map_eq_some_iff.1 h
  rw [groupedNumber, filterMap_of_mapM hds]
  exact ⟨rfl, of_decide_eq_true hn⟩

theorem groupedInteger_of_readGrouped? {bound n : Nat} {s : String}
    (h : readGrouped? 10 bound s.toList = some n) : groupedInteger s = n := by
  have hn := (groupedNumber_of_readGrouped? h).1
  have signless {c : Char} {cs : List Char} (hc : c = '+' ∨ c = '-') :
      readGrouped? 10 bound (c :: cs) = none := by
    rcases hc with rfl | rfl <;> simp [readGrouped?, List.mapM_cons, digitBelow?, digitValue?]
  unfold groupedInteger
  split
  · rename_i cs hs
    rw [hs, signless (.inl rfl)] at h
    cases h
  · rename_i cs hs
    rw [hs, signless (.inr rfl)] at h
    cases h
  · rw [hn]

theorem groupedNumber_of_readRun? {n : Nat} {cs : List Char} (h : readRun? 10 cs = some n) :
    groupedNumber cs = n := by
  have hn : readGrouped? 10 (n + 1) cs = some n := by
    rw [readGrouped?_of_readRun? h, if_pos (Nat.lt_succ_self n)]
  exact (groupedNumber_of_readGrouped? hn).1

theorem groupedInteger_of_readSigned? {s : String} {i : Int} (h : readSigned? s.toList = some i) :
    groupedInteger s = i := by
  unfold readSigned? at h
  split at h
  all_goals
    obtain ⟨n, hn, rfl⟩ := Option.map_eq_some_iff.1 h
    have hnumber := groupedNumber_of_readRun? hn
  · next cs hs => simp [groupedInteger, hs, hnumber]
  · next cs hs => simp [groupedInteger, hs, hnumber]
  · next cs hplus hminus =>
    unfold groupedInteger
    split
    · exact absurd ‹_› (hplus _)
    · exact absurd ‹_› (hminus _)
    · exact congrArg Nat.cast hnumber

end ChainQuery.Text

namespace ChainQuery

theorem not_fits256 {i : Int} (h : wordBound ≤ i.natAbs) : fits256 i = false := by
  simp only [wordBound, fits256, Nat.pow_eq] at *
  simp
  omega

/-- Digits become an integer of 256 bits exactly when it is one, whichever sign they are given. -/
theorem filter_readGrouped?_of_readRun? {cs : List Char} {n : Nat} {f : Nat → Int}
    (h : Text.readRun? 10 cs = some n) (hf : (f n).natAbs = n) :
    ((Text.readGrouped? 10 wordBound cs).map f).filter fits256 =
      if fits256 (f n) then some (f n) else none := by
  rw [Text.readGrouped?_of_readRun? h]
  split
  · rw [Option.map_some, Option.filter_some]
  · next hlarge =>
    have hwide : fits256 (f n) = false := not_fits256 (by omega)
    simp [hwide]

/-- A decimal text is read as an integer of 256 bits exactly when its integer is one. -/
theorem readInt256?_of_readSigned? {s : String} {i : Int}
    (h : Text.readSigned? s.toList = some i) :
    readInt256? s = if fits256 i then some i else none := by
  -- both readers look at the sign first, so the cases of the one decide the other
  unfold Text.readSigned? at h
  split at h
  · next cs hs =>
    obtain ⟨n, hn, rfl⟩ := Option.map_eq_some_iff.1 h
    simpa [readInt256?, hs] using filter_readGrouped?_of_readRun? hn (f := fun n => Int.ofNat n) rfl
  · next cs hs =>
    obtain ⟨n, hn, rfl⟩ := Option.map_eq_some_iff.1 h
    simpa [readInt256?, hs] using
      filter_readGrouped?_of_readRun? hn (f := fun n => -Int.ofNat n) (by simp)
  · next cs hplus hminus =>
    obtain ⟨n, hn, rfl⟩ := Option.map_eq_some_iff.1 h
    have hresult : ((Text.readGrouped? 10 wordBound s.toList).map Int.ofNat).filter fits256 =
        if fits256 (Int.ofNat n) then some (Int.ofNat n) else none :=
      filter_readGrouped?_of_readRun? hn rfl
    rw [← hresult]
    unfold readInt256?
    split
    · next cs hs => exact absurd hs (hplus cs)
    · next cs hs => exact absurd hs (hminus cs)
    · rfl

/-- The text of an integer is read back exactly when the integer fits a word with its sign. -/
theorem readInt256?_signedDecimal (i : Int) :
    readInt256? (Text.signedDecimal i) = if fits256 i then some i else none :=
  readInt256?_of_readSigned? (Text.readSigned?_signedDecimal i)

theorem groupedInteger_of_readInt256? {s : String} {i : Int} (h : readInt256? s = some i) :
    Text.groupedInteger s = i ∧ fits256 i = true := by
  obtain ⟨h, hi⟩ := Option.filter_eq_some_iff.1 h
  refine ⟨?_, hi⟩
  obtain ⟨n, hn, rfl⟩ := Option.map_eq_some_iff.1 h
  have hnumber := (Text.groupedNumber_of_readGrouped? hn).1
  split at hnumber
  · next cs hs => simp [Text.groupedInteger, hs, hnumber]
  · next cs hs => simp [Text.groupedInteger, hs, hnumber]
  · next cs hplus hminus =>
    unfold Text.groupedInteger
    split
    · next cs hs => exact absurd hs (hplus cs)
    · next cs hs => exact absurd hs (hminus cs)
    · exact congrArg Nat.cast hnumber

end ChainQuery
